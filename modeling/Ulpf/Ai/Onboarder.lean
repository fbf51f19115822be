import Mathlib.Data.List.Sort
import Ulpf.Ai.ParserDefinition

/-!
# The onboarder

From three or more sample lines the onboarder synthesizes an expression, and it hands out the
parser only if every sample passes the sandbox. Expressions that the code writes out are
compiled by the `regex` crate like all others; the code relies on it to accept them.
-/

namespace Ulpf.Ai
open Ulpf.Core
open Ulpf.Library.Binary64

/-- `Ipv4Addr::from_str(s).is_ok()` -/
def isIpv4 (s : Text) : Bool :=
  let octets := s.splitOn '.'
  octets.length == 4 && octets.all fun octet =>
    octet ≠ [] && octet.all Char.isDigit && octet.length ≤ 3 &&
      (octet.length == 1 || octet.head? != some '0') && Nat.ofDigitChars 10 octet 0 ≤ 255

namespace RegexCrate

variable (regex : RegexCrate) (pattern haystack : String)

def isMatch : Bool := (regex.new pattern).any (·.isMatch haystack)

def find : Option ℕ := (regex.new pattern).bind (·.find haystack)

end RegexCrate

/-- Result of automated sandbox validation on synthesized parser -/
structure ValidationReport where
  passed : Bool
  totalSamples : ℕ
  matchedSamples : ℕ
  matchPercentage : ℚ
  errors : List String

namespace Onboarder

/-! ### Sandbox validation -/

def sampleName (idx : ℕ) : String := "Sample #" ++ toString (idx + 1)

/-- The error of a group that has to be an address. -/
def checkIp (idx : ℕ) (caps : Match) (group : String) : Option String :=
  match caps.name group with
  | some ip =>
    if isIpv4 ip.toList then none
    else some (sampleName idx ++ ": invalid IPv4 for " ++ group ++ ": \x27" ++ ip ++ "\x27")
  | none =>
    some (sampleName idx ++ ": missing required capture group \x27" ++ group ++ "\x27")

/-- The error of a group that has to be a port if it is there. -/
def checkPort (idx : ℕ) (caps : Match) (group : String) : Option String :=
  match caps.name group with
  | some port =>
    if (parseUInt16 port.toList).isSome then none
    else some (sampleName idx ++ ": invalid port for " ++ group ++ ": \x27" ++ port ++ "\x27")
  | none => none

/-- The first error of a sample that matches. -/
def checkGroups (idx : ℕ) (caps : Match) : Option String :=
  (checkIp idx caps "src_ip").or <| (checkIp idx caps "dst_ip").or <|
    (checkPort idx caps "src_port").or (checkPort idx caps "dst_port")

/-- One round of the loop over the samples, on the number of matches and the errors. -/
def validateSample (compiledRe : CompiledRegex) :
    ℕ × List String → String × ℕ → ℕ × List String
  | (matched, errors), (sample, idx) =>
    let line := String.ofList (trim sample.toList)
    if line = "" then (matched, errors)
    else
      match compiledRe.captures line with
      | none =>
        (matched, errors ++
          [sampleName idx ++ " did not match regex pattern: \x27" ++ line ++ "\x27"])
      | some caps =>
        match checkGroups idx caps with
        | some error => (matched, errors ++ [error])
        | none => (matched + 1, errors)

section Synthesis

variable (regex : RegexCrate)

/-- Verifies 100% of samples match and extract valid IPs and ports -/
def validateParser (parser : ParserDefinition) (samples : List String) :
    Except String ValidationReport :=
  match regex.new parser.regexPattern with
  | none => .error ("Failed to compile regex: " ++ parser.regexPattern)
  | some compiledRe =>
    let (matched, errors) := samples.zipIdx.foldl (validateSample compiledRe) (0, [])
    let total := samples.length
    let pct := if 0 < total then nearest (divide (nearest matched) (nearest total) * 100) else 0
    .ok ⟨matched == total && errors.isEmpty, total, matched, pct, errors⟩

/-! ### Pattern synthesis -/

def reIpPort : String := r"^((?:\d{1,3}\.){3}\d{1,3})[:/](\d{1,5})$"
def reIp : String := r"^(?:\d{1,3}\.){3}\d{1,3}$"
def rePort : String := r"^\d{1,5}$"
def reProto : String := r"^(?i)(TCP|UDP|ICMP|GRE|ESP|AH|IGMP|SCTP)$"
def reAction : String := r"^(?i)(accept|deny|drop|permit|block|reject|pass|allow)$"
def reTimestamp : String := r"^\d{4}[-/]\d{2}[-/]\d{2}(?:[T\s]\d{2}:\d{2}:\d{2})?$"

def srcIpGroup : String := r"(?P<src_ip>(?:\d{1,3}\.){3}\d{1,3})"
def dstIpGroup : String := r"(?P<dst_ip>(?:\d{1,3}\.){3}\d{1,3})"
def srcPortGroup : String := r"(?P<src_port>\d{1,5})"
def dstPortGroup : String := r"(?P<dst_port>\d{1,5})"

/-- What the loop over the columns has collected. -/
structure Columns where
  parts : List String
  ipCount : ℕ
  portCount : ℕ

def Columns.push (s : Columns) (part : String) : Columns := { s with parts := s.parts ++ [part] }

/-- One round of the loop, on the tokens of one column. -/
def Columns.step (s : Columns) (col : List String) : Columns :=
  let first := col.head?.getD ""
  if (col.zip col.tail).all fun (a, b) => a == b then s.push (regex.escape first)
  else if col.all (regex.isMatch reIpPort) then
    let delimiter := if contains first.toList ":" then ":" else "/"
    let part := if s.ipCount = 0 then srcIpGroup ++ delimiter ++ srcPortGroup
      else dstIpGroup ++ delimiter ++ dstPortGroup
    ⟨s.parts ++ [part], s.ipCount + 1, s.portCount + 1⟩
  else if col.all (regex.isMatch reIp) then
    ⟨s.parts ++ [if s.ipCount = 0 then srcIpGroup else dstIpGroup], s.ipCount + 1, s.portCount⟩
  else if col.all (regex.isMatch rePort) then
    ⟨s.parts ++ [if s.portCount = 0 then srcPortGroup else dstPortGroup], s.ipCount,
      s.portCount + 1⟩
  else if col.all (regex.isMatch reProto) then s.push r"(?P<protocol>[a-zA-Z0-9]+)"
  else if col.all (regex.isMatch reAction) then s.push r"(?P<action>[a-zA-Z]+)"
  else if col.all (regex.isMatch reTimestamp) then s.push r"(?P<timestamp>\S+)"
  else s.push r"(?:\S+)"

/-- Synthesize regex via positional token alignment across sample lines -/
def synthesizePositionalRegex (samples : List String) : Except String String :=
  let splitLines := samples.map fun s => (splitWhitespace s.toList).map String.ofList
  let minLen := ((splitLines.map List.length).min?).getD 0
  if minLen = 0 then .error "Empty sample lines provided"
  else
    let columns := (List.range minLen).map fun i => splitLines.map fun l => l[i]?.getD ""
    let parts := (columns.foldl (Columns.step regex) ⟨[], 0, 0⟩).parts
    .ok ("^" ++ String.intercalate r"\s+" parts ++ "(?:.*)$")

def reFlowSlash : String :=
  r"((?:\d{1,3}\.){3}\d{1,3})/(\d{1,5})->((?:\d{1,3}\.){3}\d{1,3})/(\d{1,5})"

def reFlowColon : String :=
  r"((?:\d{1,3}\.){3}\d{1,3}):(\d{1,5})\s*->\s*((?:\d{1,3}\.){3}\d{1,3}):(\d{1,5})"

def rtFlowPattern : String :=
  r"^RT_FLOW:\s+(?P<event_type>\S+)\s+session\s+(?P<action_verb>\w+)(?:.*?)\s+(?P<src_ip>(?:\d{1,3}\.){3}\d{1,3})/(?P<src_port>\d{1,5})->(?P<dst_ip>(?:\d{1,3}\.){3}\d{1,3})/(?P<dst_port>\d{1,5})\s+\S+\s+\S+\s+(?P<protocol>\d+)\s+(?P<policy>\S+)\s+(?P<src_zone>\S+)\s+(?P<dst_zone>\S+)(?:.*)$"

def slashPattern : String :=
  r"^.*?(?P<src_ip>(?:\d{1,3}\.){3}\d{1,3})/(?P<src_port>\d{1,5})->(?P<dst_ip>(?:\d{1,3}\.){3}\d{1,3})/(?P<dst_port>\d{1,5})(?:.*?proto[=:\s]+(?P<protocol>\S+))?(?:.*?action[=:\s]+(?P<action>\w+))?.*$"

def colonPattern : String :=
  r"^(?:(?P<timestamp>\d{4}-\d{2}-\d{2}\s+\d{2}:\d{2}:\d{2})\s+)?(?P<device>\S+)\s+(?P<action>[a-zA-Z]+)\s+(?P<src_ip>(?:\d{1,3}\.){3}\d{1,3}):(?P<src_port>\d{1,5})\s*->\s*(?P<dst_ip>(?:\d{1,3}\.){3}\d{1,3}):(?P<dst_port>\d{1,5})(?:.*?proto\s+(?P<protocol>[a-zA-Z0-9]+))?(?:.*)$"

/-- Synthesize regex for directional arrow flow formats -/
def synthesizeFlowRegex (first : String) (samples : List String) : Except String String :=
  if regex.isMatch reFlowSlash first then
    if startsWith first.toList "RT_FLOW" then .ok rtFlowPattern else .ok slashPattern
  else if regex.isMatch reFlowColon first then .ok colonPattern
  else synthesizePositionalRegex regex samples

/-- Search expression and capture pattern of the keys. -/
def keyPatterns : List (String × String) :=
  [(r"\b(?:action|act)=", r"(?:action|act)=(?P<action>[a-zA-Z]+)"),
    (r"\b(?:src|srcip|saddr)=", r"(?:src|srcip|saddr)=(?P<src_ip>(?:\d{1,3}\.){3}\d{1,3})"),
    (r"\b(?:sport|srcport)=", r"(?:sport|srcport)=(?P<src_port>\d{1,5})"),
    (r"\b(?:dst|dstip|daddr)=", r"(?:dst|dstip|daddr)=(?P<dst_ip>(?:\d{1,3}\.){3}\d{1,3})"),
    (r"\b(?:dport|dstport)=", r"(?:dport|dstport)=(?P<dst_port>\d{1,5})"),
    (r"\b(?:proto|protocol)=", r"(?:proto|protocol)=(?P<protocol>[a-zA-Z0-9]+)")]

/-- Synthesize regex for key-value formats dynamically ordered by field appearance -/
def synthesizeKvRegex (first : String) : Except String String :=
  let orderedPatterns := (keyPatterns.filterMap fun (re, capturePat) =>
    (regex.find re first).map fun start => (start, capturePat)).insertionSort fun a b => a.1 ≤ b.1
  if orderedPatterns = [] then .error "No recognizable key-value pairs found in sample"
  else .ok ("^" ++ String.join (orderedPatterns.map fun (_, pat) => r".*?\b" ++ pat) ++ ".*$")

/-- Deterministic pattern synthesizer; `first` is the first of the samples. -/
def synthesizeRegex (first : String) (samples : List String) : Except String String :=
  let has := contains first.toList
  if has "->" || has "session created" || has "session denied" then
    synthesizeFlowRegex regex first samples
  else if has "src=" || has "srcip=" || has "saddr=" then synthesizeKvRegex regex first
  else synthesizePositionalRegex regex samples

end Synthesis

/-- Infer mapping from raw action verbs to standard OCSF disposition strings -/
def inferActionMappings : AList fun _ : String => String :=
  [("created", dispositionAllowed), ("closed", dispositionAllowed),
    ("accept", dispositionAllowed), ("permit", dispositionAllowed), ("allow", dispositionAllowed),
    ("passed", dispositionAllowed), ("pass", dispositionAllowed), ("deny", dispositionBlocked),
    ("denied", dispositionBlocked), ("block", dispositionBlocked),
    ("blocked", dispositionBlocked), ("reject", dispositionBlocked), ("drop", dispositionDropped),
    ("dropped", dispositionDropped)].foldl (fun map (verb, disp) => map.insert verb disp) ∅

def parserDef (vendor deviceModel pattern : String) (samples : List String) (nowMs : Int64) :
    ParserDefinition where
  vendor := vendor
  deviceModel := deviceModel
  regexPattern := pattern
  actionMappings := inferActionMappings
  sampleLogs := samples
  confidenceScore := .finite 1
  createdAt := nowMs

/-- Analyze the sample lines, synthesize an expression, and validate it; `debug` is the format
`{:?}` of a list of errors. -/
def generateParser (regex : RegexCrate) (debug : List String → String) (nowMs : Int64)
    (vendor deviceModel : String) (samples : List String) :
    Except String (ParserDefinition × ValidationReport) :=
  match samples with
  | first :: _ :: _ :: _ => do
    let pattern ← synthesizeRegex regex first samples
    let parser := parserDef vendor deviceModel pattern samples nowMs
    let report ← validateParser regex parser samples
    if report.passed then .ok (parser, report)
    else .error ("Sandbox validation failed (match rate: " ++ toFixed 1 report.matchPercentage ++
      "%): " ++ debug report.errors)
  | _ => .error ("Onboarder requires at least 3 sample log lines, found " ++
      toString samples.length)

/-! ### What validation accepts -/

/-- The match has two addresses, and its ports, if it has them, are numbers. -/
structure GroupsValid (caps : Match) : Prop where
  srcIp : ∃ ip, caps.name "src_ip" = some ip ∧ isIpv4 ip.toList = true
  dstIp : ∃ ip, caps.name "dst_ip" = some ip ∧ isIpv4 ip.toList = true
  srcPort : ∀ port, caps.name "src_port" = some port → (parseUInt16 port.toList).isSome = true
  dstPort : ∀ port, caps.name "dst_port" = some port → (parseUInt16 port.toList).isSome = true

/-- The trimmed sample is not blank and matches with valid groups. -/
def SamplePasses (compiledRe : CompiledRegex) (sample : String) : Prop :=
  String.ofList (trim sample.toList) ≠ "" ∧
    ∃ caps, compiledRe.captures (String.ofList (trim sample.toList)) = some caps ∧
      GroupsValid caps

lemma checkIp_eq_none_iff {idx : ℕ} {caps : Match} {group : String} :
    checkIp idx caps group = none ↔ ∃ ip, caps.name group = some ip ∧ isIpv4 ip.toList = true := by
  unfold checkIp
  cases caps.name group with
  | none => simp
  | some ip => simp

lemma checkPort_eq_none_iff {idx : ℕ} {caps : Match} {group : String} :
    checkPort idx caps group = none ↔
      ∀ port, caps.name group = some port → (parseUInt16 port.toList).isSome = true := by
  unfold checkPort
  cases caps.name group with
  | none => simp
  | some port => simp [Option.isSome_iff_ne_none]

lemma checkGroups_eq_none_iff {idx : ℕ} {caps : Match} :
    checkGroups idx caps = none ↔ GroupsValid caps := by
  unfold checkGroups
  rw [Option.or_eq_none_iff, Option.or_eq_none_iff, Option.or_eq_none_iff, checkIp_eq_none_iff,
    checkIp_eq_none_iff, checkPort_eq_none_iff, checkPort_eq_none_iff]
  exact ⟨fun ⟨h₁, h₂, h₃, h₄⟩ => ⟨h₁, h₂, h₃, h₄⟩, fun ⟨h₁, h₂, h₃, h₄⟩ => ⟨h₁, h₂, h₃, h₄⟩⟩

section Validation

variable (compiledRe : CompiledRegex)

lemma validateSample_cases (acc : ℕ × List String) (sample : String) (idx : ℕ) :
    SamplePasses compiledRe sample ∧
        validateSample compiledRe acc (sample, idx) = (acc.1 + 1, acc.2) ∨
      ¬SamplePasses compiledRe sample ∧
        (validateSample compiledRe acc (sample, idx)).1 = acc.1 := by
  unfold validateSample SamplePasses
  dsimp only
  split_ifs with hblank
  · exact Or.inr ⟨fun h => h.1 hblank, rfl⟩
  · cases hcaps : compiledRe.captures (String.ofList (trim sample.toList)) with
    | none =>
      refine Or.inr ⟨?_, rfl⟩
      rintro ⟨-, caps, hsome, -⟩
      cases hsome
    | some caps =>
      dsimp only
      cases hcheck : checkGroups idx caps with
      | none => exact Or.inl ⟨⟨hblank, caps, rfl, checkGroups_eq_none_iff.mp hcheck⟩, rfl⟩
      | some error =>
        refine Or.inr ⟨?_, rfl⟩
        rintro ⟨-, caps', hsome, hvalid⟩
        cases hsome
        rw [checkGroups_eq_none_iff.mpr hvalid] at hcheck
        cases hcheck

lemma foldl_validateSample (samples : List String) (idx : ℕ) (acc : ℕ × List String) :
    let result := (samples.zipIdx idx).foldl (validateSample compiledRe) acc
    result.1 ≤ acc.1 + samples.length ∧
      (result.1 = acc.1 + samples.length ↔ ∀ sample ∈ samples, SamplePasses compiledRe sample) ∧
      ((∀ sample ∈ samples, SamplePasses compiledRe sample) → result.2 = acc.2) := by
  induction samples generalizing idx acc with
  | nil => simp
  | cons sample samples ih =>
    have hrest := ih (idx + 1) (validateSample compiledRe acc (sample, idx))
    simp only [List.zipIdx_cons, List.foldl_cons, List.length_cons, List.forall_mem_cons]
    dsimp only at hrest
    obtain ⟨hle, hcount, herrors⟩ := hrest
    rcases validateSample_cases compiledRe acc sample idx with
      ⟨hpass, hstep⟩ | ⟨hfail, hstep⟩
    · rw [hstep] at hle hcount herrors ⊢
      refine ⟨by omega, ⟨fun h => ⟨hpass, hcount.mp (by omega)⟩, ?_⟩, fun h => herrors h.2⟩
      rintro ⟨-, hall⟩
      have := hcount.mpr hall
      omega
    · rw [hstep] at hle hcount
      refine ⟨by omega, ⟨fun h => ?_, fun h => absurd h.1 hfail⟩, fun h => absurd h.1 hfail⟩
      omega

end Validation

lemma exists_report (regex : RegexCrate) (parser : ParserDefinition) {re : CompiledRegex}
    (h : regex.new parser.regexPattern = some re) (samples : List String) :
    ∃ report, validateParser regex parser samples = .ok report := by
  unfold validateParser
  rw [h]
  exact ⟨_, rfl⟩

/-- A report is passed exactly if every sample passes. -/
theorem validateParser_passed_iff {regex : RegexCrate} {parser : ParserDefinition}
    {samples : List String} {report : ValidationReport}
    (h : validateParser regex parser samples = .ok report) :
    report.passed = true ↔ ∃ re, regex.new parser.regexPattern = some re ∧
      ∀ sample ∈ samples, SamplePasses re sample := by
  unfold validateParser at h
  cases hre : regex.new parser.regexPattern with
  | none =>
    rw [hre] at h
    cases h
  | some re =>
    rw [hre] at h
    cases h
    have hfold := foldl_validateSample re samples 0 (0, [])
    dsimp only at hfold ⊢
    obtain ⟨-, hcount, herrors⟩ := hfold
    rw [Nat.zero_add] at hcount
    rw [Bool.and_eq_true, beq_iff_eq, List.isEmpty_iff, hcount]
    constructor
    · rintro ⟨hall, -⟩
      exact ⟨re, rfl, hall⟩
    · rintro ⟨re', hsame, hall⟩
      cases hsame
      exact ⟨hall, herrors hall⟩

lemma bind_eq_ok {α β : Type} {result : Except String α} {f : α → Except String β} {b : β}
    (h : result >>= f = .ok b) : ∃ a, result = .ok a ∧ f a = .ok b := by
  cases result with
  | error err => cases h
  | ok a => exact ⟨a, rfl, h⟩

/-- What the onboarder hands out was validated on three samples or more. -/
theorem generateParser_eq_ok {regex : RegexCrate} {debug : List String → String} {nowMs : Int64}
    {vendor deviceModel : String} {samples : List String} {parser : ParserDefinition}
    {report : ValidationReport}
    (h : generateParser regex debug nowMs vendor deviceModel samples = .ok (parser, report)) :
    3 ≤ samples.length ∧ report.passed = true ∧
      validateParser regex parser samples = .ok report ∧
      ∃ pattern, parser = parserDef vendor deviceModel pattern samples nowMs := by
  unfold generateParser at h
  split at h
  · rename_i first second third rest
    obtain ⟨pattern, -, h⟩ := bind_eq_ok h
    obtain ⟨found, hreport, h⟩ := bind_eq_ok h
    split_ifs at h with hpassed
    cases h
    exact ⟨by simp, hpassed, hreport, pattern, rfl⟩
  · cases h

lemma generateParser_eq_error (regex : RegexCrate) (debug : List String → String) (nowMs : Int64)
    (vendor deviceModel : String) {samples : List String} (h : samples.length < 3) :
    ∃ err, generateParser regex debug nowMs vendor deviceModel samples = .error err := by
  cases hresult : generateParser regex debug nowMs vendor deviceModel samples with
  | error err => exact ⟨err, rfl⟩
  | ok result =>
    have hlength := (generateParser_eq_ok hresult).1
    omega

end Onboarder

end Ulpf.Ai
