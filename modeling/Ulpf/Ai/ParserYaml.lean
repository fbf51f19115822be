import Ulpf.Ai.ParserDefinition
import Ulpf.Core.SyslogListeners
import Ulpf.Library.Strip

/-!
# Parser definitions in YAML

`to_yaml` writes a parser definition line by line, `from_yaml` reads one by scanning lines. What
the scanner accepts has keys without colons and values without quotes at their ends.
-/

namespace Ulpf.Ai
open Ulpf.Core
open Ulpf.Library
open Ulpf.Library.Binary64

/-! ### Floating-point texts -/

/-- `format!("{:.2}", x)` -/
def formatF64 : Double → Text
  | .nan => "NaN".toList
  | .infinite negative => if negative then "-inf".toList else "inf".toList
  | .finite value => (toFixed 2 value).toList

/-- The number that a decimal text without sign denotes. -/
def parseDecimal (s : Text) : Option ℚ :=
  let isExponent := fun c => c == 'e' || c == 'E'
  let mantissa := s.takeWhile (!isExponent ·)
  let whole := mantissa.takeWhile (· != '.')
  let fraction := (mantissa.dropWhile (· != '.')).drop 1
  let digits := whole ++ fraction
  if digits = [] ∨ ¬digits.all Char.isDigit then none
  else
    let shift : Option ℤ := match s.dropWhile (!isExponent ·) with
      | [] => some 0
      | _ :: exponent =>
        let (negative, rest) := splitSign exponent
        if rest = [] ∨ ¬rest.all Char.isDigit then none
        else
          let n := Nat.ofDigitChars 10 rest 0
          some (if negative then -n else n)
    shift.map fun shift : ℤ => (Nat.ofDigitChars 10 digits 0 : ℚ) * 10 ^ (shift - fraction.length)

/-- `str::parse::<f64>` -/
def parseF64 (s : Text) : Option Double :=
  let (negative, rest) := splitSign s
  match String.ofList (rest.map Char.toLower) with
  | "inf" | "infinity" => some (.infinite negative)
  | "nan" => some .nan
  | _ => (parseDecimal rest).map fun q => .finite (nearest (if negative then -q else q))

namespace ParserDefinition

/-! ### The emitter -/

def vendorLine (vendor : String) : Text := "vendor: \"".toList ++ vendor.toList ++ ['"']

def deviceModelLine (deviceModel : String) : Text :=
  "device_model: \"".toList ++ deviceModel.toList ++ ['"']

def confidenceLine (confidenceScore : Double) : Text :=
  "confidence_score: ".toList ++ formatF64 confidenceScore

def createdAtLine (createdAt : Int64) : Text := "created_at: ".toList ++ formatI64 createdAt

def regexLine (regexPattern : String) : Text :=
  "regex_pattern: \"".toList ++
    replaceChar '"' "\\\"" (replaceChar '\\' "\\\\" regexPattern.toList) ++ ['"']

def mappingLine (k v : String) : Text :=
  "  ".toList ++ k.toList ++ ": \"".toList ++ v.toList ++ ['"']

def sampleLine (sample : String) : Text :=
  "  - \"".toList ++ replaceChar '"' "\\\"" sample.toList ++ ['"']

def yamlLines (d : ParserDefinition) : List Text :=
  [vendorLine d.vendor, deviceModelLine d.deviceModel, confidenceLine d.confidenceScore,
    createdAtLine d.createdAt, regexLine d.regexPattern, "action_mappings:".toList] ++
  d.actionMappings.entries.map (fun e => mappingLine e.1 e.2) ++
  ["sample_logs:".toList] ++ d.sampleLogs.map sampleLine

/-- Serialize parser definition to human-readable YAML -/
def toYaml (d : ParserDefinition) : Text := d.yamlLines.flatMap (· ++ ['\n'])

end ParserDefinition

/-! ### The scanner -/

/-- `s.trim_matches('"')` -/
def unquote (s : Text) : Text := trimMatches (· == '"') s

/-- The local variables of `from_yaml`, and the number of times it has read the clock. -/
structure YamlScanner where
  parsed : ParserDefinition
  inActionMappings : Bool
  inSampleLogs : Bool
  reads : ℕ

section Scanner

variable (clock : ℕ → Int64)

namespace YamlScanner

def start : YamlScanner := ⟨⟨"Custom", "Device", "", ∅, [], .finite 1, clock 0⟩, false, false, 1⟩

def setProperty (s : YamlScanner) (key : String) (val : Text) : YamlScanner :=
  match key with
  | "vendor" => { s with parsed.vendor := String.ofList val }
  | "device_model" => { s with parsed.deviceModel := String.ofList val }
  | "confidence_score" => { s with parsed.confidenceScore := (parseF64 val).getD (.finite 1) }
  | "created_at" =>
    match parseI64 val with
    | some createdAt => { s with parsed.createdAt := createdAt }
    | none => { s with parsed.createdAt := clock s.reads, reads := s.reads + 1 }
  | "regex_pattern" => { s with parsed.regexPattern := String.ofList (replace "\\\\" "\\" val) }
  | _ => s

def readProperty (s : YamlScanner) (trimmed : Text) : YamlScanner :=
  match splitOnce ':' trimmed with
  | some (k, v) => s.setProperty clock (String.ofList (trim k)) (unquote (trim v))
  | none => s

def readSample (s : YamlScanner) (line trimmed : Text) : YamlScanner :=
  if s.inSampleLogs then
    match stripPrefix trimmed "- " with
    | some rest =>
      { s with parsed.sampleLogs := s.parsed.sampleLogs ++ [String.ofList (unquote rest)] }
    | none =>
      let s := if startsWith line "  " then s else { s with inSampleLogs := false }
      s.readProperty clock trimmed
  else s.readProperty clock trimmed

def readMapping (s : YamlScanner) (line trimmed : Text) : YamlScanner :=
  if s.inActionMappings then
    match splitOnce ':' trimmed with
    | some (k, v) =>
      let key := String.ofList (trim k)
      let val := String.ofList (unquote (trim v))
      { s with parsed.actionMappings := s.parsed.actionMappings.insert key val }
    | none =>
      let s := if startsWith line "  " then s else { s with inActionMappings := false }
      s.readSample clock line trimmed
  else s.readSample clock line trimmed

def readLine (s : YamlScanner) (line : Text) : YamlScanner :=
  let trimmed := trim line
  if trimmed = [] ∨ startsWith trimmed "#" then s
  else if trimmed = "action_mappings:".toList then
    { s with inActionMappings := true, inSampleLogs := false }
  else if trimmed = "sample_logs:".toList then
    { s with inSampleLogs := true, inActionMappings := false }
  else s.readMapping clock line trimmed

end YamlScanner

/-- Load parser definition from YAML (handles both JSON subset and simple YAML) -/
def ParserDefinition.fromYaml (fromJson : Text → Option ParserDefinition) (yaml : Text) :
    Except String ParserDefinition :=
  match fromJson yaml with
  | some d => .ok d
  | none =>
    let d := ((lines yaml).foldl (YamlScanner.readLine clock) (.start clock)).parsed
    if d.regexPattern = "" then .error "Invalid YAML: missing regex_pattern" else .ok d

end Scanner

/-! ### What the scanner accepts -/

/-- A key of a line `key: value` as it is after reading. -/
structure PlainKey (k : Text) : Prop where
  colon : ':' ∉ k
  bare : Bare isWhitespace k
  comment : k.head? ≠ some '#'

abbrev Unquoted (s : Text) : Prop := Bare (· == '"') s

/-- The definitions that can be the outcome of scanning. -/
structure Scanned (d : ParserDefinition) : Prop where
  vendor : Unquoted d.vendor.toList
  deviceModel : Unquoted d.deviceModel.toList
  mappings : ∀ k v, d.actionMappings.lookup k = some v → PlainKey k.toList ∧ Unquoted v.toList
  sampleLogs : ∀ sample ∈ d.sampleLogs, Unquoted sample.toList

lemma splitOnce_eq_some {sep : Char} {s k v : Text} (h : splitOnce sep s = some (k, v)) :
    s = k ++ sep :: v ∧ sep ∉ k := by
  induction s generalizing k with
  | nil => cases h
  | cons c s ih =>
    rw [splitOnce] at h
    split_ifs at h with hc
    · cases h
      exact ⟨by rw [hc, List.nil_append], List.not_mem_nil⟩
    · obtain ⟨⟨before, after⟩, hsplit, heq⟩ := Option.map_eq_some_iff.mp h
      cases heq
      obtain ⟨rfl, hnot⟩ := ih hsplit
      refine ⟨rfl, ?_⟩
      rw [List.mem_cons, not_or]
      exact ⟨Ne.symm hc, hnot⟩

lemma splitOnce_append {sep : Char} {k : Text} (h : sep ∉ k) (v : Text) :
    splitOnce sep (k ++ sep :: v) = some (k, v) := by
  induction k with
  | nil => rw [List.nil_append, splitOnce, if_pos rfl]
  | cons c k ih =>
    rw [List.mem_cons, not_or] at h
    rw [List.cons_append, splitOnce, if_neg (Ne.symm h.1), ih h.2]
    rfl

lemma startsWith_comment_iff {s : Text} : startsWith s "#" = true ↔ s.head? = some '#' := by
  cases s with
  | nil => exact iff_of_false nofun nofun
  | cons c s =>
    have hstart : startsWith (c :: s) "#" = ('#' == c && true) := rfl
    rw [hstart, Bool.and_true, beq_iff_eq, List.head?_cons, Option.some.injEq, eq_comm]

lemma unquoted_unquote (s : Text) : Unquoted (unquote s) := bare_strip s

lemma plainKey_trim {trimmed k v : Text} (hbare : Bare isWhitespace trimmed)
    (hcomment : ¬startsWith trimmed "#") (h : splitOnce ':' trimmed = some (k, v)) :
    PlainKey (trim k) := by
  obtain ⟨rfl, hcolon⟩ := splitOnce_eq_some h
  refine ⟨fun hmem => hcolon (strip_subset k hmem), bare_strip k, ?_⟩
  cases k with
  | nil => exact nofun
  | cons c k =>
    have htrim : trim (c :: k) = c :: k.rdropWhile isWhitespace :=
      strip_cons_of_neg (hbare.head c rfl) k
    rw [htrim, List.head?_cons, ← List.head?_cons (l := k ++ ':' :: v)]
    exact fun hhead => hcomment (startsWith_comment_iff.mpr hhead)

namespace YamlScanner

variable {clock : ℕ → Int64} {s : YamlScanner}

lemma scanned_start : Scanned (start clock).parsed where
  vendor := by
    have hcustom : Unquoted "Custom".toList := ⟨by simp, by simp⟩
    exact hcustom
  deviceModel := by
    have hdevice : Unquoted "Device".toList := ⟨by simp, by simp⟩
    exact hdevice
  mappings := nofun
  sampleLogs := nofun

lemma scanned_setProperty (h : Scanned s.parsed) (key : String) (val : Text) :
    Scanned (s.setProperty clock key (unquote val)).parsed := by
  have hval : Unquoted (String.ofList (unquote val)).toList := by
    rw [String.toList_ofList]
    exact unquoted_unquote val
  unfold setProperty
  split
  · exact { h with vendor := hval }
  · exact { h with deviceModel := hval }
  · exact { h with }
  · split
    · exact { h with }
    · exact { h with }
  · exact { h with }
  · exact h

lemma scanned_readProperty (h : Scanned s.parsed) (trimmed : Text) :
    Scanned (s.readProperty clock trimmed).parsed := by
  unfold readProperty
  split
  · exact scanned_setProperty h _ _
  · exact h

lemma scanned_readSample (h : Scanned s.parsed) (line trimmed : Text) :
    Scanned (s.readSample clock line trimmed).parsed := by
  unfold readSample
  split
  · split
    · rename_i rest hrest
      refine { h with sampleLogs := ?_ }
      intro sample hsample
      rcases List.mem_append.mp hsample with hold | hnew
      · exact h.sampleLogs sample hold
      · rw [List.mem_singleton.mp hnew, String.toList_ofList]
        exact unquoted_unquote rest
    · refine scanned_readProperty ?_ trimmed
      split
      · exact h
      · exact h
  · exact scanned_readProperty h trimmed

lemma scanned_readMapping (h : Scanned s.parsed) {line trimmed : Text}
    (hbare : Bare isWhitespace trimmed) (hcomment : ¬startsWith trimmed "#") :
    Scanned (s.readMapping clock line trimmed).parsed := by
  unfold readMapping
  split
  · split
    · rename_i k v hsplit
      refine { h with mappings := ?_ }
      intro k' v' hlookup
      dsimp only at hlookup
      by_cases hk : k' = String.ofList (trim k)
      · rw [hk, AList.lookup_insert, Option.some.injEq] at hlookup
        rw [hk, ← hlookup, String.toList_ofList, String.toList_ofList]
        exact ⟨plainKey_trim hbare hcomment hsplit, unquoted_unquote _⟩
      · rw [AList.lookup_insert_ne hk] at hlookup
        exact h.mappings k' v' hlookup
    · refine scanned_readSample ?_ line trimmed
      split
      · exact h
      · exact h
  · exact scanned_readSample h line trimmed

/-- Whatever the line, the definition read so far stays one that can be the outcome. -/
lemma scanned_readLine (h : Scanned s.parsed) (line : Text) :
    Scanned (s.readLine clock line).parsed := by
  unfold readLine
  dsimp only
  split_ifs with hskip
  · exact h
  · exact h
  · exact h
  · rw [not_or] at hskip
    exact scanned_readMapping h (bare_strip line) hskip.2

lemma scanned_foldl (h : Scanned s.parsed) (lines : List Text) :
    Scanned (lines.foldl (readLine clock) s).parsed := by
  induction lines generalizing s with
  | nil => exact h
  | cons line lines ih => exact ih (scanned_readLine h line)

end YamlScanner

/-- Every definition that `from_yaml` accepts and that is not JSON has keys without colons and
values without quotes at their ends, whatever the text. -/
theorem scanned_fromYaml {clock : ℕ → Int64} {fromJson : Text → Option ParserDefinition}
    {yaml : Text} {d : ParserDefinition} (hjson : fromJson yaml = none)
    (h : ParserDefinition.fromYaml clock fromJson yaml = .ok d) :
    Scanned d ∧ d.regexPattern ≠ "" := by
  unfold ParserDefinition.fromYaml at h
  rw [hjson] at h
  dsimp only at h
  split_ifs at h with hpattern
  cases h
  exact ⟨YamlScanner.scanned_foldl YamlScanner.scanned_start _, hpattern⟩

end Ulpf.Ai
