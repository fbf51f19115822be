import Ulpf.Ai.Onboarder
import Ulpf.Library.RegexPadding
import Ulpf.Library.RegexSyntax

/-!
# The synthesized patterns as expressions

Each pattern that the onboarder writes is the spelling of an expression: a core behind the start
of the line, or anywhere in it, and the rest of the line. A column of tokens gives a part of the
core according to its kind.
-/

namespace Ulpf.Ai
open Ulpf.Core Ulpf.Library Ulpf.Library.Regex

/-- The tables of the `regex` crate for the classes of Perl are those of Unicode. -/
structure PerlClasses (tables : CharTables) : Prop where
  space : ∀ x, tables.space x = isWhitespace x
  digitWord : ∀ x, tables.digit x = true → tables.word x = true
  blankWord : ∀ x, isWhitespace x = true → tables.word x = false
  asciiDigit : ∀ x : Char, x.toNat < 128 → tables.digit x = x.isDigit
  asciiWord : ∀ x : Char, x.toNat < 128 → tables.word x = (x.isAlphanum || x == '_')

/-- What the crate documents of a compiled expression: it answers with the leftmost match that
a backtracking search finds first. -/
def compile (tables : CharTables) (r : CharRegex) : CompiledRegex where
  captureNames := r.names
  captures haystack :=
    (search (Atom.accepts tables) tables.word r [] haystack.toList).map fun found =>
      ⟨utf8Len found.1, fun name => (found.2.groups.lookup name).map String.ofList⟩

namespace Onboarder

/-! ### Parts of the patterns -/

/-- `(?:\d{1,3}\.){3}\d{1,3}` -/
def ip : CharRegex :=
  seq (exactly (group (seq (upToMax (one .digit) 1 3) (one (.escaped '.')))) 3)
    (upToMax (one .digit) 1 3)

/-- `\d{1,5}` -/
def port : CharRegex := upToMax (one .digit) 1 5

/-- `\s+` -/
def spaces : CharRegex := plus (one .space)

/-- `\S+` -/
def solid : CharRegex := plus (one .nonSpace)

/-- `.*?` -/
def anything : CharRegex := lazyStar (one .dot)

/-- `[a-zA-Z]+` -/
def letters : CharRegex := plus (one (.set false [.range 'a' 'z', .range 'A' 'Z']))

/-- `[a-zA-Z0-9]+` -/
def alphanumeric : CharRegex :=
  plus (one (.set false [.range 'a' 'z', .range 'A' 'Z', .range '0' '9']))

/-- `(?P<name>r)` -/
def named (name : String) (r : CharRegex) : CharRegex := capture name true r

/-- `\d{n}` -/
def digits (n : ℕ) : CharRegex := exactly (one .digit) n

def srcIp : CharRegex := named "src_ip" ip
def dstIp : CharRegex := named "dst_ip" ip
def srcPort : CharRegex := named "src_port" port
def dstPort : CharRegex := named "dst_port" port

def rtFlowCore : CharRegex :=
  cat [plain "RT_FLOW:", spaces, named "event_type" solid, spaces, plain "session", spaces,
    named "action_verb" (plus (one .word)), group anything, spaces, srcIp, plain "/", srcPort,
    plain "->", dstIp, plain "/", dstPort, spaces, solid, spaces, solid, spaces,
    named "protocol" (plus (one .digit)), spaces, named "policy" solid, spaces,
    named "src_zone" solid, spaces, named "dst_zone" solid]

/-- `[=:\s]+` -/
def separators : CharRegex := plus (one (.set false [.char '=', .char ':', .space]))

def slashCore : CharRegex :=
  cat [srcIp, plain "/", srcPort, plain "->", dstIp, plain "/", dstPort,
    opt (group (cat [anything, plain "proto", separators, named "protocol" solid])),
    opt (group (cat [anything, plain "action", separators, named "action" (plus (one .word))]))]

def timestamp : CharRegex :=
  cat [digits 4, plain "-", digits 2, plain "-", digits 2, spaces, digits 2, plain ":", digits 2,
    plain ":", digits 2]

def colonCore : CharRegex :=
  cat [opt (group (cat [named "timestamp" timestamp, spaces])), named "device" solid, spaces,
    named "action" letters, spaces, srcIp, plain ":", srcPort, star (one .space), plain "->",
    star (one .space), dstIp, plain ":", dstPort,
    opt (group (cat [anything, plain "proto", spaces, named "protocol" alphanumeric]))]

/-- `(?:key|..)=(?P<name>r)` -/
def keyed (keys : List String) (name : String) (r : CharRegex) : CharRegex :=
  cat [group (anyOf keys), plain "=", named name r]

/-- The capture patterns of the keys, in the order of `keyPatterns`. -/
def keyRegexes : List CharRegex :=
  [keyed ["action", "act"] "action" letters, keyed ["src", "srcip", "saddr"] "src_ip" ip,
    keyed ["sport", "srcport"] "src_port" port, keyed ["dst", "dstip", "daddr"] "dst_ip" ip,
    keyed ["dport", "dstport"] "dst_port" port,
    keyed ["proto", "protocol"] "protocol" alphanumeric]

/-- A core with its place in the line. -/
structure Pattern where
  core : CharRegex
  grouped : Bool
  anywhere : Bool

def Pattern.regex (p : Pattern) : CharRegex :=
  if p.anywhere then free p.core p.grouped .dot else anchored p.core p.grouped .dot

/-! ### Their spelling -/

section Spelling

variable (escape : String → String)

lemma text_eq {r : CharRegex} {s : String} (hfree : r.literalFree = true) (h : r.text id = s) :
    r.text escape = s :=
  (text_of_literalFree hfree escape id).trans h

lemma text_rtFlow : (Pattern.regex ⟨rtFlowCore, true, false⟩).text escape = rtFlowPattern :=
  text_eq escape (by decide) (by decide +kernel)

lemma text_slash : (Pattern.regex ⟨slashCore, false, true⟩).text escape = slashPattern :=
  text_eq escape (by decide) (by decide +kernel)

lemma text_colon : (Pattern.regex ⟨colonCore, true, false⟩).text escape = colonPattern :=
  text_eq escape (by decide) (by decide +kernel)

lemma text_keyRegexes : keyRegexes.map (Regex.text escape) = keyPatterns.map Prod.snd := by
  have hspelt : keyRegexes.map (Regex.text id) = keyPatterns.map Prod.snd := by decide +kernel
  rw [← hspelt]
  apply List.map_congr_left
  have hfree : ∀ r ∈ keyRegexes, r.literalFree = true := by decide
  exact fun r hr => text_of_literalFree (hfree r hr) escape id

end Spelling

/-! ### Columns of tokens -/

/-- What the onboarder sees in a column. -/
inductive ColumnKind where
  | anchor (token : String)
  | ipPort (delimiter : Char)
  | ip
  | port
  | protocol
  | action
  | timestamp
  | other
deriving DecidableEq

namespace ColumnKind

/-- How many addresses a column adds to the count. -/
def ips : ColumnKind → ℕ
  | ipPort _ => 1
  | ip => 1
  | _ => 0

/-- How many ports a column adds to the count. -/
def ports : ColumnKind → ℕ
  | ipPort _ => 1
  | port => 1
  | _ => 0

/-- The part of the pattern for a column behind `ips` addresses and `ports` ports. -/
def part (ips ports : ℕ) : ColumnKind → CharRegex
  | anchor token => literal token.toList
  | ipPort delimiter => seq (if ips = 0 then srcIp else dstIp)
      (seq (one (.char delimiter)) (if ips = 0 then srcPort else dstPort))
  | ip => if ips = 0 then srcIp else dstIp
  | port => if ports = 0 then srcPort else dstPort
  | protocol => named "protocol" alphanumeric
  | action => named "action" letters
  | timestamp => named "timestamp" solid
  | other => group solid

/-- The spelling of a part. -/
def partText (escape : String → String) (ips ports : ℕ) : ColumnKind → String
  | anchor token => escape token
  | ipPort delimiter => if ips = 0 then srcIpGroup ++ delimiter.toString ++ srcPortGroup
    else dstIpGroup ++ delimiter.toString ++ dstPortGroup
  | ip => if ips = 0 then srcIpGroup else dstIpGroup
  | port => if ports = 0 then srcPortGroup else dstPortGroup
  | protocol => r"(?P<protocol>[a-zA-Z0-9]+)"
  | action => r"(?P<action>[a-zA-Z]+)"
  | timestamp => r"(?P<timestamp>\S+)"
  | other => r"(?:\S+)"

end ColumnKind

/-- The parts of the columns, behind `ips` addresses and `ports` ports. -/
def partsOf : ℕ → ℕ → List ColumnKind → List CharRegex
  | _, _, [] => []
  | ips, ports, kind :: kinds =>
    kind.part ips ports :: partsOf (ips + kind.ips) (ports + kind.ports) kinds

/-- The parts with whitespace between them. -/
def positionalCore : List CharRegex → CharRegex
  | [] => empty
  | [part] => part
  | part :: part' :: parts => seq part (seq spaces (positionalCore (part' :: parts)))

/-- Capture patterns anywhere one behind the other. -/
def kvCore : List CharRegex → CharRegex
  | [] => empty
  | [r] => seq boundary r
  | r :: r' :: rs => seq boundary (seq r (seq anything (kvCore (r' :: rs))))

section Synthesis

variable (regex : RegexCrate)

def kindOf (col : List String) : ColumnKind :=
  let first := col.head?.getD ""
  if (col.zip col.tail).all fun (a, b) => a == b then .anchor first
  else if col.all (regex.isMatch reIpPort) then
    .ipPort (if contains first.toList ":" then ':' else '/')
  else if col.all (regex.isMatch reIp) then .ip
  else if col.all (regex.isMatch rePort) then .port
  else if col.all (regex.isMatch reProto) then .protocol
  else if col.all (regex.isMatch reAction) then .action
  else if col.all (regex.isMatch reTimestamp) then .timestamp
  else .other

/-- The tokens of the lines. -/
def tokensOf (line : String) : List String := (splitWhitespace line.toList).map String.ofList

/-- The number of columns that all lines have. -/
def columnCount (samples : List String) : ℕ :=
  (((samples.map tokensOf).map List.length).min?).getD 0

def columnsOf (samples : List String) : List (List String) :=
  (List.range (columnCount samples)).map fun i => (samples.map tokensOf).map fun l => l[i]?.getD ""

def positionalPattern (samples : List String) : Pattern where
  core := positionalCore (partsOf 0 0 ((columnsOf samples).map (kindOf regex)))
  grouped := true
  anywhere := false

def synthesizePositional (samples : List String) : Except String Pattern :=
  if columnCount samples = 0 then .error "Empty sample lines provided"
  else .ok (positionalPattern regex samples)

def synthesizeFlow (first : String) (samples : List String) : Except String Pattern :=
  if regex.isMatch reFlowSlash first then
    if startsWith first.toList "RT_FLOW" then .ok ⟨rtFlowCore, true, false⟩
    else .ok ⟨slashCore, false, true⟩
  else if regex.isMatch reFlowColon first then .ok ⟨colonCore, true, false⟩
  else synthesizePositional regex samples

/-- The capture patterns of the keys in the line, in the order in which they appear. -/
def orderedKeys (first : String) : List CharRegex :=
  ((((keyPatterns.map Prod.fst).zip keyRegexes).filterMap fun (re, r) =>
    (regex.find re first).map fun i => (i, r)).insertionSort fun a b => a.1 ≤ b.1).map
      Prod.snd

def synthesizeKv (first : String) : Except String Pattern :=
  if orderedKeys regex first = [] then .error "No recognizable key-value pairs found in sample"
  else .ok ⟨kvCore (orderedKeys regex first), false, true⟩

/-- The expression that `synthesizeRegex` spells out. -/
def synthesizePattern (first : String) (samples : List String) : Except String Pattern :=
  let has := contains first.toList
  if has "->" || has "session created" || has "session denied" then
    synthesizeFlow regex first samples
  else if has "src=" || has "srcip=" || has "saddr=" then synthesizeKv regex first
  else synthesizePositional regex samples

/-! ### The synthesizers write these expressions -/

variable {regex}

lemma text_part (ips ports : ℕ) (kind : ColumnKind) :
    (kind.part ips ports).text regex.escape = kind.partText regex.escape ips ports := by
  have hsrcIp : srcIp.text regex.escape = srcIpGroup := text_eq _ (by decide) (by decide +kernel)
  have hdstIp : dstIp.text regex.escape = dstIpGroup := text_eq _ (by decide) (by decide +kernel)
  have hsrcPort : srcPort.text regex.escape = srcPortGroup :=
    text_eq _ (by decide) (by decide +kernel)
  have hdstPort : dstPort.text regex.escape = dstPortGroup :=
    text_eq _ (by decide) (by decide +kernel)
  have hprotocol : (named "protocol" alphanumeric).text regex.escape =
      r"(?P<protocol>[a-zA-Z0-9]+)" := text_eq _ (by decide) (by decide +kernel)
  have haction : (named "action" letters).text regex.escape = r"(?P<action>[a-zA-Z]+)" :=
    text_eq _ (by decide) (by decide +kernel)
  have htimestamp : (named "timestamp" solid).text regex.escape = r"(?P<timestamp>\S+)" :=
    text_eq _ (by decide) (by decide +kernel)
  have hother : (group solid).text regex.escape = r"(?:\S+)" :=
    text_eq _ (by decide) (by decide +kernel)
  cases kind with
  | anchor token => rw [ColumnKind.part, Regex.text, String.ofList_toList, ColumnKind.partText]
  | ipPort delimiter =>
    dsimp only [ColumnKind.part, ColumnKind.partText]
    split_ifs
    · rw [Regex.text, Regex.text, hsrcIp, hsrcPort, String.append_assoc]
      rfl
    · rw [Regex.text, Regex.text, hdstIp, hdstPort, String.append_assoc]
      rfl
  | ip =>
    dsimp only [ColumnKind.part, ColumnKind.partText]
    split_ifs
    · exact hsrcIp
    · exact hdstIp
  | port =>
    dsimp only [ColumnKind.part, ColumnKind.partText]
    split_ifs
    · exact hsrcPort
    · exact hdstPort
  | protocol => exact hprotocol
  | action => exact haction
  | timestamp => exact htimestamp
  | other => exact hother

lemma step_eq (s : Columns) (col : List String) :
    s.step regex col =
      ⟨s.parts ++ [((kindOf regex col).part s.ipCount s.portCount).text regex.escape],
        s.ipCount + (kindOf regex col).ips, s.portCount + (kindOf regex col).ports⟩ := by
  have hdelimiter : (if contains (col.head?.getD "").toList ":" then ':' else '/').toString =
      if contains (col.head?.getD "").toList ":" then ":" else "/" := by
    split_ifs
    · rfl
    · rfl
  rw [text_part]
  unfold Columns.step kindOf
  dsimp only
  by_cases hconstant : ((col.zip col.tail).all fun (a, b) => a == b) = true
  · rw [if_pos hconstant, if_pos hconstant]
    rfl
  rw [if_neg hconstant, if_neg hconstant]
  by_cases hipPort : col.all (regex.isMatch reIpPort) = true
  · rw [if_pos hipPort, if_pos hipPort, ← hdelimiter]
    rfl
  rw [if_neg hipPort, if_neg hipPort]
  by_cases hip : col.all (regex.isMatch reIp) = true
  · rw [if_pos hip, if_pos hip]
    rfl
  rw [if_neg hip, if_neg hip]
  by_cases hport : col.all (regex.isMatch rePort) = true
  · rw [if_pos hport, if_pos hport]
    rfl
  rw [if_neg hport, if_neg hport]
  by_cases hproto : col.all (regex.isMatch reProto) = true
  · rw [if_pos hproto, if_pos hproto]
    rfl
  rw [if_neg hproto, if_neg hproto]
  by_cases haction : col.all (regex.isMatch reAction) = true
  · rw [if_pos haction, if_pos haction]
    rfl
  rw [if_neg haction, if_neg haction]
  by_cases htimestamp : col.all (regex.isMatch reTimestamp) = true
  · rw [if_pos htimestamp, if_pos htimestamp]
    rfl
  rw [if_neg htimestamp, if_neg htimestamp]
  rfl

lemma foldl_step (s : Columns) (cols : List (List String)) :
    (cols.foldl (Columns.step regex) s).parts =
      s.parts ++ (partsOf s.ipCount s.portCount (cols.map (kindOf regex))).map
        (Regex.text regex.escape) := by
  induction cols generalizing s with
  | nil => simp [partsOf]
  | cons col cols ih =>
    rw [List.foldl_cons, ih, step_eq, List.map_cons, partsOf, List.map_cons]
    simp

lemma text_positionalCore (parts : List CharRegex) :
    (positionalCore parts).text regex.escape =
      String.intercalate r"\s+" (parts.map (Regex.text regex.escape)) := by
  have hspaces : spaces.text regex.escape = r"\s+" := text_eq _ (by decide) (by decide +kernel)
  induction parts with
  | nil => rfl
  | cons part parts ih =>
    cases parts with
    | nil => rw [positionalCore, List.map_singleton, String.intercalate_singleton]
    | cons part' parts =>
      have hne : (part' :: parts).map (Regex.text regex.escape) ≠ [] := by simp
      rw [positionalCore, Regex.text, Regex.text, hspaces, ih, List.map_cons (a := part),
        String.intercalate_cons_of_ne_nil hne, String.append_assoc]

lemma text_regex (p : Pattern) :
    p.regex.text regex.escape = (if p.anywhere then "^.*?" else "^") ++ p.core.text regex.escape ++
      (if p.grouped then "(?:.*)$" else ".*$") := by
  obtain ⟨core, grouped, anywhere⟩ := p
  have hrest : (rest grouped Atom.dot : CharRegex).text regex.escape ++ "$" =
      if grouped then "(?:.*)$" else ".*$" := by
    cases grouped with
    | false =>
      rw [text_eq (s := ".*") regex.escape (by decide) (by decide +kernel)]
      rfl
    | true =>
      rw [text_eq (s := "(?:.*)") regex.escape (by decide) (by decide +kernel)]
      rfl
  have hanything : "^" ++ anything.text regex.escape = "^.*?" := by
    rw [text_eq (s := ".*?") regex.escape (by decide) (by decide +kernel)]
    rfl
  rw [← hrest, Pattern.regex]
  cases anywhere with
  | false =>
    rw [if_neg Bool.false_ne_true, if_neg Bool.false_ne_true, anchored, Regex.text, Regex.text,
      Regex.text, String.append_assoc]
    rfl
  | true =>
    rw [if_pos rfl, if_pos rfl, ← hanything, free, Regex.text, Regex.text, Regex.text,
      Regex.text, String.append_assoc, String.append_assoc]
    rfl

lemma synthesizePositionalRegex_eq (samples : List String) :
    synthesizePositionalRegex regex samples =
      (synthesizePositional regex samples).map fun p => p.regex.text regex.escape := by
  have hparts := @foldl_step regex ⟨[], 0, 0⟩ (columnsOf samples)
  unfold synthesizePositionalRegex synthesizePositional
  change (if columnCount samples = 0 then _ else _) = _
  split_ifs
  · rfl
  · have hpattern : (positionalPattern regex samples).regex.text regex.escape =
        "^" ++ String.intercalate r"\s+" ((columnsOf samples).foldl (Columns.step regex)
          ⟨[], 0, 0⟩).parts ++ "(?:.*)$" := by
      rw [hparts, text_regex, positionalPattern, text_positionalCore, List.nil_append]
      rfl
    exact congrArg Except.ok hpattern.symm

lemma synthesizeFlowRegex_eq (first : String) (samples : List String) :
    synthesizeFlowRegex regex first samples =
      (synthesizeFlow regex first samples).map fun p => p.regex.text regex.escape := by
  unfold synthesizeFlowRegex synthesizeFlow
  split_ifs
  · exact congrArg Except.ok (text_rtFlow regex.escape).symm
  · exact congrArg Except.ok (text_slash regex.escape).symm
  · exact congrArg Except.ok (text_colon regex.escape).symm
  · exact synthesizePositionalRegex_eq samples

lemma text_kvCore (rs : List CharRegex) (h : rs ≠ []) :
    ".*?" ++ (kvCore rs).text regex.escape =
      String.join (rs.map fun r => r".*?\b" ++ r.text regex.escape) := by
  have hanything : anything.text regex.escape = ".*?" := text_eq _ (by decide) (by decide +kernel)
  have hboundary : ∀ t : String, ".*?" ++ (r"\b" ++ t) = r".*?\b" ++ t :=
    fun t => String.append_assoc.symm
  induction rs with
  | nil => cases h rfl
  | cons r rs ih =>
    cases rs with
    | nil =>
      rw [kvCore, Regex.text, Regex.text, hboundary, List.map_singleton, String.join_cons,
        String.join_nil, String.append_empty]
    | cons r' rs =>
      rw [kvCore, Regex.text, Regex.text, Regex.text, Regex.text, hanything,
        ih (List.cons_ne_nil _ _), hboundary, List.map_cons (a := r), String.join_cons,
        String.append_assoc]

lemma keyPatterns_eq :
    keyPatterns = (((keyPatterns.map Prod.fst).zip keyRegexes).map
      fun (re, r) => (re, r.text regex.escape)) := by
  have hzip : (((keyPatterns.map Prod.fst).zip keyRegexes).map
        fun (re, r) => (re, r.text regex.escape)) =
      (keyPatterns.map Prod.fst).zip (keyRegexes.map (Regex.text regex.escape)) := by
    rw [List.zip_map_right]
    rfl
  rw [hzip, text_keyRegexes]
  rfl

lemma synthesizeKvRegex_eq (first : String) :
    synthesizeKvRegex regex first =
      (synthesizeKv regex first).map fun p => p.regex.text regex.escape := by
  let found := fun (entry : String × CharRegex) =>
    (regex.find entry.1 first).map fun i => (i, entry.2)
  let foundText := fun (entry : String × String) =>
    (regex.find entry.1 first).map fun i => (i, entry.2)
  let spell := fun (entry : ℕ × CharRegex) => (entry.1, entry.2.text regex.escape)
  have hfound : keyPatterns.filterMap foundText =
      (((keyPatterns.map Prod.fst).zip keyRegexes).filterMap found).map spell := by
    conv_lhs => rw [@keyPatterns_eq regex, List.filterMap_map]
    rw [List.map_filterMap]
    apply List.filterMap_congr
    intro entry _
    simp only [found, foundText, spell, Function.comp_apply, Option.map_map]
    rfl
  have hsorted : (keyPatterns.filterMap foundText).insertionSort (fun a b => a.1 ≤ b.1) =
      ((((keyPatterns.map Prod.fst).zip keyRegexes).filterMap found).insertionSort
        fun a b => a.1 ≤ b.1).map spell := by
    rw [hfound]
    exact (List.map_insertionSort (r := fun a b => a.1 ≤ b.1) (s := fun a b => a.1 ≤ b.1) spell _
      fun _ _ _ _ => Iff.rfl).symm
  have htexts : synthesizeKvRegex regex first =
      if (keyPatterns.filterMap foundText).insertionSort (fun a b => a.1 ≤ b.1) = [] then
        .error "No recognizable key-value pairs found in sample"
      else
        .ok ("^" ++ String.join (((keyPatterns.filterMap foundText).insertionSort
          fun a b => a.1 ≤ b.1).map fun entry => r".*?\b" ++ entry.2) ++ ".*$") := rfl
  have hkeys : orderedKeys regex first =
      ((((keyPatterns.map Prod.fst).zip keyRegexes).filterMap found).insertionSort
        fun a b => a.1 ≤ b.1).map Prod.snd := rfl
  rw [htexts, hsorted, synthesizeKv, hkeys]
  generalize (((keyPatterns.map Prod.fst).zip keyRegexes).filterMap found).insertionSort
    (fun a b => a.1 ≤ b.1) = sorted
  by_cases hnone : sorted = []
  · rw [hnone]
    rfl
  · have hspelt : sorted.map spell ≠ [] := by rwa [ne_eq, List.map_eq_nil_iff]
    have hcores : sorted.map Prod.snd ≠ [] := by rwa [ne_eq, List.map_eq_nil_iff]
    have hany : "^.*?" ++ (kvCore (sorted.map Prod.snd)).text regex.escape =
        "^" ++ (".*?" ++ (kvCore (sorted.map Prod.snd)).text regex.escape) := by
      rw [← String.append_assoc]
      rfl
    have hpattern : (Pattern.regex ⟨kvCore (sorted.map Prod.snd), false, true⟩).text regex.escape =
        "^" ++ String.join ((sorted.map spell).map fun entry => r".*?\b" ++ entry.2) ++ ".*$" := by
      rw [text_regex, if_pos rfl, if_neg Bool.false_ne_true]
      dsimp only
      rw [hany, text_kvCore _ hcores, List.map_map, List.map_map]
      rfl
    rw [if_neg hspelt, if_neg hcores]
    exact congrArg Except.ok hpattern.symm

theorem synthesizeRegex_eq (first : String) (samples : List String) :
    synthesizeRegex regex first samples =
      (synthesizePattern regex first samples).map fun p => p.regex.text regex.escape := by
  unfold synthesizeRegex synthesizePattern
  dsimp only
  split_ifs
  · exact synthesizeFlowRegex_eq first samples
  · exact synthesizeKvRegex_eq first
  · exact synthesizePositionalRegex_eq samples

end Synthesis

end Onboarder

end Ulpf.Ai
