import Ulpf.Ai.Patterns
import Ulpf.Core.Words

/-!
# Samples with whitespace around them

The sandbox matches the trimmed sample, the parser the line as it is. Every core starts and ends
with other characters than whitespace, so what a pattern finds in a line with whitespace around
it is what it finds in the trimmed line, if the parts around the core read the whitespace.
-/

namespace Ulpf.Ai.Onboarder
open Ulpf.Core Ulpf.Library Ulpf.Library.Regex
open Ulpf.Integrity (Bytes Hash sha2)

/-! ### The ends of a core -/

/-- No whitespace is in the item; of ranges, only those within printable ASCII. -/
def solidItem : SetItem → Bool
  | .char c => !isWhitespace c
  | .range lo hi => 0x21 ≤ lo.toNat && hi.toNat ≤ 0x7E
  | .space => false

/-- The atom accepts no whitespace. -/
def solidAtom : Atom → Bool
  | .char c => !isWhitespace c
  | .escaped c => !isWhitespace c
  | .dot => false
  | .digit => true
  | .space => false
  | .nonSpace => true
  | .word => true
  | .set negated items => !negated && items.all solidItem

/-- The texts of the expression are not empty, and whitespace is not at their ends. -/
def solidEnds (r : CharRegex) : Bool :=
  !nullable r && firstIn solidAtom (fun x => !isWhitespace x) r &&
    lastIn solidAtom (fun x => !isWhitespace x) r && startFree r && stopFree r

lemma not_isWhitespace_of_item {tables : CharTables} {item : SetItem} {x : Char}
    (h : solidItem item = true) (hx : item.accepts tables x = true) : isWhitespace x = false := by
  cases item with
  | char c =>
    rw [SetItem.accepts, beq_iff_eq] at hx
    simpa [solidItem, hx] using h
  | range lo hi =>
    simp only [SetItem.accepts, Bool.and_eq_true, decide_eq_true_eq, Char.le_def,
      UInt32.le_iff_toNat_le] at hx
    simp only [solidItem, Bool.and_eq_true, decide_eq_true_eq, Char.toNat] at h
    simp only [isWhitespace, Char.toNat, Bool.or_eq_false_iff, Bool.and_eq_false_iff,
      decide_eq_false_iff_not, beq_eq_false_iff_ne]
    omega
  | space => cases h

section Ends

variable {tables : CharTables} (htables : PerlClasses tables)
include htables

lemma solid_of_accepts (a : Atom) (x : Char) (h : solidAtom a = true)
    (hx : a.accepts tables x = true) : (!isWhitespace x) = true := by
  rw [Bool.not_eq_true']
  have hword : tables.word x = true → isWhitespace x = false := by
    intro hx
    rw [Bool.eq_false_iff]
    intro hblank
    rw [htables.blankWord x hblank] at hx
    cases hx
  cases a with
  | char c =>
    rw [Atom.accepts, beq_iff_eq] at hx
    simpa [solidAtom, hx] using h
  | escaped c =>
    rw [Atom.accepts, beq_iff_eq] at hx
    simpa [solidAtom, hx] using h
  | dot => cases h
  | digit => exact hword (htables.digitWord x hx)
  | space => cases h
  | nonSpace => simpa [Atom.accepts, htables.space] using hx
  | word => exact hword hx
  | set negated items =>
    simp only [solidAtom, Bool.and_eq_true, Bool.not_eq_true'] at h
    rw [Atom.accepts, h.1, bne_iff_ne, ne_comm, Bool.ne_false_iff, List.any_eq_true] at hx
    obtain ⟨item, hitem, haccepts⟩ := hx
    exact not_isWhitespace_of_item (List.all_eq_true.mp h.2 item hitem) haccepts

lemma core_of_solidEnds {r : CharRegex} (h : solidEnds r = true) :
    Regex.Core (Atom.accepts tables) isWhitespace r := by
  simp only [solidEnds, Bool.and_eq_true, Bool.not_eq_true'] at h
  obtain ⟨⟨⟨⟨hnullable, hfirst⟩, hlast⟩, hstart⟩, hstop⟩ := h
  exact core_of_analysis (solid_of_accepts htables) hnullable hfirst hlast hstart hstop

end Ends

lemma solidEnds_boundary {r : CharRegex} (h : solidEnds r = true) :
    solidEnds (seq boundary r) = true := by
  simpa [solidEnds, nullable, firstIn, lastIn, startFree, stopFree, and_assoc] using h

lemma solidEnds_join {r mid r' : CharRegex} (h : solidEnds r = true) (h' : solidEnds r' = true)
    (hstart : startFree mid = true) (hstop : stopFree mid = true) :
    solidEnds (seq r (seq mid r')) = true := by
  simp only [solidEnds, Bool.and_eq_true, Bool.not_eq_true'] at h h'
  simp [solidEnds, nullable, firstIn, lastIn, startFree, stopFree, h, h', hstart, hstop]

lemma solidEnds_positionalCore {parts : List CharRegex} (hne : parts ≠ [])
    (h : ∀ part ∈ parts, solidEnds part = true) : solidEnds (positionalCore parts) = true := by
  induction parts with
  | nil => exact absurd rfl hne
  | cons part parts ih =>
    rw [List.forall_mem_cons] at h
    cases parts with
    | nil => exact h.1
    | cons part' parts =>
      exact solidEnds_join h.1 (ih (List.cons_ne_nil _ _) h.2) (by decide) (by decide)

lemma solidEnds_kvCore {rs : List CharRegex} (hne : rs ≠ [])
    (h : ∀ r ∈ rs, solidEnds r = true) : solidEnds (kvCore rs) = true := by
  induction rs with
  | nil => exact absurd rfl hne
  | cons r rs ih =>
    rw [List.forall_mem_cons] at h
    cases rs with
    | nil => exact solidEnds_boundary h.1
    | cons r' rs =>
      have hrest := ih (List.cons_ne_nil _ _) h.2
      exact solidEnds_boundary (solidEnds_join h.1 hrest (by decide) (by decide))

/-! ### The synthesized cores -/

/-- The token is not empty and has no whitespace in it. -/
def SolidToken (token : String) : Prop :=
  token.toList ≠ [] ∧ ∀ c ∈ token.toList, isWhitespace c = false

lemma solidToken_of_mem_tokensOf {token line : String} (h : token ∈ tokensOf line) :
    SolidToken token := by
  obtain ⟨word, hword, rfl⟩ := List.mem_map.mp h
  rw [SolidToken, String.toList_ofList]
  exact solid_of_mem_splitWhitespace hword

lemma columnCount_le {samples : List String} {line : String} (hline : line ∈ samples) :
    columnCount samples ≤ (tokensOf line).length := by
  have hmem : (tokensOf line).length ∈ (samples.map tokensOf).map List.length :=
    List.mem_map_of_mem (List.mem_map_of_mem hline)
  rw [columnCount]
  cases hmin : ((samples.map tokensOf).map List.length).min? with
  | none => exact Nat.zero_le _
  | some n => exact (List.min?_eq_some_iff.mp hmin).2 _ hmem

lemma mem_column {samples : List String} {col : List String} (hcol : col ∈ columnsOf samples)
    {token : String} (h : token ∈ col) : ∃ line ∈ samples, token ∈ tokensOf line := by
  obtain ⟨i, hi, rfl⟩ := List.mem_map.mp hcol
  rw [List.map_map] at h
  obtain ⟨line, hline, rfl⟩ := List.mem_map.mp h
  have hlt := Nat.lt_of_lt_of_le (List.mem_range.mp hi) (columnCount_le hline)
  refine ⟨line, hline, ?_⟩
  rw [Function.comp_apply, List.getElem?_eq_getElem hlt]
  exact List.getElem_mem hlt

lemma samples_ne_nil {samples : List String} (h : columnCount samples ≠ 0) : samples ≠ [] := by
  rintro rfl
  exact h rfl

lemma solidToken_head {samples : List String} {col : List String}
    (hcol : col ∈ columnsOf samples) : SolidToken (col.head?.getD "") := by
  have hcount : columnCount samples ≠ 0 := by
    intro hzero
    rw [columnsOf, hzero] at hcol
    cases hcol
  obtain ⟨token, rest, rfl⟩ : ∃ token rest, col = token :: rest := by
    obtain ⟨i, -, rfl⟩ := List.mem_map.mp hcol
    apply List.exists_cons_of_ne_nil
    simpa using samples_ne_nil hcount
  obtain ⟨line, -, htoken⟩ := mem_column hcol List.mem_cons_self
  exact solidToken_of_mem_tokensOf htoken

lemma kindOf_anchor {regex : RegexCrate} {col : List String} {token : String}
    (h : kindOf regex col = .anchor token) : token = col.head?.getD "" := by
  unfold kindOf at h
  dsimp only at h
  split_ifs at h
  exact (ColumnKind.anchor.inj h).symm

lemma solidEnds_part {kind : ColumnKind} (h : ∀ token, kind = .anchor token → SolidToken token)
    (ips ports : ℕ) : solidEnds (kind.part ips ports) = true := by
  have hsrcIp : solidEnds srcIp = true := by decide
  have hdstIp : solidEnds dstIp = true := by decide
  have hsrcPort : solidEnds srcPort = true := by decide
  have hdstPort : solidEnds dstPort = true := by decide
  have hprotocol : solidEnds (named "protocol" alphanumeric) = true := by decide
  have haction : solidEnds (named "action" letters) = true := by decide
  have htimestamp : solidEnds (named "timestamp" solid) = true := by decide
  have hother : solidEnds (group solid) = true := by decide
  cases kind with
  | anchor token =>
    obtain ⟨hne, hsolid⟩ := h token rfl
    have hfirst : ∀ c ∈ token.toList.head?, isWhitespace c = false :=
      fun c hc => hsolid c (List.mem_of_mem_head? hc)
    have hlast : ∀ c ∈ token.toList.getLast?, isWhitespace c = false :=
      fun c hc => hsolid c (List.mem_of_getLast? hc)
    simp only [solidEnds, ColumnKind.part, nullable, firstIn, lastIn, startFree, stopFree,
      Bool.and_eq_true, Bool.not_eq_true', Option.all_eq_true]
    exact ⟨⟨⟨⟨by simpa using hne, hfirst⟩, hlast⟩, trivial⟩, trivial⟩
  | ipPort delimiter =>
    dsimp only [ColumnKind.part]
    split_ifs
    · exact solidEnds_join hsrcIp hsrcPort rfl rfl
    · exact solidEnds_join hdstIp hdstPort rfl rfl
  | ip =>
    dsimp only [ColumnKind.part]
    split_ifs
    · exact hsrcIp
    · exact hdstIp
  | port =>
    dsimp only [ColumnKind.part]
    split_ifs
    · exact hsrcPort
    · exact hdstPort
  | protocol => exact hprotocol
  | action => exact haction
  | timestamp => exact htimestamp
  | other => exact hother

lemma solidEnds_partsOf {kinds : List ColumnKind}
    (h : ∀ kind ∈ kinds, ∀ token, kind = .anchor token → SolidToken token) (ips ports : ℕ) :
    ∀ part ∈ partsOf ips ports kinds, solidEnds part = true := by
  induction kinds generalizing ips ports with
  | nil => exact List.forall_mem_nil _
  | cons kind kinds ih =>
    rw [List.forall_mem_cons] at h
    exact List.forall_mem_cons.mpr ⟨solidEnds_part h.1 ips ports, ih h.2 _ _⟩

section Cores

variable {regex : RegexCrate}

lemma solidEnds_positional {samples : List String} (h : columnCount samples ≠ 0) :
    solidEnds (positionalPattern regex samples).core = true := by
  apply solidEnds_positionalCore
  · obtain ⟨n, hn⟩ := Nat.exists_eq_succ_of_ne_zero h
    rw [columnsOf, hn, Nat.succ_eq_add_one, List.range_succ_eq_map]
    simp [partsOf]
  · apply solidEnds_partsOf
    intro kind hkind token hanchor
    obtain ⟨col, hcol, rfl⟩ := List.mem_map.mp hkind
    rw [kindOf_anchor hanchor]
    exact solidToken_head hcol

lemma solidEnds_orderedKeys (first : String) :
    ∀ r ∈ orderedKeys regex first, solidEnds r = true := by
  have hkeys : ∀ r ∈ keyRegexes, solidEnds r = true := by decide
  intro r hr
  obtain ⟨entry, hentry, rfl⟩ := List.mem_map.mp hr
  rw [List.mem_insertionSort, List.mem_filterMap] at hentry
  obtain ⟨⟨re, r'⟩, hzip, hfound⟩ := hentry
  obtain ⟨i, -, rfl⟩ := Option.map_eq_some_iff.mp hfound
  exact hkeys r' (List.of_mem_zip hzip).2

/-- The flow with slashes and the keys may follow any text; the other patterns have their core
at the start of the line. -/
def startsAnywhere (regex : RegexCrate) (first : String) : Bool :=
  let has := contains first.toList
  if has "->" || has "session created" || has "session denied" then
    regex.isMatch reFlowSlash first && !startsWith first.toList "RT_FLOW"
  else has "src=" || has "srcip=" || has "saddr="

/-- What the synthesizers write for the samples. -/
lemma synthesizePattern_spec {first : String} {samples : List String} {p : Pattern}
    (h : synthesizePattern regex first samples = .ok p) :
    solidEnds p.core = true ∧ p.anywhere = startsAnywhere regex first := by
  have hpositional : ∀ {p}, synthesizePositional regex samples = .ok p →
      solidEnds p.core = true ∧ p.anywhere = false := by
    intro p h
    unfold synthesizePositional at h
    split_ifs at h with hcount
    obtain rfl := Except.ok.inj h
    exact ⟨solidEnds_positional hcount, rfl⟩
  unfold synthesizePattern at h
  unfold startsAnywhere
  dsimp only at h ⊢
  split_ifs at h ⊢ with hflow hkv
  · unfold synthesizeFlow at h
    split_ifs at h with hslash hrtFlow hcolon
    · obtain rfl := Except.ok.inj h
      exact ⟨by decide +kernel, by simp [hrtFlow]⟩
    · obtain rfl := Except.ok.inj h
      exact ⟨by decide +kernel, by simp [hslash, hrtFlow]⟩
    · obtain rfl := Except.ok.inj h
      exact ⟨by decide +kernel, by simp [hslash]⟩
    · obtain ⟨hends, hanywhere⟩ := hpositional h
      exact ⟨hends, by simp [hslash, hanywhere]⟩
  · unfold synthesizeKv at h
    split_ifs at h with hnone
    obtain rfl := Except.ok.inj h
    exact ⟨solidEnds_kvCore hnone (solidEnds_orderedKeys first), hkv.symm⟩
  · obtain ⟨hends, hanywhere⟩ := hpositional h
    exact ⟨hends, by simp [hkv, hanywhere]⟩

end Cores

/-! ### The whitespace around a sample -/

def leading (sample : Text) : Text := sample.takeWhile isWhitespace

def trailing (sample : Text) : Text := (trimStart sample).rtakeWhile isWhitespace

lemma append_trim_append (sample : Text) :
    sample = leading sample ++ (trim sample ++ trailing sample) := by
  have hend : (trimStart sample) = (trimStart sample).rdropWhile isWhitespace ++
      (trimStart sample).rtakeWhile isWhitespace := by
    rw [List.rdropWhile, List.rtakeWhile, ← List.reverse_append, List.takeWhile_append_dropWhile,
      List.reverse_reverse]
  conv_lhs => rw [← List.takeWhile_append_dropWhile (p := isWhitespace) (l := sample)]
  exact congrArg (leading sample ++ ·) hend

lemma isWhitespace_of_mem_leading {sample : Text} :
    ∀ c ∈ leading sample, isWhitespace c = true := fun _ hc => List.mem_takeWhile_imp hc

lemma isWhitespace_of_mem_trailing {sample : Text} :
    ∀ c ∈ trailing sample, isWhitespace c = true := fun _ hc => List.mem_rtakeWhile_imp hc

/-- A pattern reads the whitespace around the sample: no line feed is in it, and nothing is
before the text where the core stands at the start of the line. -/
def PaddingRead (anywhere : Bool) (sample : Text) : Prop :=
  '\n' ∉ trailing sample ∧ '\n' ∉ leading sample ∧ (anywhere = false → leading sample = [])

instance (anywhere : Bool) (sample : Text) : Decidable (PaddingRead anywhere sample) :=
  inferInstanceAs (Decidable (_ ∧ _ ∧ (_ → _)))

example : PaddingRead true "\t a=b ".toList := by decide
example : ¬PaddingRead false " a".toList := by decide

section Reading

variable {tables : CharTables} (htables : PerlClasses tables)

lemma all_dot_iff (s : Text) : s.all (Atom.accepts tables .dot) = true ↔ '\n' ∉ s := by
  rw [List.all_eq_true]
  constructor
  · intro h hmem
    exact absurd (h _ hmem) (by simp [Atom.accepts])
  · intro h c hc
    rw [Atom.accepts, bne_iff_ne]
    rintro rfl
    exact h hc

include htables

lemma groupsOf_padded {p : Pattern} (h : solidEnds p.core = true) (sample : Text) :
    groupsOf (Atom.accepts tables) tables.word p.regex sample =
      if PaddingRead p.anywhere sample then
        groupsOf (Atom.accepts tables) tables.word p.regex (trim sample)
      else none := by
  have hcore := core_of_solidEnds htables h
  have hleading := @isWhitespace_of_mem_leading sample
  have htrailing := @isWhitespace_of_mem_trailing sample
  obtain ⟨core, grouped, anywhere⟩ := p
  conv_lhs => rw [append_trim_append sample]
  rw [Pattern.regex]
  cases anywhere with
  | false =>
    rw [if_neg Bool.false_ne_true, groupsOf_anchored hcore grouped .dot htables.blankWord hleading
      htrailing]
    apply if_congr _ rfl rfl
    rw [all_dot_iff, PaddingRead]
    constructor
    · rintro ⟨hnone, hend⟩
      exact ⟨hend, by rw [hnone]; exact List.not_mem_nil, fun _ => hnone⟩
    · rintro ⟨hend, -, hnone⟩
      exact ⟨hnone rfl, hend⟩
  | true =>
    rw [if_pos rfl, groupsOf_free hcore grouped .dot htables.blankWord hleading htrailing]
    apply if_congr _ rfl rfl
    rw [all_dot_iff, all_dot_iff, PaddingRead, and_comm]
    simp

end Reading

/-! ### Validation and parsing -/

section Parsing

variable (regex : RegexCrate) (sha256 : Bytes → Hash) (r : Readings)

/-- The parser makes an event with two IPv4 addresses of the line. -/
def ParsesAddresses (parser : ParserDefinition) (line : String) : Prop :=
  ∃ event, parser.parse regex sha256 r line = .ok event ∧
    (∃ ip, event.srcEndpoint.ip = some ip ∧ isIpv4 ip.toList = true) ∧
    ∃ ip, event.dstEndpoint.ip = some ip ∧ isIpv4 ip.toList = true

variable {regex sha256 r}

lemma parsesAddresses_iff {parser : ParserDefinition} {re : CompiledRegex}
    (hre : regex.new parser.regexPattern = some re) (line : String) :
    ParsesAddresses regex sha256 r parser line ↔ ∃ caps, re.captures line = some caps ∧
      (∃ ip, caps.name "src_ip" = some ip ∧ isIpv4 ip.toList = true) ∧
      ∃ ip, caps.name "dst_ip" = some ip ∧ isIpv4 ip.toList = true := by
  have hsrc : ∀ caps, (parser.activity sha256 r re caps line).srcEndpoint = caps.srcEndpoint :=
    fun caps => srcEndpoint_withUnmapped _ _
  have hdst : ∀ caps, (parser.activity sha256 r re caps line).dstEndpoint = caps.dstEndpoint :=
    fun caps => dstEndpoint_withUnmapped _ _
  constructor
  · rintro ⟨event, hparse, hips⟩
    obtain ⟨re', caps, hre', hcaps, rfl⟩ := ParserDefinition.parse_eq_ok_iff.mp hparse
    rw [hre, Option.some.injEq] at hre'
    subst hre'
    rw [hsrc, hdst] at hips
    exact ⟨caps, hcaps, hips⟩
  · rintro ⟨caps, hcaps, hips⟩
    refine ⟨_, ParserDefinition.parse_eq_ok_iff.mpr ⟨re, caps, hre, hcaps, rfl⟩, ?_⟩
    rw [hsrc, hdst]
    exact hips

lemma map_name_captures (tables : CharTables) (e : CharRegex) (haystack : String) :
    ((compile tables e).captures haystack).map Match.name =
      (groupsOf (Atom.accepts tables) tables.word e haystack.toList).map
        fun groups name => (groups.lookup name).map String.ofList := by
  rw [compile, groupsOf, Option.map_map, Option.map_map]
  rfl

/-- A sample that passes the sandbox is parsed exactly if the whitespace around it is read. -/
lemma parsesAddresses_of_samplePasses {tables : CharTables} (htables : PerlClasses tables)
    {p : Pattern} (hends : solidEnds p.core = true) {parser : ParserDefinition}
    (hre : regex.new parser.regexPattern = some (compile tables p.regex)) {sample : String}
    (hpass : SamplePasses (compile tables p.regex) sample) :
    ParsesAddresses regex sha256 r parser sample ↔ PaddingRead p.anywhere sample.toList := by
  obtain ⟨-, caps, hcaps, hvalid⟩ := hpass
  have hnames := map_name_captures tables p.regex sample
  have htrimmed := map_name_captures tables p.regex (String.ofList (trim sample.toList))
  rw [String.toList_ofList, hcaps, Option.map_some] at htrimmed
  rw [groupsOf_padded htables hends] at hnames
  rw [parsesAddresses_iff hre]
  by_cases hread : PaddingRead p.anywhere sample.toList
  · rw [if_pos hread, ← htrimmed] at hnames
    obtain ⟨caps', hcaps', hsame⟩ := Option.map_eq_some_iff.mp hnames
    refine ⟨fun _ => hread, fun _ => ⟨caps', hcaps', ?_⟩⟩
    rw [hsame]
    exact ⟨hvalid.srcIp, hvalid.dstIp⟩
  · rw [if_neg hread, Option.map_none, Option.map_eq_none_iff] at hnames
    refine ⟨?_, fun h => absurd h hread⟩
    rintro ⟨caps', hcaps', -⟩
    rw [hnames] at hcaps'
    cases hcaps'

end Parsing

lemma generateParser_pattern {regex : RegexCrate} {debug : List String → String} {nowMs : Int64}
    {vendor deviceModel : String} {samples : List String} {parser : ParserDefinition}
    {report : ValidationReport}
    (h : generateParser regex debug nowMs vendor deviceModel samples = .ok (parser, report)) :
    ∃ p, synthesizePattern regex (samples.head?.getD "") samples = .ok p ∧
      parser.regexPattern = p.regex.text regex.escape := by
  unfold generateParser at h
  split at h
  · rename_i first second third rest
    obtain ⟨pattern, hpattern, h⟩ := bind_eq_ok h
    obtain ⟨found, -, h⟩ := bind_eq_ok h
    rw [synthesizeRegex_eq] at hpattern
    cases hp : synthesizePattern regex first (first :: second :: third :: rest) with
    | error err =>
      rw [hp] at hpattern
      cases hpattern
    | ok p =>
      rw [hp] at hpattern
      cases hpattern
      split_ifs at h
      cases h
      exact ⟨p, hp, rfl⟩
  · cases h

/-! ### A crate with the expressions of one format -/

def asciiClasses : CharTables := ⟨Char.isDigit, isWhitespace, fun c => c.isAlphanum || c == '_'⟩

lemma perlClasses_ascii : PerlClasses asciiClasses where
  space _ := rfl
  digitWord x hx := by
    have hdigit : x.isDigit = true := hx
    simp [asciiClasses, Char.isAlphanum, hdigit]
  blankWord x hx := by
    rw [Bool.eq_false_iff]
    intro hword
    have hchar : x.isAlphanum = true ∨ x = '_' := by simpa [asciiClasses] using hword
    rw [(isWhitespace_of_wordChar hchar).1] at hx
    cases hx
  asciiDigit _ _ := rfl
  asciiWord _ _ := rfl

/-- The expression of `reFlowSlash`. -/
def flowSlash : CharRegex :=
  cat [capture "1" false ip, plain "/", capture "2" false port, plain "->", capture "3" false ip,
    plain "/", capture "4" false port]

example : flowSlash.text id = reFlowSlash := by decide +kernel

def slashRegex : CharRegex := Pattern.regex ⟨slashCore, false, true⟩

def slashCrate : RegexCrate where
  new pattern :=
    if pattern = reFlowSlash then some (compile asciiClasses flowSlash)
    else if pattern = slashPattern then some (compile asciiClasses slashRegex)
    else none
  escape := id

lemma slashCrate_new :
    slashCrate.new (slashRegex.text slashCrate.escape) =
      some (compile asciiClasses slashRegex) := by
  have hother : slashPattern ≠ reFlowSlash := by decide +kernel
  have htext : slashRegex.text slashCrate.escape = slashPattern := text_slash _
  rw [htext, slashCrate]
  dsimp only
  rw [if_neg hother, if_pos rfl]

def flowLines (ending : String) : List String :=
  List.replicate 3 ("\t1.2.3.4/10->5.6.7.8/20 proto=6" ++ ending)

lemma exists_of_toOption {ε α : Type} {result : Except ε α} {P : α → Bool}
    (h : result.toOption.any P = true) : ∃ a, result = .ok a ∧ P a = true := by
  cases result with
  | error err => cases h
  | ok a => exact ⟨a, rfl, h⟩

/-- The parser passes, and parses the samples as they are exactly if the whitespace around each of
them is read. -/
theorem samples_parsed_iff {regex : RegexCrate} {tables : CharTables}
    (htables : PerlClasses tables) {debug : List String → String} {nowMs : Int64}
    {vendor deviceModel : String} {samples : List String} {parser : ParserDefinition}
    {report : ValidationReport}
    (hcompile : ∀ p, synthesizePattern regex (samples.head?.getD "") samples = .ok p →
      ∀ re, regex.new (p.regex.text regex.escape) = some re → re = compile tables p.regex)
    (h : generateParser regex debug nowMs vendor deviceModel samples = .ok (parser, report))
    (sha256 : Bytes → Hash) (r : Readings) :
    (report.passed = true ∧ ∀ sample ∈ samples, ParsesAddresses regex sha256 r parser sample) ↔
      ∀ sample ∈ samples,
        PaddingRead (startsAnywhere regex (samples.head?.getD "")) sample.toList := by
  obtain ⟨-, hpassed, hreport, -⟩ := generateParser_eq_ok h
  obtain ⟨p, hp, hpattern⟩ := generateParser_pattern h
  obtain ⟨hends, hanywhere⟩ := synthesizePattern_spec hp
  obtain ⟨re, hre, hpass⟩ := (validateParser_passed_iff hreport).mp hpassed
  obtain rfl := hcompile p hp re (hpattern ▸ hre)
  rw [← hanywhere]
  constructor
  · rintro ⟨-, hparses⟩ sample hsample
    exact (parsesAddresses_of_samplePasses htables hends hre (hpass sample hsample)).mp
      (hparses sample hsample)
  · intro hread
    refine ⟨hpassed, fun sample hsample => ?_⟩
    exact (parsesAddresses_of_samplePasses htables hends hre (hpass sample hsample)).mpr
      (hread sample hsample)

theorem samples_parsed_iff_flow : ∃ parser report,
    generateParser slashCrate (fun _ => "") 0 "v" "m" (flowLines " ") = .ok (parser, report) ∧
      report.passed = true ∧
      ∀ sample ∈ flowLines " ", ParsesAddresses slashCrate sha2 ⟨"", 0, 0⟩ parser sample := by
  have hok : (generateParser slashCrate (fun _ => "") 0 "v" "m" (flowLines " ")).toOption.any
      (fun _ => true) = true := by decide +kernel
  obtain ⟨⟨parser, report⟩, h, -⟩ := exists_of_toOption hok
  refine ⟨parser, report, h, (samples_parsed_iff perlClasses_ascii ?_ h sha2 ⟨"", 0, 0⟩).mpr ?_⟩
  · intro p hp re hre
    have hslash : synthesizePattern slashCrate ((flowLines " ").head?.getD "") (flowLines " ") =
        .ok ⟨slashCore, false, true⟩ := rfl
    rw [hslash] at hp
    obtain rfl := Except.ok.inj hp
    exact (Option.some.inj (slashCrate_new.symm.trans hre)).symm
  · decide +kernel

/-- With a line feed at the end of the samples they pass and are not parsed. -/
theorem line_feed_rejected : ∃ parser report,
    generateParser slashCrate (fun _ => "") 0 "v" "m" (flowLines "\n") = .ok (parser, report) ∧
      ¬∀ sample ∈ flowLines "\n",
        ParsesAddresses slashCrate sha2 ⟨"", 0, 0⟩ parser sample := by
  have hok : (generateParser slashCrate (fun _ => "") 0 "v" "m" (flowLines "\n")).toOption.any
      (fun result => (flowLines "\n").all fun sample =>
        (result.1.parse slashCrate sha2 ⟨"", 0, 0⟩ sample).toOption.isNone) = true := by
    decide +kernel
  obtain ⟨⟨parser, report⟩, h, hnone⟩ := exists_of_toOption hok
  refine ⟨parser, report, h, fun hparses => ?_⟩
  have hmem : (flowLines "\n").head (by decide) ∈ flowLines "\n" := List.head_mem _
  obtain ⟨event, hparse, -⟩ := hparses _ hmem
  have herror := List.all_eq_true.mp hnone _ hmem
  rw [hparse] at herror
  cases herror

end Ulpf.Ai.Onboarder
