import Ulpf.Ai.Endpoints
import Ulpf.Ai.Triage
import Ulpf.Ai.YamlRoundTrip

/-!
# Onboarding over whole runs

`run_onboard` synthesizes a parser from a file of sample lines and writes it to the output
directory, from where a registry loads it in another process. Whatever is onboarded into the same
directory later, an exported parser that was not overwritten parses the lines it was made from.
-/

namespace Ulpf.Ai
open Ulpf.Core Ulpf.Library Onboarder
open Ulpf.Integrity (Bytes Hash)

/-! ### Definitions that parse alike -/

namespace ParserDefinition

/-- The definitions agree in all that parsing reads; the mappings agree as maps. -/
structure Alike (d e : ParserDefinition) : Prop where
  vendor : e.vendor = d.vendor
  deviceModel : e.deviceModel = d.deviceModel
  regexPattern : e.regexPattern = d.regexPattern
  mappings : ∀ k, e.actionMappings.lookup k = d.actionMappings.lookup k

variable {d e : ParserDefinition} {regex : RegexCrate} {sha256 : Bytes → Hash}

lemma Alike.parse_eq (h : d.Alike e) (r : Readings) (raw : String) :
    e.parse regex sha256 r raw = d.parse regex sha256 r raw := by
  have hnorm : e.normDisp = d.normDisp := by
    funext rawAction
    rw [normDisp, normDisp, h.mappings]
  have hactivity : e.activity sha256 r = d.activity sha256 r := by
    funext compiledRe caps raw
    rw [activity, activity, hnorm, h.vendor, h.deviceModel]
  unfold parse
  rw [h.vendor, h.regexPattern, hactivity]

/-- Whenever the line comes, it is parsed to an event with two addresses. -/
def Reads (regex : RegexCrate) (sha256 : Bytes → Hash) (d : ParserDefinition) (line : String) :
    Prop :=
  ∀ r, ∃ event src dst, d.parse regex sha256 r line = .ok event ∧ event.metadata.rawData = line ∧
    event.srcEndpoint.ip = some src ∧ isIpv4 src.toList = true ∧
    event.dstEndpoint.ip = some dst ∧ isIpv4 dst.toList = true

lemma Alike.reads (h : d.Alike e) {line : String} (hreads : d.Reads regex sha256 line) :
    e.Reads regex sha256 line := by
  intro r
  rw [h.parse_eq]
  exact hreads r

lemma reads_of_generateParser (sha256 : Bytes → Hash) {debug : List String → String}
    {nowMs : Int64} {vendor model : String} {samples : List String} {report : ValidationReport}
    (h : generateParser regex debug nowMs vendor model samples = .ok (d, report)) {line : String}
    (hline : line ∈ samples) (htrim : trim line.toList = line.toList) :
    d.Reads regex sha256 line := by
  obtain ⟨-, hpassed, hreport, -⟩ := generateParser_eq_ok h
  obtain ⟨re, hre, hall⟩ := (validateParser_passed_iff hreport).mp hpassed
  obtain ⟨-, caps, hcaps, hvalid⟩ := hall line hline
  rw [htrim, String.ofList_toList] at hcaps
  obtain ⟨src, hsrc, hsrcValid⟩ := hvalid.srcIp
  obtain ⟨dst, hdst, hdstValid⟩ := hvalid.dstIp
  intro r
  have hparse : d.parse regex sha256 r line = .ok (d.activity sha256 r re caps line) :=
    parse_eq_ok_iff.mpr ⟨re, caps, hre, hcaps, rfl⟩
  refine ⟨_, src, dst, hparse, (wellClassed_parse hparse).2.1, ?_, hsrcValid, ?_, hdstValid⟩
  · rw [activity, srcEndpoint_withUnmapped]
    exact hsrc
  · rw [activity, dstEndpoint_withUnmapped]
    exact hdst

end ParserDefinition

namespace Onboarder

/-! ### Patterns on one line -/

/-- The text has no line break. -/
abbrev OneLine (s : String) : Prop := '\n' ∉ s.toList

lemma OneLine.append {s t : String} (hs : OneLine s) (ht : OneLine t) : OneLine (s ++ t) := by
  rw [OneLine, String.toList_append, List.mem_append, not_or]
  exact ⟨hs, ht⟩

lemma oneLine_join {l : List String} (h : ∀ s ∈ l, OneLine s) : OneLine (String.join l) := by
  rw [OneLine, String.toList_join, List.mem_flatMap]
  rintro ⟨s, hs, hmem⟩
  exact h s hs hmem

lemma oneLine_intercalate {sep : String} (hsep : OneLine sep) {l : List String}
    (h : ∀ s ∈ l, OneLine s) : OneLine (String.intercalate sep l) := by
  induction l with
  | nil => exact List.not_mem_nil
  | cons s l ih =>
    rw [List.forall_mem_cons] at h
    cases l with
    | nil =>
      rw [String.intercalate_singleton]
      exact h.1
    | cons s' l =>
      rw [String.intercalate_cons_of_ne_nil (List.cons_ne_nil s' l)]
      exact (h.1.append hsep).append (ih h.2)

lemma oneLine_escapeMeta {s : String} (h : OneLine s) : OneLine (escapeMeta s) := by
  rw [OneLine, escapeMeta, String.toList_ofList, List.mem_flatMap]
  rintro ⟨c, hc, hmem⟩
  have hne : '\n' ≠ c := fun heq => h (heq ▸ hc)
  split_ifs at hmem
  · rcases List.mem_cons.mp hmem with hslash | hself
    · exact absurd hslash (by decide)
    · exact hne (List.mem_singleton.mp hself)
  · exact hne (List.mem_singleton.mp hmem)

lemma SolidToken.oneLine {token : String} (h : SolidToken token) : OneLine token :=
  fun hmem => absurd (h.2 _ hmem) (by decide)

variable {regex : RegexCrate}

lemma oneLine_step (hescape : regex.escape = escapeMeta) {col : List String}
    (hcol : OneLine (col.head?.getD "")) {s : Columns} (h : ∀ part ∈ s.parts, OneLine part) :
    ∀ part ∈ (s.step regex col).parts, OneLine part := by
  have hpush : ∀ {new : String}, OneLine new → ∀ part ∈ s.parts ++ [new], OneLine part := by
    intro new hnew part hpart
    rcases List.mem_append.mp hpart with hold | hpart
    · exact h part hold
    · rw [List.mem_singleton.mp hpart]
      exact hnew
  have hdelimiter : ∀ b : Bool, OneLine (if b then ":" else "/") := by decide
  have hsrcIp : OneLine srcIpGroup := by decide +kernel
  have hsrcPort : OneLine srcPortGroup := by decide +kernel
  have hdstIp : OneLine dstIpGroup := by decide +kernel
  have hdstPort : OneLine dstPortGroup := by decide +kernel
  unfold Columns.step Columns.push
  dsimp only
  split
  · rw [hescape]
    exact hpush (oneLine_escapeMeta hcol)
  · split
    · apply hpush
      split
      · exact (hsrcIp.append (hdelimiter _)).append hsrcPort
      · exact (hdstIp.append (hdelimiter _)).append hdstPort
    · split
      · apply hpush
        split
        · exact hsrcIp
        · exact hdstIp
      · split
        · apply hpush
          split
          · exact hsrcPort
          · exact hdstPort
        · split
          · exact hpush (by decide +kernel)
          · split
            · exact hpush (by decide +kernel)
            · split
              · exact hpush (by decide +kernel)
              · exact hpush (by decide +kernel)

lemma oneLine_positional (hescape : regex.escape = escapeMeta) {samples : List String}
    {pattern : String} (h : synthesizePositionalRegex regex samples = .ok pattern) :
    OneLine pattern := by
  have hparts : ∀ cols ⊆ columnsOf samples, ∀ s : Columns, (∀ part ∈ s.parts, OneLine part) →
      ∀ part ∈ (cols.foldl (Columns.step regex) s).parts, OneLine part := by
    intro cols
    induction cols with
    | nil => exact fun _ s hs => hs
    | cons col cols ih =>
      intro hsub s hs
      rw [List.cons_subset] at hsub
      exact ih hsub.2 _ (oneLine_step hescape (solidToken_head hsub.1).oneLine hs)
  unfold synthesizePositionalRegex at h
  dsimp only at h
  split_ifs at h
  cases h
  have hstart : OneLine "^" := by decide
  have hspaces : OneLine r"\s+" := by decide
  have hstop : OneLine "(?:.*)$" := by decide
  refine (hstart.append (oneLine_intercalate hspaces ?_)).append hstop
  exact hparts (columnsOf samples) (List.Subset.refl _) ⟨[], 0, 0⟩ nofun

lemma oneLine_synthesizeRegex (hescape : regex.escape = escapeMeta) {first : String}
    {samples : List String} {pattern : String}
    (h : synthesizeRegex regex first samples = .ok pattern) : OneLine pattern := by
  unfold synthesizeRegex at h
  dsimp only at h
  split at h
  · unfold synthesizeFlowRegex at h
    split at h
    · split at h
      · cases h
        decide +kernel
      · cases h
        decide +kernel
    · split at h
      · cases h
        decide +kernel
      · exact oneLine_positional hescape h
  · split at h
    · unfold synthesizeKvRegex at h
      dsimp only at h
      split at h
      · cases h
      · cases h
        have hstart : OneLine "^" := by decide
        have hstop : OneLine ".*$" := by decide
        have hkeys : ∀ entry ∈ keyPatterns, OneLine (r".*?\b" ++ entry.2) := by decide +kernel
        refine (hstart.append (oneLine_join ?_)).append hstop
        intro s hs
        obtain ⟨found, hfound, rfl⟩ := List.mem_map.mp hs
        rw [List.mem_insertionSort] at hfound
        obtain ⟨entry, hentry, hsome⟩ := List.mem_filterMap.mp hfound
        obtain ⟨start, -, rfl⟩ := Option.map_eq_some_iff.mp hsome
        exact hkeys entry hentry
    · exact oneLine_positional hescape h

end Onboarder

namespace ParserDefinition

/-- What YAML keeps of an exported definition. -/
structure YamlPlain (d : ParserDefinition) : Prop where
  vendor : Unquoted d.vendor.toList ∧ OneLine d.vendor
  deviceModel : Unquoted d.deviceModel.toList ∧ OneLine d.deviceModel
  regexPattern : '"' ∉ d.regexPattern.toList

/-- A character that has no meaning in YAML. -/
def plainChar (c : Char) : Bool := !isWhitespace c && c != ':' && c != '#' && c != '"'

lemma plainKey_of_plainChar {s : String} (h : s.toList.all plainChar = true) :
    PlainKey s.toList ∧ Unquoted s.toList ∧ OneLine s := by
  simp only [List.all_eq_true, plainChar, Bool.and_eq_true, Bool.not_eq_true', bne_iff_ne] at h
  have hkey : PlainKey s.toList :=
    { colon := fun hc => (h _ hc).1.1.2 rfl
      bare := bare_of_forall fun c hc => (h c hc).1.1.1
      comment := fun hc => (h _ (List.mem_of_head? hc)).1.2 rfl }
  have hval : Unquoted s.toList :=
    bare_of_forall fun c hc => beq_eq_false_iff_ne.mpr (h c hc).2
  exact ⟨hkey, hval, fun hc => absurd (h _ hc).1.1.1 (by decide)⟩

lemma plain_inferActionMappings : ∀ e ∈ inferActionMappings.entries,
    (PlainKey e.1.toList ∧ Unquoted e.2.toList) ∧ OneLine e.1 ∧ OneLine e.2 := by
  have hplain : inferActionMappings.entries.all (fun e =>
      e.1.toList.all plainChar && e.2.toList.all plainChar) = true := by decide +kernel
  intro e he
  obtain ⟨hkey, hval⟩ := Bool.and_eq_true_iff.mp (List.all_eq_true.mp hplain e he)
  obtain ⟨hplainKey, -, hkeyLine⟩ := plainKey_of_plainChar hkey
  obtain ⟨-, hunquoted, hvalLine⟩ := plainKey_of_plainChar hval
  exact ⟨⟨hplainKey, hunquoted⟩, hkeyLine, hvalLine⟩

lemma fromYaml_toYaml {clock : ℕ → Int64} {fromJson : Text → Option ParserDefinition}
    (hjson : ∀ s, fromJson ('v' :: s) = none) {vendor model pattern : String}
    {samples : List String} {nowMs : Int64} (hpattern : pattern ≠ "") (hline : OneLine pattern)
    (hsamples : ∀ sample ∈ samples, OneLine sample)
    (h : (parserDef vendor model pattern samples nowMs).YamlPlain) :
    ∃ e, fromYaml clock fromJson (parserDef vendor model pattern samples nowMs).toYaml = .ok e ∧
      (parserDef vendor model pattern samples nowMs).Alike e := by
  let d := parserDef vendor model pattern samples nowMs
  obtain ⟨m, c, hscan, hplain⟩ := foldl_yamlLines clock d
  have hbreaks : d.NoLineBreaks :=
    ⟨h.vendor.2, h.deviceModel.2, hline, fun e he => (plain_inferActionMappings e he).2, hsamples⟩
  have hreject : fromJson d.toYaml = none := hjson _
  refine ⟨d.recovered m c, ?_, ?_⟩
  · change fromYaml clock fromJson d.toYaml = _
    unfold fromYaml
    rw [hreject]
    dsimp only
    rw [lines_toYaml hbreaks, hscan, if_neg (recovered_pattern_ne hpattern m c)]
  · exact ⟨ofList_unquote_eq_iff.mpr h.vendor.1, ofList_unquote_eq_iff.mpr h.deviceModel.1,
      ofList_unquote_escapeQuotes_eq_iff.mpr h.regexPattern,
      hplain fun e he => (plain_inferActionMappings e he).1⟩

lemma fromYaml_of_generateParser (clock : ℕ → Int64) {regex : RegexCrate}
    {debug : List String → String} {nowMs : Int64} {fromJson : Text → Option ParserDefinition}
    (hjson : ∀ s, fromJson ('v' :: s) = none) (hescape : regex.escape = escapeMeta)
    {vendor model : String} {samples : List String} {d : ParserDefinition}
    {report : ValidationReport}
    (hgenerated : generateParser regex debug nowMs vendor model samples = .ok (d, report))
    (hsamples : ∀ sample ∈ samples, OneLine sample) (h : d.YamlPlain) :
    ∃ e, fromYaml clock fromJson d.toYaml = .ok e ∧ d.Alike e := by
  obtain ⟨p, hp, hpattern⟩ := generateParser_pattern hgenerated
  obtain ⟨-, -, -, pattern, rfl⟩ := generateParser_eq_ok hgenerated
  have hline : OneLine pattern := by
    have hsynthesized : synthesizeRegex regex (samples.head?.getD "") samples = .ok pattern := by
      rw [synthesizeRegex_eq, hp]
      exact congrArg Except.ok hpattern.symm
    exact oneLine_synthesizeRegex hescape hsynthesized
  have hne : pattern ≠ "" := by
    change pattern = _ at hpattern
    rw [hpattern, text_regex]
    split_ifs <;> simp
  exact fromYaml_toYaml hjson hne hline hsamples h

end ParserDefinition

/-! ### Loading -/

namespace DynamicParserRegistry

variable (toLowercase : String → String) (fromJson : Text → Option ParserDefinition)

/-- Load and register parser directly from JSON -/
def loadFromJson (reg : DynamicParserRegistry) (json : Text) : Option DynamicParserRegistry :=
  (fromJson json).map (reg.register toLowercase)

/-- Load and register parser directly from YAML -/
def loadFromYaml (clock : ℕ → Int64) (reg : DynamicParserRegistry) (yaml : Text) :
    Except String DynamicParserRegistry :=
  (ParserDefinition.fromYaml clock fromJson yaml).map (reg.register toLowercase)

/-- The registry parses the lines for the vendor, however it is spelled, and goes on doing so
while parsers of other vendors are registered. -/
def Serves (regex : RegexCrate) (sha256 : Bytes → Hash) (reg : DynamicParserRegistry)
    (vendor : String) (lines : List String) : Prop :=
  ∀ others : List ParserDefinition,
    (∀ other ∈ others, toLowercase other.vendor ≠ toLowercase vendor) →
    ∀ spelled, toLowercase spelled = toLowercase vendor → ∀ line ∈ lines, ∀ r,
    ∃ event src dst, (others.foldl (register toLowercase) reg).parse toLowercase regex sha256 r
        spelled line = .ok event ∧
      event.srcEndpoint.ip = some src ∧ isIpv4 src.toList = true ∧
      event.dstEndpoint.ip = some dst ∧ isIpv4 dst.toList = true

variable {toLowercase} {regex : RegexCrate} {sha256 : Bytes → Hash} {d : ParserDefinition}
  {lines : List String}

lemma lookup_foldl_register {vendor : String} (others : List ParserDefinition)
    (hothers : ∀ other ∈ others, toLowercase other.vendor ≠ toLowercase vendor)
    (reg : DynamicParserRegistry) :
    (others.foldl (register toLowercase) reg).parsers.lookup (toLowercase vendor) =
      reg.parsers.lookup (toLowercase vendor) := by
  induction others generalizing reg with
  | nil => rfl
  | cons other others ih =>
    rw [List.forall_mem_cons] at hothers
    rw [List.foldl_cons, ih hothers.2, register, AList.lookup_insert_ne hothers.1.symm]

lemma serves_register (h : ∀ line ∈ lines, d.Reads regex sha256 line)
    (reg : DynamicParserRegistry) :
    (reg.register toLowercase d).Serves toLowercase regex sha256 d.vendor lines := by
  intro others hothers spelled hspelled line hline r
  obtain ⟨event, src, dst, hparse, -, haddresses⟩ := h line hline r
  refine ⟨event, src, dst, ?_, haddresses⟩
  have hlookup := lookup_foldl_register others hothers (reg.register toLowercase d)
  rw [register, AList.lookup_insert] at hlookup
  unfold parse
  rw [hspelled, register, hlookup]
  exact hparse

end DynamicParserRegistry

end Ulpf.Ai

namespace Ulpf.Cli
open Ulpf.Core Ulpf.Ai Ulpf.Ai.Onboarder Ulpf.Library
open Ulpf.Integrity (Bytes Hash sha2)

/-! ### The command -/

/-- The end of an `fs::write`; a failed one may leave anything in the file. -/
inductive WriteOutcome where
  | written
  | failed (left : Option Text)

/-- What the sample path leads to. -/
inductive SampleFile where
  | missing
  | unopened
  | opened (contents : List UInt8)

structure OnboardArgs where
  sample : SampleFile
  vendor : String
  model : String

/-- What a run of the command reads from its surroundings. -/
structure OnboardEnv where
  nowMs : Int64
  dirCreated : Bool
  jsonOutcome : WriteOutcome
  yamlOutcome : WriteOutcome
  readings : Readings

inductive OnboardError where
  | sampleNotFound
  | openSample
  | needMoreSamples (found : ℕ)
  | generate (err : String)
  | createDir
  | toJson
  | write
  | testEvent (err : String)

structure Onboarded where
  parserDef : ParserDefinition
  report : ValidationReport
  testEvent : NetworkActivity

/-- The trimmed lines that are not blank, as far as the file is UTF-8, at most ten of them. -/
def sampleLines (sample : List UInt8) : List String :=
  ((readable (nextLines sample)).take 10).map String.ofList

section Command

variable {File : Type*} [DecidableEq File] (fileOf : String → File) (regex : RegexCrate)
  (debug : List String → String) (toLowercase : String → String) (sha256 : Bytes → Hash)
  (toJson : ParserDefinition → Option Text)

def jsonFile (vendor : String) : File := fileOf (toLowercase vendor ++ ".json")

def yamlFile (vendor : String) : File := fileOf (toLowercase vendor ++ ".yaml")

def write (store : File → Option Text) (file : File) (contents : Text) :
    WriteOutcome → Bool × (File → Option Text)
  | .written => (true, Function.update store file (some contents))
  | .failed none => (false, store)
  | .failed (some left) => (false, Function.update store file (some left))

/-- The second half of the command, with a parser in hand. -/
def exportParser (store : File → Option Text) (args : OnboardArgs) (env : OnboardEnv)
    (samples : List String) (parserDef : ParserDefinition) (report : ValidationReport) :
    Except OnboardError Onboarded × (File → Option Text) :=
  if env.dirCreated = false then (.error .createDir, store)
  else
    match toJson parserDef with
    | none => (.error .toJson, store)
    | some json =>
      match write store (jsonFile fileOf toLowercase args.vendor) json env.jsonOutcome with
      | (false, store) => (.error .write, store)
      | (true, store) =>
        match write store (yamlFile fileOf toLowercase args.vendor) parserDef.toYaml
            env.yamlOutcome with
        | (false, store) => (.error .write, store)
        | (true, store) =>
          let registry := DynamicParserRegistry.new.register toLowercase parserDef
          match registry.parse toLowercase regex sha256 env.readings args.vendor
              (samples.head?.getD "") with
          | .error err => (.error (.testEvent err), store)
          | .ok testEvent => (.ok ⟨parserDef, report, testEvent⟩, store)

def runOnboard (store : File → Option Text) (args : OnboardArgs) (env : OnboardEnv) :
    Except OnboardError Onboarded × (File → Option Text) :=
  match args.sample with
  | .missing => (.error .sampleNotFound, store)
  | .unopened => (.error .openSample, store)
  | .opened sample =>
    let samples := sampleLines sample
    if samples.length < 3 then (.error (.needMoreSamples samples.length), store)
    else
      match generateParser regex debug env.nowMs args.vendor args.model samples with
      | .error err => (.error (.generate err), store)
      | .ok (parserDef, report) =>
        exportParser fileOf regex toLowercase sha256 toJson store args env samples parserDef report

/-- The output directory after one run of the command after the other. -/
def onboardAll (store : File → Option Text) (runs : List (OnboardArgs × OnboardEnv)) :
    File → Option Text :=
  runs.foldl (fun store p =>
    (runOnboard fileOf regex debug toLowercase sha256 toJson store p.1 p.2).2) store

end Command

/-! ### The sample lines -/

lemma trim_of_mem_sampleLines {sample : List UInt8} {line : String}
    (h : line ∈ sampleLines sample) :
    trim line.toList = line.toList ∧ '\n' ∉ line.toList := by
  obtain ⟨text, htext, rfl⟩ := List.mem_map.mp h
  obtain ⟨full, hfull, rfl, -⟩ := mem_readable (List.mem_of_mem_take htext)
  rw [String.toList_ofList]
  exact ⟨strip_eq_self (bare_strip full), fun hmem =>
    newline_notMem_of_nextLines hfull (strip_subset full hmem)⟩

/-! ### What the command writes -/

section Runs

variable {File : Type*} [DecidableEq File] {fileOf : String → File} {regex : RegexCrate}
  {debug : List String → String} {toLowercase : String → String} {sha256 : Bytes → Hash}
  {toJson : ParserDefinition → Option Text} {store : File → Option Text}

/-- The run gets as far as writing its parser. -/
structure Exports (regex : RegexCrate) (debug : List String → String)
    (toJson : ParserDefinition → Option Text) (p : OnboardArgs × OnboardEnv) (sample : List UInt8)
    (d : ParserDefinition) (json : Text) : Prop where
  sample_eq : p.1.sample = .opened sample
  generated : ∃ report, generateParser regex debug p.2.nowMs p.1.vendor p.1.model
    (sampleLines sample) = .ok (d, report)
  dirCreated : p.2.dirCreated = true
  json_eq : toJson d = some json

/-- The write did something to its file. -/
def WriteOutcome.Touches : WriteOutcome → Prop
  | .failed none => False
  | _ => True

/-- The export writes to the file, if the run gets there; without the JSON file it writes no
YAML. -/
def Writes (fileOf : String → File) (toLowercase : String → String)
    (p : OnboardArgs × OnboardEnv) (file : File) : Prop :=
  (p.2.jsonOutcome.Touches ∧ file = jsonFile fileOf toLowercase p.1.vendor) ∨
    p.2.jsonOutcome = .written ∧ p.2.yamlOutcome.Touches ∧
      file = yamlFile fileOf toLowercase p.1.vendor

lemma write_frame {store store' : File → Option Text} {file other : File} {contents : Text}
    {outcome : WriteOutcome} {ok : Bool}
    (hwrite : write store file contents outcome = (ok, store'))
    (h : outcome.Touches → other ≠ file) : store' other = store other := by
  cases outcome with
  | written =>
    cases hwrite
    exact Function.update_of_ne (h trivial) _ _
  | failed left =>
    cases left with
    | none =>
      cases hwrite
      rfl
    | some left =>
      cases hwrite
      exact Function.update_of_ne (h trivial) _ _

lemma written_of_write {store store' : File → Option Text} {file : File} {contents : Text}
    {outcome : WriteOutcome} (h : write store file contents outcome = (true, store')) :
    outcome = .written := by
  cases outcome with
  | written => rfl
  | failed left => cases left <;> cases h

lemma exportParser_frame {args : OnboardArgs} {env : OnboardEnv} {d : ParserDefinition}
    {file : File} (h : env.dirCreated = true → ∀ json, toJson d = some json →
      ¬Writes fileOf toLowercase (args, env) file)
    (samples : List String) (report : ValidationReport) :
    (exportParser fileOf regex toLowercase sha256 toJson store args env samples d report).2 file =
      store file := by
  unfold exportParser
  split_ifs with hdir
  · rfl
  · cases hjson : toJson d with
    | none => rfl
    | some json =>
      have hspared := h (by simpa using hdir) json hjson
      have hjsonFile : env.jsonOutcome.Touches → file ≠ jsonFile fileOf toLowercase args.vendor :=
        fun htouches hfile => hspared (Or.inl ⟨htouches, hfile⟩)
      dsimp only
      split
      · next hwrite => exact write_frame hwrite hjsonFile
      · next hwrite =>
        have hfirst := write_frame hwrite hjsonFile
        have hyamlFile : env.yamlOutcome.Touches →
            file ≠ yamlFile fileOf toLowercase args.vendor :=
          fun htouches hfile => hspared (Or.inr ⟨written_of_write hwrite, htouches, hfile⟩)
        split
        · next hwrite' => exact (write_frame hwrite' hyamlFile).trans hfirst
        · next hwrite' =>
          have hboth := (write_frame hwrite' hyamlFile).trans hfirst
          split <;> exact hboth

lemma runOnboard_frame (p : OnboardArgs × OnboardEnv) {file : File}
    (h : ∀ sample d json, Exports regex debug toJson p sample d json →
      ¬Writes fileOf toLowercase p file) :
    (runOnboard fileOf regex debug toLowercase sha256 toJson store p.1 p.2).2 file =
      store file := by
  unfold runOnboard
  split
  · rfl
  · rfl
  · next sample hsample =>
    dsimp only
    split_ifs with hfew
    · rfl
    · split
      · rfl
      · next d report hgenerated =>
        exact exportParser_frame (fun hdir json hjson =>
          h sample d json ⟨hsample, ⟨report, hgenerated⟩, hdir, hjson⟩) _ report

lemma onboardAll_append_cons (before : List (OnboardArgs × OnboardEnv))
    (p : OnboardArgs × OnboardEnv) (after : List (OnboardArgs × OnboardEnv)) :
    onboardAll fileOf regex debug toLowercase sha256 toJson store (before ++ p :: after) =
      onboardAll fileOf regex debug toLowercase sha256 toJson
        (runOnboard fileOf regex debug toLowercase sha256 toJson
          (onboardAll fileOf regex debug toLowercase sha256 toJson store before) p.1 p.2).2
        after := by
  rw [onboardAll, List.foldl_append]
  rfl

variable (fileOf sha256 store) in
lemma onboardAll_frame {runs : List (OnboardArgs × OnboardEnv)} {file : File}
    (h : ∀ p ∈ runs, ∀ sample d json, Exports regex debug toJson p sample d json →
      ¬Writes fileOf toLowercase p file) :
    onboardAll fileOf regex debug toLowercase sha256 toJson store runs file = store file := by
  induction runs generalizing store with
  | nil => rfl
  | cons p runs ih =>
    rw [List.forall_mem_cons] at h
    exact (ih _ h.2).trans (runOnboard_frame p h.1)

variable (fileOf toLowercase sha256 store) in
/-- A run whose writes succeed ends well: its test event cannot fail. -/
lemma runOnboard_of_exports {p : OnboardArgs × OnboardEnv} {sample : List UInt8}
    {d : ParserDefinition} {json : Text} (h : Exports regex debug toJson p sample d json)
    (hjson : p.2.jsonOutcome = .written) (hyaml : p.2.yamlOutcome = .written) :
    ∃ onboarded, runOnboard fileOf regex debug toLowercase sha256 toJson store p.1 p.2 =
      (.ok onboarded, Function.update
        (Function.update store (jsonFile fileOf toLowercase p.1.vendor) (some json))
        (yamlFile fileOf toLowercase p.1.vendor) (some d.toYaml)) ∧ onboarded.parserDef = d := by
  obtain ⟨report, hgenerated⟩ := h.generated
  obtain ⟨hlength, -, -, pattern, hd⟩ := generateParser_eq_ok hgenerated
  have hvendor : d.vendor = p.1.vendor := by
    rw [hd]
    rfl
  have hne : sampleLines sample ≠ [] := List.ne_nil_of_length_pos (by omega)
  obtain ⟨first, rest, hlines⟩ := List.exists_cons_of_ne_nil hne
  have hmem : first ∈ sampleLines sample := hlines ▸ List.mem_cons_self
  obtain ⟨event, -, -, hparse, -⟩ := ParserDefinition.reads_of_generateParser sha256
    hgenerated hmem (trim_of_mem_sampleLines hmem).1 p.2.readings
  have htest : (DynamicParserRegistry.new.register toLowercase d).parse toLowercase regex sha256
      p.2.readings p.1.vendor first = .ok event := by
    rw [DynamicParserRegistry.parse_register toLowercase (congrArg toLowercase hvendor.symm)]
    exact hparse
  have hfirst : (sampleLines sample).head?.getD "" = first := by
    rw [hlines]
    rfl
  refine ⟨⟨d, report, event⟩, ?_, rfl⟩
  unfold runOnboard
  rw [h.sample_eq]
  dsimp only
  rw [if_neg (by omega), hgenerated]
  dsimp only
  rw [exportParser, if_neg (by simp [h.dirCreated]), h.json_eq, hjson, hyaml]
  simp only [write]
  rw [hfirst, htest]

/-! ### A firewall -/

/-- `serde_json::to_string_pretty` on a definition without control characters, with the score 1. -/
def prettyJson (d : ParserDefinition) : Text :=
  let quoted (s : String) : Text :=
    ['"'] ++ replaceChar '"' "\\\"" (replaceChar '\\' "\\\\" s.toList) ++ ['"']
  let rows (rows : List Text) : Text := List.intercalate ",\n    ".toList rows
  "\x7b\n  \"vendor\": ".toList ++ quoted d.vendor ++
    ",\n  \"device_model\": ".toList ++ quoted d.deviceModel ++
    ",\n  \"regex_pattern\": ".toList ++ quoted d.regexPattern ++
    ",\n  \"action_mappings\": \x7b\n    ".toList ++
    rows (d.actionMappings.entries.map fun e => quoted e.1 ++ ": ".toList ++ quoted e.2) ++
    "\n  \x7d,\n  \"sample_logs\": [\n    ".toList ++ rows (d.sampleLogs.map quoted) ++
    "\n  ],\n  \"confidence_score\": 1.0,\n  \"created_at\": ".toList ++ formatI64 d.createdAt ++
    "\n\x7d".toList

def firewallDef : ParserDefinition :=
  parserDef "Wall" "fw" ((patternOf [.anchor "fw", .ip, .ipPort ':']).regex.text escapeMeta)
    (firewallLines "fw") 0

/-- Three lines of the firewall. -/
def firewallSample : List UInt8 :=
  ("fw 10.0.0.1 10.0.1.1:53\n fw 10.0.0.2 10.0.1.2:53\r\n\n" ++
    "fw 10.0.0.3 10.0.1.3:80").toList.map fun c => c.toNat.toUInt8

def firewallRun (vendor : String) (jsonOutcome : WriteOutcome) : OnboardArgs × OnboardEnv :=
  (⟨.opened firewallSample, vendor, "fw"⟩, ⟨0, true, jsonOutcome, .written, ⟨"", 0, 0⟩⟩)

def asciiLowercase (s : String) : String := String.ofList (s.toList.map Char.toLower)

/-! ### Exported parsers stay -/

/-- The run does not write to the files of the vendor. -/
def Spares (fileOf : String → File) (regex : RegexCrate) (debug : List String → String)
    (toLowercase : String → String) (toJson : ParserDefinition → Option Text) (vendor : String)
    (q : OnboardArgs × OnboardEnv) : Prop :=
  ∀ sample d json, Exports regex debug toJson q sample d json →
    ∀ file ∈ [jsonFile fileOf toLowercase vendor, yamlFile fileOf toLowercase vendor],
      ¬Writes fileOf toLowercase q file

variable (sha256 store) in
lemma onboardAll_spared (before : List (OnboardArgs × OnboardEnv)) (p : OnboardArgs × OnboardEnv)
    {after : List (OnboardArgs × OnboardEnv)}
    (hafter : ∀ q ∈ after, Spares fileOf regex debug toLowercase toJson p.1.vendor q) {file : File}
    (hfile : file ∈
      [jsonFile fileOf toLowercase p.1.vendor, yamlFile fileOf toLowercase p.1.vendor]) :
    onboardAll fileOf regex debug toLowercase sha256 toJson store (before ++ p :: after) file =
      (runOnboard fileOf regex debug toLowercase sha256 toJson
        (onboardAll fileOf regex debug toLowercase sha256 toJson store before) p.1 p.2).2 file := by
  rw [onboardAll_append_cons]
  exact onboardAll_frame fileOf sha256 _ fun q hq sample d json hexports =>
    hafter q hq sample d json hexports file hfile

end Runs

end Ulpf.Cli
