import Ulpf.Ai.Laya
import Ulpf.Ai.Onboarder
import Ulpf.Ai.Pipeline

/-!
# The triage worker

The worker of the pipeline takes one task after the other, classifies its sample line and hands
confident ones to the onboarder. It hands over the one sample of the task, and the onboarder
refuses less than three: no run of the worker registers a parser.
-/

namespace Ulpf.Ai
open Ulpf.Core
open Ulpf.Integrity (Bytes Hash)
open Ulpf.Library.Binary64
open LayaDecisionEngine Onboarder

/-! ### The registry -/

structure DynamicParserRegistry where
  parsers : AList fun _ : String => ParserDefinition

namespace DynamicParserRegistry

variable (toLowercase : String → String)

def new : DynamicParserRegistry := ⟨∅⟩

/-- Register a new parser definition dynamically -/
def register (reg : DynamicParserRegistry) (parser : ParserDefinition) : DynamicParserRegistry :=
  ⟨reg.parsers.insert (toLowercase parser.vendor) parser⟩

/-- Parse a log line with a registered dynamic parser -/
def parse (regex : RegexCrate) (sha256 : Bytes → Hash) (r : Readings)
    (reg : DynamicParserRegistry) (vendor raw : String) : Except String NetworkActivity :=
  match reg.parsers.lookup (toLowercase vendor) with
  | some parser => parser.parse regex sha256 r raw
  | none => .error ("No dynamic parser registered for vendor \x27" ++ vendor ++ "\x27")

lemma parse_register {regex : RegexCrate} {sha256 : Bytes → Hash} {r : Readings}
    {reg : DynamicParserRegistry} {parser : ParserDefinition} {vendor raw : String}
    (h : toLowercase vendor = toLowercase parser.vendor) :
    (reg.register toLowercase parser).parse toLowercase regex sha256 r vendor raw =
      parser.parse regex sha256 r raw := by
  unfold parse register
  rw [h, AList.lookup_insert]

end DynamicParserRegistry

/-! ### The worker -/

/-- The registry and the counter that the worker shares with the pipeline. -/
structure TriageWorker where
  registry : DynamicParserRegistry
  tier3LayaOnboarded : UInt64

namespace TriageWorker

section Worker

variable (exp : ℚ → ℚ) (regex : RegexCrate) (debug : List String → String)
  (toLowercase : String → String)

def start : TriageWorker := ⟨.new, 0⟩

/-- Calibrated Confidence Gating (P >= 0.85) -/
def confidenceGate : ℚ := nearest (85 / 100)

def vendorChoice (task : AsyncTriageTask) : LayaChoice := classifyVendor exp task.sampleLog.toList

def deviceModel (task : AsyncTriageTask) : String := "cluster-" ++ toString task.clusterId

/-- One round of the loop; `nowMs` is the clock of the onboarder. -/
def step (w : TriageWorker) (task : AsyncTriageTask) (nowMs : Int64) : TriageWorker :=
  let vendorChoice := vendorChoice exp task
  if confidenceGate ≤ vendorChoice.probability then
    match generateParser regex debug nowMs vendorChoice.label (deviceModel task)
      [task.sampleLog] with
    | .ok (parserDef, report) =>
      if report.passed then
        ⟨w.registry.register toLowercase parserDef, w.tier3LayaOnboarded + 1⟩
      else w
    | .error _ => w
  else w

def run (w : TriageWorker) (tasks : List (AsyncTriageTask × Int64)) : TriageWorker :=
  tasks.foldl (fun w (task, nowMs) => w.step exp regex debug toLowercase task nowMs) w

/-- The parser that is synthesized for the sample of a task. -/
def synthesized (task : AsyncTriageTask) (pattern : String) (nowMs : Int64) : ParserDefinition :=
  parserDef (vendorChoice exp task).label (deviceModel task) pattern [task.sampleLog] nowMs

/-- The classification is confident, and validation accepts the pattern that is synthesized. -/
def Onboardable (task : AsyncTriageTask) (pattern : String) (nowMs : Int64) : Prop :=
  confidenceGate ≤ (vendorChoice exp task).probability ∧
    synthesizeRegex regex task.sampleLog [task.sampleLog] = .ok pattern ∧
    ∃ report, validateParser regex (synthesized exp task pattern nowMs) [task.sampleLog] =
      .ok report ∧ report.passed = true

/-- From `w` to `w'` the parser is registered under the chosen vendor and counted. -/
def Onboards (w w' : TriageWorker) (task : AsyncTriageTask) (pattern : String) (nowMs : Int64) :
    Prop :=
  w'.registry.parsers.lookup (toLowercase (vendorChoice exp task).label) =
      some (synthesized exp task pattern nowMs) ∧
    w'.tier3LayaOnboarded = w.tier3LayaOnboarded + 1

variable {exp regex debug toLowercase}

lemma step_eq_self (w : TriageWorker) (task : AsyncTriageTask) (nowMs : Int64) :
    w.step exp regex debug toLowercase task nowMs = w := by
  unfold step
  have hfew : [task.sampleLog].length < 3 := by simp
  obtain ⟨err, herr⟩ := generateParser_eq_error regex debug nowMs (vendorChoice exp task).label
    (deviceModel task) hfew
  dsimp only
  rw [herr]
  split_ifs
  · rfl
  · rfl

variable (exp regex debug toLowercase)

/-- No task is onboarded, whatever the classifier and the onboarder say about its sample. -/
theorem never_onboards (w : TriageWorker) (task : AsyncTriageTask) (pattern : String)
    (nowMs : Int64) :
    ¬Onboards exp toLowercase w (w.step exp regex debug toLowercase task nowMs) task pattern
      nowMs := by
  rintro ⟨-, hcount⟩
  rw [step_eq_self] at hcount
  have hnat := congrArg UInt64.toNat hcount
  rw [UInt64.toNat_add, UInt64.toNat_one] at hnat
  have hlt := w.tier3LayaOnboarded.toNat_lt
  omega

/-- The worker leaves the registry empty in every run. -/
theorem run_eq_self (w : TriageWorker) (tasks : List (AsyncTriageTask × Int64)) :
    w.run exp regex debug toLowercase tasks = w := by
  induction tasks with
  | nil => rfl
  | cons call tasks ih =>
    have hstep : w.run exp regex debug toLowercase (call :: tasks) =
        (w.step exp regex debug toLowercase call.1 call.2).run exp regex debug toLowercase tasks :=
      rfl
    rw [hstep, step_eq_self, ih]

end Worker

/-! ### A confident task -/

def keyedSample : String := "devname=a srcip=1.1.1.1 dstip=2.2.2.2"

def keyedTask : AsyncTriageTask := ⟨7, keyedSample, keyedSample, 0⟩

/-- The exponential of the two scores that occur. -/
def keyedExp (x : ℚ) : ℚ := if x = 15 / 2 then nearest (18080424144560632 / 10000000000000) else 1

def srcIpKey : String := r"\b(?:src|srcip|saddr)="
def dstIpKey : String := r"\b(?:dst|dstip|daddr)="

def keyedPattern : String :=
  r"^.*?\b(?:src|srcip|saddr)=(?P<src_ip>(?:\d{1,3}\.){3}\d{1,3}).*?\b(?:dst|dstip|daddr)=(?P<dst_ip>(?:\d{1,3}\.){3}\d{1,3}).*$"

/-- The first match of an expression in the sample, for the expressions that match it. -/
def keyedCaptures (pattern : String) : Option Match :=
  if pattern = srcIpKey then some ⟨10, fun _ => none⟩
  else if pattern = dstIpKey then some ⟨24, fun _ => none⟩
  else if pattern = keyedPattern then
    some ⟨0, ([("src_ip", "1.1.1.1"), ("dst_ip", "2.2.2.2")].lookup ·)⟩
  else none

/-- The `regex` crate on the sample. -/
def keyedRegex (pattern : String) : CompiledRegex where
  captureNames := if pattern = keyedPattern then ["src_ip", "dst_ip"] else []
  captures line := if line = keyedSample then keyedCaptures pattern else none

def keyedCrate : RegexCrate := ⟨fun pattern => some (keyedRegex pattern), id⟩

lemma confident_keyed : confidenceGate ≤ (vendorChoice keyedExp keyedTask).probability := by
  decide +kernel

lemma synthesizeRegex_keyed :
    synthesizeRegex keyedCrate keyedSample [keyedSample] = .ok keyedPattern := by
  decide +kernel

lemma samplePasses_keyed : SamplePasses (keyedRegex keyedPattern) keyedSample := by
  have htrim : String.ofList (trim keyedSample.toList) = keyedSample := by decide +kernel
  rw [SamplePasses, htrim]
  refine ⟨by decide +kernel, ⟨0, ([("src_ip", "1.1.1.1"), ("dst_ip", "2.2.2.2")].lookup ·)⟩, ?_, ?_⟩
  · have hsrc : keyedPattern ≠ srcIpKey := by decide +kernel
    have hdst : keyedPattern ≠ dstIpKey := by decide +kernel
    rw [keyedRegex, keyedCaptures]
    dsimp only
    rw [if_pos rfl, if_neg hsrc, if_neg hdst, if_pos rfl]
  · exact ⟨⟨"1.1.1.1", rfl, by decide +kernel⟩, ⟨"2.2.2.2", rfl, by decide +kernel⟩, nofun, nofun⟩

/-- A task that meets every condition and leaves no trace. -/
theorem keyed_task_not_onboarded :
    Onboardable keyedExp keyedCrate keyedTask keyedPattern 0 ∧
      ¬Onboards keyedExp id start (start.step keyedExp keyedCrate (fun _ => "") id keyedTask 0)
        keyedTask keyedPattern 0 := by
  obtain ⟨report, hreport⟩ := exists_report keyedCrate
    (synthesized keyedExp keyedTask keyedPattern 0) rfl [keyedSample]
  have hpassed : report.passed = true := by
    refine (validateParser_passed_iff hreport).mpr ⟨keyedRegex keyedPattern, rfl, ?_⟩
    intro sample hsample
    rw [List.mem_singleton.mp hsample]
    exact samplePasses_keyed
  refine ⟨⟨confident_keyed, synthesizeRegex_keyed, report, hreport, hpassed⟩, ?_⟩
  rintro ⟨-, hcount⟩
  rw [step_eq_self] at hcount
  exact absurd hcount (by decide)

end TriageWorker

end Ulpf.Ai
