import Ulpf.Ai.Pipeline
import Ulpf.Core.NetworkEvents

/-!
# The lossless envelope

Every event of the parser and of the pipeline carries its line, the digest of its line and
consistent OCSF identifiers. The three lossless entry points return one for every line, unless a
slice of the signature or of a FortiGate key falls inside a character.
-/

namespace Ulpf.Ai
open Ulpf.Library Ulpf.Core

variable {Miner : Type*} (rt : Runtime) (r : Readings)
  (addLog : Miner → String → ClusterResult × Miner)

/-- Every event that an entry point returns is in the envelope, and the lossless entry points
return one. -/
structure LosslessEnvelope (p : TieredPipeline Miner) (call : ProcessCall) : Prop where
  parse : ∀ event, Core.parse (universalParser rt r) call.raw = .ok (some event) →
    Enveloped rt call.raw event
  parseWithFormat : ∀ format event,
    Core.parseWithFormat (universalParser rt r) call.raw format = .ok (some event) →
      Enveloped rt call.raw event
  parseCached : ∀ event cache,
    Core.parseCached (universalParser rt r) p.cache call.raw = some (.ok (some event), cache) →
      Enveloped rt call.raw event
  parseLossless : ∀ event, Core.parseLossless (universalParser rt r) call.raw = some event →
    Enveloped rt call.raw event
  parseCachedLossless : ∀ event cache,
    Core.parseCachedLossless (universalParser rt r) p.cache call.raw = some (some event, cache) →
      Enveloped rt call.raw event
  process : ∀ event p', p.process (universalParser rt r) addLog call = some (some event, p') →
    Enveloped rt call.raw event
  lossless : ∃ event, Core.parseLossless (universalParser rt r) call.raw = some event
  cachedLossless : ∃ event cache,
    Core.parseCachedLossless (universalParser rt r) p.cache call.raw = some (some event, cache)
  processed : ∃ event p', p.process (universalParser rt r) addLog call = some (some event, p')

variable {rt r addLog}

/-! ### Which calls return -/

/-- On an error the pipeline classifies the line anew, so a second extractor may panic. -/
lemma isSome_parseWithFormat_iff {format : VendorFormat} {raw : String} :
    (TieredPipeline.parseWithFormat (universalParser rt r) raw format).isSome ↔
      ¬Panics format raw ∧ (Malformed rt raw format → ¬Panics (classify raw) raw) := by
  unfold TieredPipeline.parseWithFormat
  rw [parseWithFormat_eq, ← extract_eq_panic_iff rt r, ← fails_extract_iff rt r]
  rcases (universalParser rt r).extract format raw with err | - | event
  · exact isSome_parseLossless_iff.trans
      ⟨fun h => ⟨nofun, fun _ => h⟩, fun h => h.2 (fails_error err)⟩
  · exact iff_of_false nofun fun h => h.1 rfl
  · exact iff_of_true rfl ⟨nofun, fun h => absurd h (not_fails_ok _)⟩

lemma process_returns_iff {p : TieredPipeline Miner} {call : ProcessCall} :
    (∃ event p', p.process (universalParser rt r) addLog call = some (some event, p')) ↔
      SignatureSliceable call.raw ∧ ¬Panics (routedFormat p.cache call.raw) call.raw ∧
        (Malformed rt call.raw (routedFormat p.cache call.raw) →
          ¬Panics (classify call.raw) call.raw) := by
  rw [← isSome_computeSignatureHash_iff, ← isSome_parseWithFormat_iff (r := r),
    ← TieredPipeline.isSome_process_iff (universalParser rt r) addLog p]
  constructor
  · rintro ⟨event, p', h⟩
    refine ⟨by rw [h, Option.isSome_some], ?_⟩
    rw [← TieredPipeline.process_routed h, Option.isSome_some]
  · rintro ⟨hprocess, hparse⟩
    obtain ⟨⟨activity, p'⟩, hprocess⟩ := Option.isSome_iff_exists.mp hprocess
    rw [← TieredPipeline.process_routed hprocess] at hparse
    obtain ⟨event, rfl⟩ := Option.isSome_iff_exists.mp hparse
    exact ⟨event, p', hprocess⟩

/-! ### The envelope -/

/-- The lossless entry points return an event exactly where the slices of the signature and of
FortiGate keys end between two characters; the envelope of the events themselves holds
throughout. -/
theorem lossless_envelope_iff (rt : Runtime) (r : Readings)
    (addLog : Miner → String → ClusterResult × Miner) (p : TieredPipeline Miner)
    (call : ProcessCall) :
    LosslessEnvelope rt r addLog p call ↔
      SignatureSliceable call.raw ∧
        (routedFormat p.cache call.raw = .fortinet ∨ classify call.raw = .fortinet →
          KvTokenizer.KeysSliceable call.raw) := by
  constructor
  · intro h
    obtain ⟨hsliceable, hrouted, -⟩ := process_returns_iff.mp h.processed
    have hclassified : ¬Panics (classify call.raw) call.raw :=
      isSome_parseLossless_iff.mp (Option.isSome_iff_exists.mpr h.lossless)
    refine ⟨hsliceable, ?_⟩
    rintro (hformat | hformat)
    · by_contra hkeys
      exact hrouted ⟨hformat, hkeys⟩
    · by_contra hkeys
      exact hclassified ⟨hformat, hkeys⟩
  · rintro ⟨hsliceable, hkeys⟩
    have hrouted : ¬Panics (routedFormat p.cache call.raw) call.raw :=
      fun hpanics => hpanics.2 (hkeys (Or.inl hpanics.1))
    have hclassified : ¬Panics (classify call.raw) call.raw :=
      fun hpanics => hpanics.2 (hkeys (Or.inr hpanics.1))
    exact {
      parse := fun event hevent => ensures_enveloped.parseWithFormat hevent event rfl
      parseWithFormat := fun format event hevent =>
        ensures_enveloped.parseWithFormat hevent event rfl
      parseCached := fun event cache hevent => ensures_enveloped.parseCached hevent event rfl
      parseLossless := fun event hevent => ensures_enveloped.parseLossless event hevent
      parseCachedLossless := fun event cache hevent =>
        ensures_enveloped.parseCachedLossless hevent event rfl
      process := fun event p' hevent =>
        TieredPipeline.ensures_process ensures_enveloped hevent event rfl
      lossless := Option.isSome_iff_exists.mp (isSome_parseLossless_iff.mpr hclassified)
      cachedLossless := parseCachedLossless_returns_iff.mpr ⟨hsliceable, hrouted⟩
      processed := process_returns_iff.mpr ⟨hsliceable, hrouted, fun _ => hclassified⟩ }

/-- A line of no known format with a character across byte 96: `parse_lossless` returns its
event, and `parse_cached_lossless` and `process` panic. -/
theorem straddling_line_lost :
    let raw := String.ofList (List.replicate 95 'a' ++ ['é'])
    let p : TieredPipeline Unit := TieredPipeline.new ()
    let addLog := fun (m : Unit) (template : String) => ((⟨1, template, true⟩ : ClusterResult), m)
    classify raw = .unknown ∧ ∀ (rt : Runtime) (r : Readings),
      (∃ event, Core.parseLossless (universalParser rt r) raw = some event) ∧
      Core.parseCachedLossless (universalParser rt r) p.cache raw = none ∧
      p.process (universalParser rt r) addLog ⟨raw, 0, true⟩ = none ∧
      ¬LosslessEnvelope rt r addLog p ⟨raw, 0, true⟩ := by
  intro raw p addLog
  have htext : raw.toList = List.replicate 95 'a' ++ ['é'] := String.toList_ofList
  have hunknown : classify raw = .unknown := by
    rw [classify, htext]
    decide +kernel
  have hsig : computeSignatureHash raw = none := by
    rw [computeSignatureHash, htext]
    decide +kernel
  refine ⟨hunknown, fun rt r => ?_⟩
  have hprocess : p.process (universalParser rt r) addLog ⟨raw, 0, true⟩ = none := by
    rw [← Option.not_isSome_iff_eq_none, TieredPipeline.isSome_process_iff, hsig]
    decide
  refine ⟨?_, ?_, hprocess, ?_⟩
  · rw [← Option.isSome_iff_exists, isSome_parseLossless_iff, hunknown]
    exact not_panics_unknown
  · rw [parseCachedLossless_eq, parseCached_of_panic _ hsig, Option.map_none]
  · intro h
    obtain ⟨event, p', hevent⟩ := h.processed
    cases hprocess.symm.trans hevent

end Ulpf.Ai
