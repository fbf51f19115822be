import Ulpf.Core.Extractors.CiscoAsa
import Ulpf.Core.Extractors.Fortigate
import Ulpf.Core.Extractors.Kaggle
import Ulpf.Core.Extractors.PaloAlto
import Ulpf.Core.Extractors.PfSense
import Ulpf.Core.Extractors.Suricata
import Ulpf.Core.UniversalParser
import Ulpf.Integrity.Hash

/-!
# The events of the universal parser

The six extractors and the stamp of the parser, with an activity of `none` where an extractor
panics. Every event carries its line, the digest of its line and consistent OCSF identifiers.
-/

namespace Ulpf.Core
open Ulpf.Integrity (Bytes Hash asBytes)

/-- What the parser takes from other crates and from the Unicode tables. -/
structure Runtime where
  sha256 : Bytes → Hash
  isAlphanumeric : Char → Bool
  chrono : Chrono
  json : SerdeJson
  captures : RegexEngine

/-- What one call reads from the id generator and the wall clock. -/
structure Readings where
  eventId : String
  ingestTime : Int64
  nowMs : Int64

variable (rt : Runtime) (r : Readings)

/-- Computes hex-encoded SHA-256 digest of input bytes -/
def computeSha256 (bytes : Bytes) : String := (rt.sha256 bytes).toHex

/-- The metadata that `parse` and `parse_with_format` overwrite. -/
def stampMetadata (raw : String) (activity : NetworkActivity) : NetworkActivity :=
  { activity with
    metadata := { activity.metadata with
      rawData := raw
      rawHash := computeSha256 rt (asBytes raw)
      eventId := r.eventId
      ingestTime := r.ingestTime } }

/-- The normalized event of a line that could not be parsed. -/
def unparsedEvent (raw err : String) : NetworkActivity :=
  let product := ⟨"Unknown", "Generic / Unparsed", none⟩
  let metadata := ⟨product, raw, computeSha256 rt (asBytes raw), r.eventId, r.nowMs⟩
  (NetworkActivity.new activityIdOther r.nowMs dispositionUnknown {} {} {} none
    metadata).withUnmapped (Finmap.insert "parse_error" err ∅)

/-- The extractors of `UniversalParser`; only the FortiGate one can panic. -/
def universalParser : Extractors (Option NetworkActivity) where
  ciscoAsa raw := (CiscoAsaExtractor.parse rt.captures r.nowMs raw).map some
  fortigate raw := .ok (FortigateExtractor.parse rt.isAlphanumeric rt.chrono r.nowMs raw)
  paloalto raw := (PaloAltoExtractor.parse rt.chrono r.nowMs raw).map some
  suricata raw := (SuricataExtractor.parse rt.json rt.chrono r.nowMs raw).map some
  pfsense raw := (PfSenseExtractor.parse r.nowMs raw).map some
  kaggle raw := (KaggleExtractor.parse r.nowMs raw).map some
  stamp raw := Option.map (stampMetadata rt r raw)
  unparsed raw err := some (unparsedEvent rt r raw err)

/-! ### The envelope -/

/-- The event preserves its line and the digest of its line, and is consistently classed. -/
structure Enveloped (raw : String) (activity : NetworkActivity) : Prop
    extends activity.WellClassed where
  rawData : activity.metadata.rawData = raw
  rawHash : activity.metadata.rawHash = (rt.sha256 (asBytes raw)).toHex

variable {rt r}

lemma enveloped_stampMetadata {activity : NetworkActivity} (h : activity.WellClassed)
    (raw : String) : Enveloped rt raw (stampMetadata rt r raw activity) where
  categoryUid := h.categoryUid
  classUid := h.classUid
  typeUid := h.typeUid
  activityName := h.activityName
  activityId := h.activityId
  rawData := rfl
  rawHash := rfl

lemma metadata_withUnmapped (activity : NetworkActivity) (unmapped : FieldMap) :
    (activity.withUnmapped unmapped).metadata = activity.metadata := by
  unfold NetworkActivity.withUnmapped
  split_ifs <;> rfl

lemma srcEndpoint_withUnmapped (activity : NetworkActivity) (unmapped : FieldMap) :
    (activity.withUnmapped unmapped).srcEndpoint = activity.srcEndpoint := by
  unfold NetworkActivity.withUnmapped
  split_ifs <;> rfl

lemma dstEndpoint_withUnmapped (activity : NetworkActivity) (unmapped : FieldMap) :
    (activity.withUnmapped unmapped).dstEndpoint = activity.dstEndpoint := by
  unfold NetworkActivity.withUnmapped
  split_ifs <;> rfl

lemma enveloped_unparsedEvent (raw err : String) :
    Enveloped rt raw (unparsedEvent rt r raw err) where
  toWellClassed := (NetworkActivity.wellClassed_new (by decide)).withUnmapped _
  rawData := by
    unfold unparsedEvent
    rw [metadata_withUnmapped]
    rfl
  rawHash := by
    unfold unparsedEvent
    rw [metadata_withUnmapped]
    rfl

lemma wellClassed_extract {format : VendorFormat} {raw : String} {activity : NetworkActivity}
    (h : (universalParser rt r).extract format raw = .ok (some activity)) :
    activity.WellClassed := by
  have hmap : ∀ {result : Except String NetworkActivity},
      result.map some = .ok (some activity) → result = .ok activity := by
    rintro (err | found) heq
    · cases heq
    · cases heq
      rfl
  cases format <;> dsimp only [Extractors.extract, universalParser] at h
  case ciscoAsa => exact CiscoAsaExtractor.wellClassed_parse (hmap h)
  case fortinet => exact FortigateExtractor.wellClassed_parse (Except.ok.inj h)
  case paloAlto => exact PaloAltoExtractor.wellClassed_parse (hmap h)
  case suricata => exact SuricataExtractor.wellClassed_parse (hmap h)
  case pfSense => exact PfSenseExtractor.wellClassed_parse (hmap h)
  case kaggleFirewall => exact KaggleExtractor.wellClassed_parse (hmap h)
  case unknown => cases h

lemma ensures_enveloped :
    (universalParser rt r).Ensures fun raw activity =>
      ∀ event ∈ activity, Enveloped rt raw event where
  stamp := by
    intro raw format activity hextract event hevent
    obtain ⟨found, hfound, rfl⟩ := Option.map_eq_some_iff.mp hevent
    rw [hfound] at hextract
    exact enveloped_stampMetadata (wellClassed_extract hextract) raw
  unparsed := by
    rintro raw err event ⟨⟩
    exact enveloped_unparsedEvent raw err

/-! ### Errors and panics -/

variable (rt)

/-- The lines on which the extractor of a format gives up with an error. -/
def Malformed (raw : String) : VendorFormat → Prop
  | .ciscoAsa => rt.captures CiscoAsaExtractor.regexAsaHeader raw = none
  | .fortinet => False
  | .paloAlto => (splitCsv (PaloAltoExtractor.stripSyslogPrefix raw.toList)).length < 10
  | .suricata => Fails (rt.json.fromStr (String.ofList (SuricataExtractor.jsonSlice raw.toList)))
  | .pfSense => (splitCsv (PfSenseExtractor.csvPart raw.toList)).length < 9
  | .kaggleFirewall => KaggleExtractor.ShortRow (trim raw.toList)
  | .unknown => True

variable (r)

lemma fails_extract_iff {format : VendorFormat} {raw : String} :
    Fails ((universalParser rt r).extract format raw) ↔ Malformed rt raw format := by
  cases format <;> dsimp only [Extractors.extract, universalParser, Malformed]
  case ciscoAsa => exact fails_map_iff.trans CiscoAsaExtractor.fails_parse_iff
  case fortinet => exact iff_of_false (not_fails_ok _) id
  case paloAlto => exact fails_map_iff.trans PaloAltoExtractor.fails_parse_iff
  case suricata => exact fails_map_iff.trans SuricataExtractor.fails_parse_iff
  case pfSense => exact fails_map_iff.trans PfSenseExtractor.fails_parse_iff
  case kaggleFirewall => exact fails_map_iff.trans KaggleExtractor.fails_parse_iff
  case unknown => exact iff_of_true (fails_error _) trivial

/-- A FortiGate line with a key after a separator of several bytes, where the slice panics. -/
def Panics (format : VendorFormat) (raw : String) : Prop :=
  format = .fortinet ∧ ¬KvTokenizer.KeysSliceable raw

lemma map_some_ne_panic {result : Except String NetworkActivity} :
    result.map some ≠ .ok none := by
  rintro h
  cases result with
  | error err => cases h
  | ok activity => cases h

lemma extract_eq_panic_iff (format : VendorFormat) (raw : String) :
    (universalParser rt r).extract format raw = .ok none ↔ Panics format raw := by
  cases format <;> dsimp only [Extractors.extract, universalParser, Panics]
  case fortinet =>
    have hparse : (FortigateExtractor.parse rt.isAlphanumeric rt.chrono r.nowMs raw).isSome ↔
        KvTokenizer.KeysSliceable raw := FortigateExtractor.isSome_parse_iff
    rw [← hparse]
    simp
  case unknown => exact iff_of_false nofun nofun
  all_goals exact iff_of_false map_some_ne_panic nofun

lemma not_panics_unknown {raw : String} : ¬Panics .unknown raw := nofun

variable {rt r}

/-! ### Which calls return -/

variable (rt r) in
lemma isSome_lossless_iff (format : VendorFormat) (raw : String) :
    (lossless (universalParser rt r) raw
      (parseWithFormat (universalParser rt r) raw format)).isSome ↔ ¬Panics format raw := by
  rw [parseWithFormat_eq, ← extract_eq_panic_iff rt r]
  rcases (universalParser rt r).extract format raw with err | - | event
  · exact iff_of_true rfl nofun
  · exact iff_of_false nofun (not_not_intro rfl)
  · exact iff_of_true rfl nofun

lemma isSome_parseLossless_iff {raw : String} :
    (parseLossless (universalParser rt r) raw).isSome ↔ ¬Panics (classify raw) raw := by
  rw [parseLossless_eq, isSome_lossless_iff]

lemma parseCachedLossless_returns_iff {cache : SignatureLruCache} {raw : String} :
    (∃ event cache', parseCachedLossless (universalParser rt r) cache raw =
        some (some event, cache')) ↔
      SignatureSliceable raw ∧ ¬Panics (routedFormat cache raw) raw := by
  rw [parseCachedLossless_eq, ← isSome_computeSignatureHash_iff,
    ← isSome_parseCached_iff (universalParser rt r) cache, ← isSome_lossless_iff rt r]
  constructor
  · rintro ⟨event, cache', h⟩
    obtain ⟨⟨result, counted⟩, hcached, heq⟩ := Option.map_eq_some_iff.mp h
    have hevent : lossless (universalParser rt r) raw result = some event :=
      congrArg Prod.fst heq
    rw [parseCached_routed _ hcached] at hevent
    exact ⟨by rw [hcached, Option.isSome_some], by rw [hevent, Option.isSome_some]⟩
  · rintro ⟨hcached, hlossless⟩
    obtain ⟨⟨result, cache'⟩, hcached⟩ := Option.isSome_iff_exists.mp hcached
    obtain ⟨event, hevent⟩ := Option.isSome_iff_exists.mp hlossless
    refine ⟨event, cache', ?_⟩
    rw [hcached, Option.map_some, parseCached_routed _ hcached, hevent]

end Ulpf.Core
