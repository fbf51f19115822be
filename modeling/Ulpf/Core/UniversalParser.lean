import Ulpf.Core.LruCache
import Ulpf.Library.Lookaside

/-!
# The universal parser

`parse` classifies every line; `parse_cached` takes the format from the signature cache when
it has one, and classifies and promotes otherwise. Hits agree with the classifier on every
run over a set of lines exactly when the signatures of these lines determine their formats.
-/

namespace Ulpf.Core
open Ulpf.Library

/-- The extractors, the metadata stamp of a parsed line (raw data, digest, event id, ingest
time), and the generic event for a line that could not be parsed, with its error. -/
structure Extractors (Activity : Type*) where
  ciscoAsa : String → Except String Activity
  fortigate : String → Except String Activity
  paloalto : String → Except String Activity
  suricata : String → Except String Activity
  pfsense : String → Except String Activity
  kaggle : String → Except String Activity
  stamp : String → Activity → Activity
  unparsed : String → String → Activity

variable {Activity : Type*} (x : Extractors Activity)

def parseWithFormat (raw : String) (format : VendorFormat) : Except String Activity :=
  let activity := match format with
    | .ciscoAsa => x.ciscoAsa raw
    | .fortinet => x.fortigate raw
    | .paloAlto => x.paloalto raw
    | .suricata => x.suricata raw
    | .pfSense => x.pfsense raw
    | .kaggleFirewall => x.kaggle raw
    | .unknown => .error ("Unrecognized log format for raw line: " ++ raw)
  activity.map (x.stamp raw)

def parse (raw : String) : Except String Activity := parseWithFormat x raw (classify raw)

def parseLossless (raw : String) : Activity :=
  match parse x raw with
  | .ok activity => activity
  | .error err => x.unparsed raw err

def parseCached (cache : SignatureLruCache) (raw : String) :
    Option (Except String Activity × SignatureLruCache) :=
  match computeSignatureHash raw with
  | none => none
  | some sigHash =>
    match cache.get sigHash with
    | (some format, cache) => some (parseWithFormat x raw format, cache)
    | (none, cache) =>
      let format := classify raw
      let cache := if format ≠ .unknown then cache.insert sigHash format else cache
      some (parseWithFormat x raw format, cache)

/-- `parse_cached_lossless` -/
def parseCachedLossless (cache : SignatureLruCache) (raw : String) :
    Option (Activity × SignatureLruCache) :=
  match parseCached x cache raw with
  | none => none
  | some (.ok activity, cache) => some (activity, cache)
  | some (.error err, cache) => some (x.unparsed raw err, cache)

def parseCachedStep (cache : SignatureLruCache) (raw : String) : Option SignatureLruCache :=
  (parseCached x cache raw).map Prod.snd

/-- If the cache holds a format for the line, it is the format the classifier gives it. -/
def HitAgrees (cache : SignatureLruCache) (raw : String) : Prop :=
  ∀ sigHash format, computeSignatureHash raw = some sigHash →
    (cache.get sigHash).1 = some format → format = classify raw

/-- Lines of the set with one signature are classified alike. -/
def SignaturesDetermineFormat (lines : Set String) : Prop :=
  KeysDetermine computeSignatureHash classify lines

lemma hitAgrees_iff (cache : SignatureLruCache) (raw : String) :
    HitAgrees cache raw ↔
      HitsValue SignatureLruCache.peek computeSignatureHash classify cache raw := by
  unfold HitAgrees HitsValue
  simp only [SignatureLruCache.get_fst]

/-! ### One call -/

lemma parseCached_of_hit {cache : SignatureLruCache} {raw : String} {sigHash : UInt64}
    {format : VendorFormat} (hsig : computeSignatureHash raw = some sigHash)
    (hhit : cache.peek sigHash = some format) :
    parseCached x cache raw = some (parseWithFormat x raw format, (cache.get sigHash).2) := by
  have hget : cache.get sigHash = (some format, (cache.get sigHash).2) := by
    rw [← hhit, ← cache.get_fst]
  unfold parseCached
  rw [hsig]
  dsimp only
  rw [hget]

lemma parseCached_of_miss {cache : SignatureLruCache} {raw : String} {sigHash : UInt64}
    (hsig : computeSignatureHash raw = some sigHash) (hmiss : cache.peek sigHash = none) :
    parseCached x cache raw =
      some (parse x raw, (cache.get sigHash).2.promote sigHash (classify raw)) := by
  have hget : cache.get sigHash = (none, (cache.get sigHash).2) := by
    rw [← hmiss, ← cache.get_fst]
  unfold parseCached
  rw [hsig]
  dsimp only
  rw [hget]
  rfl

lemma parseCached_of_panic {cache : SignatureLruCache} {raw : String}
    (hsig : computeSignatureHash raw = none) : parseCached x cache raw = none := by
  unfold parseCached
  rw [hsig]

/-- Where hits agree, the fast path returns what the slow path returns. -/
theorem parseCached_eq_parse {cache cache' : SignatureLruCache} {raw : String}
    {result : Except String Activity} (hagrees : HitAgrees cache raw)
    (h : parseCached x cache raw = some (result, cache')) : result = parse x raw := by
  cases hsig : computeSignatureHash raw with
  | none =>
    rw [parseCached_of_panic x hsig] at h
    cases h
  | some sigHash =>
    cases hpeek : cache.peek sigHash with
    | some format =>
      rw [parseCached_of_hit x hsig hpeek] at h
      cases h
      rw [hagrees sigHash format hsig (by rw [cache.get_fst, hpeek])]
      rfl
    | none =>
      rw [parseCached_of_miss x hsig hpeek] at h
      cases h
      rfl

lemma parseCachedStep_entersOwn :
    EntersOwn (parseCachedStep x) SignatureLruCache.peek computeSignatureHash classify := by
  intro cache raw cache' hstep k v hv
  unfold parseCachedStep at hstep
  cases hsig : computeSignatureHash raw with
  | none =>
    rw [parseCached_of_panic x hsig] at hstep
    cases hstep
  | some sigHash =>
    cases hpeek : cache.peek sigHash with
    | some format =>
      rw [parseCached_of_hit x hsig hpeek] at hstep
      cases hstep
      left
      rwa [SignatureLruCache.peek_get] at hv
    | none =>
      rw [parseCached_of_miss x hsig hpeek] at hstep
      cases hstep
      rcases SignatureLruCache.peek_promote hv with ⟨rfl, rfl⟩ | hold
      · exact Or.inr ⟨rfl, rfl⟩
      · left
        rwa [SignatureLruCache.peek_get] at hold

lemma parseCachedStep_new {raw : String} {sigHash : UInt64}
    (hsig : computeSignatureHash raw = some sigHash) (hknown : classify raw ≠ .unknown) :
    ∃ cache, parseCachedStep x SignatureLruCache.new raw = some cache ∧
      cache.peek sigHash = some (classify raw) := by
  unfold parseCachedStep
  rw [parseCached_of_miss x hsig (SignatureLruCache.peek_new sigHash)]
  exact ⟨_, rfl, SignatureLruCache.peek_promote_self hknown⟩

/-! ### Runs -/

/-- On every run of `parse_cached` over lines of the set, from an empty cache, hits agree. -/
def ParseCachedAgrees (lines : Set String) : Prop :=
  ∀ raws : List String, (∀ raw ∈ raws, raw ∈ lines) →
    Along (parseCachedStep x) HitAgrees SignatureLruCache.new raws

lemma entriesFrom_new (lines : Set String) :
    EntriesFrom SignatureLruCache.peek computeSignatureHash classify lines
      SignatureLruCache.new := by
  intro k v hv
  rw [SignatureLruCache.peek_new] at hv
  cases hv

lemma parseCachedAgrees_of_determine {lines : Set String}
    (h : SignaturesDetermineFormat lines) : ParseCachedAgrees x lines := by
  intro raws hraws
  rw [along_congr _ hitAgrees_iff]
  exact along_hitsValue (parseCachedStep_entersOwn x) h (entriesFrom_new lines) hraws

/-- Two lines that share a signature are told apart by the run that takes the one with a
known format first. -/
lemma classify_eq_of_parseCachedAgrees {lines : Set String} (h : ParseCachedAgrees x lines)
    {raw raw' : String} (hraw : raw ∈ lines) (hraw' : raw' ∈ lines) {sigHash : UInt64}
    (hsig : computeSignatureHash raw = some sigHash)
    (hsig' : computeSignatureHash raw' = some sigHash) (hknown : classify raw ≠ .unknown) :
    classify raw = classify raw' := by
  obtain ⟨cache, hstep, hpeek⟩ := parseCachedStep_new x hsig hknown
  have hrun := h [raw, raw'] (by simp [hraw, hraw'])
  have hagrees : HitAgrees cache raw' := (hrun.2 cache hstep).1
  apply hagrees sigHash (classify raw) hsig'
  rw [SignatureLruCache.get_fst, hpeek]

lemma parseCachedAgrees_iff (lines : Set String) :
    ParseCachedAgrees x lines ↔ SignaturesDetermineFormat lines := by
  constructor
  · intro h raw hraw raw' hraw' sigHash hsig hsig'
    by_cases hknown : classify raw = .unknown
    · by_cases hknown' : classify raw' = .unknown
      · rw [hknown, hknown']
      · exact (classify_eq_of_parseCachedAgrees x h hraw' hraw hsig' hsig hknown').symm
    · exact classify_eq_of_parseCachedAgrees x h hraw hraw' hsig hsig' hknown
  · exact parseCachedAgrees_of_determine x

/-! ### What every event satisfies -/

/-- What the extractor of a format returns for a line. -/
def Extractors.extract (format : VendorFormat) (raw : String) : Except String Activity :=
  match format with
  | .ciscoAsa => x.ciscoAsa raw
  | .fortinet => x.fortigate raw
  | .paloAlto => x.paloalto raw
  | .suricata => x.suricata raw
  | .pfSense => x.pfsense raw
  | .kaggleFirewall => x.kaggle raw
  | .unknown => .error ("Unrecognized log format for raw line: " ++ raw)

/-- The format that the fast path takes for a line. -/
def routedFormat (cache : SignatureLruCache) (raw : String) : VendorFormat :=
  match computeSignatureHash raw with
  | some sigHash => (cache.peek sigHash).getD (classify raw)
  | none => classify raw

lemma parseWithFormat_eq (raw : String) (format : VendorFormat) :
    parseWithFormat x raw format = (x.extract format raw).map (x.stamp raw) := rfl

lemma isSome_parseCached_iff (cache : SignatureLruCache) (raw : String) :
    (parseCached x cache raw).isSome ↔ (computeSignatureHash raw).isSome := by
  cases hsig : computeSignatureHash raw with
  | none => simp [parseCached_of_panic x hsig]
  | some sigHash =>
    cases hpeek : cache.peek sigHash with
    | some format => simp [parseCached_of_hit x hsig hpeek]
    | none => simp [parseCached_of_miss x hsig hpeek]

lemma routedFormat_of_some {cache : SignatureLruCache} {raw : String} {sigHash : UInt64}
    (hsig : computeSignatureHash raw = some sigHash) :
    routedFormat cache raw = (cache.peek sigHash).getD (classify raw) := by
  unfold routedFormat
  rw [hsig]

lemma parseCached_routed {cache cache' : SignatureLruCache} {raw : String}
    {result : Except String Activity} (h : parseCached x cache raw = some (result, cache')) :
    result = parseWithFormat x raw (routedFormat cache raw) := by
  cases hsig : computeSignatureHash raw with
  | none =>
    rw [parseCached_of_panic x hsig] at h
    cases h
  | some sigHash =>
    rw [routedFormat_of_some hsig]
    cases hpeek : cache.peek sigHash with
    | some format =>
      rw [parseCached_of_hit x hsig hpeek] at h
      cases h
      rfl
    | none =>
      rw [parseCached_of_miss x hsig hpeek] at h
      cases h
      rfl

/-- The event of a line whose result is known, the generic one for an error. -/
def lossless (raw : String) (result : Except String Activity) : Activity :=
  match result with
  | .ok activity => activity
  | .error err => x.unparsed raw err

lemma parseLossless_eq (raw : String) :
    parseLossless x raw = lossless x raw (parseWithFormat x raw (classify raw)) := by
  unfold parseLossless lossless parse
  cases parseWithFormat x raw (classify raw) <;> rfl

lemma parseCachedLossless_eq (cache : SignatureLruCache) (raw : String) :
    parseCachedLossless x cache raw =
      (parseCached x cache raw).map fun out => (lossless x raw out.1, out.2) := by
  unfold parseCachedLossless
  rcases parseCached x cache raw with - | ⟨- | -, -⟩ <;> rfl

variable {x}

/-- Stamping an extracted activity, or giving up on the line, makes a `P` of the line. -/
structure Extractors.Ensures (x : Extractors Activity) (P : String → Activity → Prop) : Prop where
  stamp : ∀ {raw : String} {format : VendorFormat} {activity : Activity},
    x.extract format raw = .ok activity → P raw (x.stamp raw activity)
  unparsed : ∀ (raw err : String), P raw (x.unparsed raw err)

namespace Extractors.Ensures

variable {P : String → Activity → Prop} {raw : String}

lemma parseWithFormat (h : x.Ensures P) {format : VendorFormat} {activity : Activity}
    (hparse : Core.parseWithFormat x raw format = .ok activity) : P raw activity := by
  rw [parseWithFormat_eq] at hparse
  cases hextract : x.extract format raw with
  | error err =>
    rw [hextract] at hparse
    cases hparse
  | ok extracted =>
    rw [hextract] at hparse
    cases hparse
    exact h.stamp hextract

lemma lossless (h : x.Ensures P) (format : VendorFormat) :
    P raw (Core.lossless x raw (Core.parseWithFormat x raw format)) := by
  cases hparse : Core.parseWithFormat x raw format with
  | ok activity => exact h.parseWithFormat hparse
  | error err => exact h.unparsed raw err

lemma parseLossless (h : x.Ensures P) : P raw (Core.parseLossless x raw) := by
  rw [parseLossless_eq]
  exact h.lossless _

lemma parseCached (h : x.Ensures P) {cache cache' : SignatureLruCache} {activity : Activity}
    (hparse : Core.parseCached x cache raw = some (.ok activity, cache')) : P raw activity :=
  h.parseWithFormat (parseCached_routed x hparse).symm

lemma parseCachedLossless (h : x.Ensures P) {cache cache' : SignatureLruCache}
    {activity : Activity}
    (hparse : Core.parseCachedLossless x cache raw = some (activity, cache')) :
    P raw activity := by
  rw [parseCachedLossless_eq] at hparse
  obtain ⟨⟨result, cache''⟩, hcached, heq⟩ := Option.map_eq_some_iff.mp hparse
  cases heq
  rw [parseCached_routed x hcached]
  exact h.lossless _

end Extractors.Ensures

end Ulpf.Core
