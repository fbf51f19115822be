import Mathlib.Data.List.AList
import Ulpf.Core.Classifier

/-!
# The signature cache

`SignatureLruCache` maps a 64-bit hash of the first 96 bytes of a line to a vendor format.
Each shard keeps its keys in a queue and evicts from the front of it.
-/

namespace Ulpf.Core

/-! ### The signature -/

/-- `FxHasher64::write` of one byte. -/
def fxStep (hash : UInt64) (byte : UInt8) : UInt64 :=
  ((hash <<< 5 ||| hash >>> 59) ^^^ byte.toUInt64) * 0x517cc1b727220a95

/-- `FxHasher64::finish` after a `write` to a fresh hasher. -/
def fxHash (bytes : List UInt8) : UInt64 := bytes.foldl fxStep 0

def isTokenSeparator (c : Char) : Bool := isWhitespace c || c == ',' || c == ':'

/-- The first three tokens of the window that are not pure numbers. -/
def fingerprintTokens (window : Text) : List Text :=
  ((window.splitOnP isTokenSeparator).filter fun token =>
    !(token.isEmpty || token.all Char.isDigit)).take 3

/-- The bytes that `compute_signature_hash` hashes for a window. -/
def signatureBytes (window : Text) : Option (List UInt8) :=
  match findFrom "%ASA-".toList window with
  | some rest => (sliceTo rest (min (utf8Len rest) 16)).map utf8Bytes
  | none => some (
    if contains window "devname=" || contains window "type=\"traffic\"" ||
        contains window "logid=" then utf8Bytes "fortigate_traffic".toList
    else if contains window "filterlog[" || contains window "filterlog:" then
      utf8Bytes "pfsense_filterlog".toList
    else if startsWith window "\x7b" || contains window "\"event_type\"" then
      utf8Bytes "suricata_eve_json".toList
    else if contains window ",TRAFFIC," || contains window ",THREAT," then
      utf8Bytes "paloalto_panos_csv".toList
    else (fingerprintTokens window).flatMap utf8Bytes)

/-- Fast structural signature extractor and 64-bit hash calculator; there is no value where one
of the two byte slices falls inside a character. -/
def computeSignatureHash (raw : String) : Option UInt64 :=
  if raw.toList = [] then some 0
  else do
    let window ← sliceTo raw.toList (min (utf8Len raw.toList) 96)
    let bytes ← signatureBytes window
    return fxHash bytes

/-- The first 96 bytes of the line end between two characters, and so do the 16 bytes from the
ASA marker within them, if there is one. -/
def SignatureSliceable (raw : String) : Prop :=
  IsCharBoundary raw.toList (min (utf8Len raw.toList) 96) ∧
    ∀ window rest, window <+: raw.toList → utf8Len window = min (utf8Len raw.toList) 96 →
      findFrom "%ASA-".toList window = some rest →
        IsCharBoundary rest (min (utf8Len rest) 16)

lemma isSome_signatureBytes_iff {window : Text} :
    (signatureBytes window).isSome ↔ ∀ rest, findFrom "%ASA-".toList window = some rest →
      IsCharBoundary rest (min (utf8Len rest) 16) := by
  unfold signatureBytes
  cases findFrom "%ASA-".toList window with
  | none =>
    constructor
    · rintro - rest ⟨⟩
    · intro h
      rfl
  | some rest =>
    rw [Option.isSome_map, isSome_sliceTo_iff]
    constructor
    · rintro h rest' ⟨⟩
      exact h
    · intro h
      exact h rest rfl

/-- The signature has a value exactly where both of its slices end between two characters. -/
lemma isSome_computeSignatureHash_iff {raw : String} :
    (computeSignatureHash raw).isSome ↔ SignatureSliceable raw := by
  unfold computeSignatureHash SignatureSliceable
  split_ifs with hempty
  · rw [hempty]
    simp only [Option.isSome_some, true_iff]
    refine ⟨⟨[], List.nil_prefix, rfl⟩, ?_⟩
    intro window rest hwindow hlen hrest
    rw [List.prefix_nil.mp hwindow] at hrest
    cases hrest
  · constructor
    · intro h
      obtain ⟨hash, hhash⟩ := Option.isSome_iff_exists.mp h
      obtain ⟨window, hwindow, hbytes⟩ := Option.bind_eq_some_iff.mp hhash
      obtain ⟨bytes, hbytes, -⟩ := Option.bind_eq_some_iff.mp hbytes
      have hsome : (signatureBytes window).isSome := by rw [hbytes, Option.isSome_some]
      refine ⟨⟨window, sliceTo_eq_some_iff.mp hwindow⟩, ?_⟩
      intro window' rest hstart hlen hrest
      have hsame := sliceTo_eq_some_iff.mpr ⟨hstart, hlen⟩
      rw [hwindow, Option.some.injEq] at hsame
      rw [← hsame] at hrest
      exact isSome_signatureBytes_iff.mp hsome rest hrest
    · rintro ⟨⟨window, hstart, hlen⟩, htag⟩
      have hwindow := sliceTo_eq_some_iff.mpr ⟨hstart, hlen⟩
      have hbytes : (signatureBytes window).isSome :=
        isSome_signatureBytes_iff.mpr fun rest => htag window rest hstart hlen
      obtain ⟨bytes, hbytes⟩ := Option.isSome_iff_exists.mp hbytes
      rw [hwindow]
      simp [hbytes]

/-! ### Shards -/

structure Shard where
  capacity : ℕ
  entries : AList fun _ : UInt64 => VendorFormat
  order : List UInt64

namespace Shard

def new (capacity : ℕ) : Shard := ⟨capacity, ∅, []⟩

def get (s : Shard) (key : UInt64) : Option VendorFormat := s.entries.lookup key

/-- The shard once the front of the queue is gone, and whether there was one. -/
def evict (s : Shard) : Shard × Bool :=
  match s.order with
  | [] => (s, false)
  | oldest :: order => ({ s with entries := s.entries.erase oldest, order }, true)

def insert (s : Shard) (key : UInt64) (format : VendorFormat) : Shard × Bool :=
  if key ∈ s.entries then ({ s with entries := s.entries.insert key format }, false)
  else
    let (s, evicted) := if s.capacity ≤ s.entries.keys.length then s.evict else (s, false)
    ({ s with entries := s.entries.insert key format, order := s.order ++ [key] }, evicted)

lemma get_evict {s : Shard} {key : UInt64} {format : VendorFormat}
    (h : s.evict.1.get key = some format) : s.get key = some format := by
  unfold evict at h
  cases horder : s.order with
  | nil => simpa only [horder] using h
  | cons oldest order =>
    simp only [horder, get] at h
    by_cases hkey : key = oldest
    · rw [hkey, AList.lookup_erase] at h
      cases h
    · rwa [AList.lookup_erase_ne hkey] at h

lemma get_insert_self (s : Shard) (key : UInt64) (format : VendorFormat) :
    (s.insert key format).1.get key = some format := by
  unfold insert
  split_ifs <;> exact AList.lookup_insert _

lemma get_insert {s : Shard} {key k : UInt64} {format f : VendorFormat}
    (h : (s.insert key format).1.get k = some f) : (k = key ∧ f = format) ∨ s.get k = some f := by
  by_cases hkey : k = key
  · subst hkey
    rw [get_insert_self] at h
    exact Or.inl ⟨rfl, (Option.some.inj h).symm⟩
  · right
    unfold insert at h
    split_ifs at h with hmem hfull
    · simpa only [get, AList.lookup_insert_ne hkey] using h
    · apply get_evict
      simpa only [get, AList.lookup_insert_ne hkey] using h
    · simpa only [get, AList.lookup_insert_ne hkey] using h

end Shard

/-! ### The sharded cache -/

/-- Shards indexed by the low bits of the signature, with the three counters. -/
structure SignatureLruCache where
  shards : List Shard
  shardMask : ℕ
  length_shards : shards.length = shardMask + 1
  hits : ℕ
  misses : ℕ
  evictions : ℕ

namespace SignatureLruCache

def withCapacity (numShards capacityPerShard : ℕ) : Option SignatureLruCache :=
  if h : numShards.isPowerOfTwo then some {
    shards := List.replicate numShards (Shard.new capacityPerShard)
    shardMask := numShards - 1
    length_shards := by
      have hpos : 0 < numShards := Nat.pos_of_isPowerOfTwo h
      rw [List.length_replicate]
      omega
    hits := 0
    misses := 0
    evictions := 0 }
  else none

def new : SignatureLruCache := ⟨List.replicate 16 (Shard.new 512), 15, rfl, 0, 0, 0⟩

lemma withCapacity_default : withCapacity 16 512 = some new := by
  have hpow : Nat.isPowerOfTwo 16 := ⟨4, rfl⟩
  exact dif_pos hpow

/-- `(signature_hash as usize) & self.shard_mask` -/
def shardIdx (c : SignatureLruCache) (signatureHash : UInt64) : ℕ :=
  signatureHash.toNat &&& c.shardMask

lemma shardIdx_lt (c : SignatureLruCache) (signatureHash : UInt64) :
    c.shardIdx signatureHash < c.shards.length := by
  rw [c.length_shards]
  exact Nat.lt_succ_of_le Nat.and_le_right

def shard (c : SignatureLruCache) (signatureHash : UInt64) : Shard :=
  c.shards.get ⟨c.shardIdx signatureHash, c.shardIdx_lt signatureHash⟩

/-- What a lookup would return, without counting it. -/
def peek (c : SignatureLruCache) (signatureHash : UInt64) : Option VendorFormat :=
  (c.shard signatureHash).get signatureHash

def get (c : SignatureLruCache) (signatureHash : UInt64) :
    Option VendorFormat × SignatureLruCache :=
  match c.peek signatureHash with
  | some format => (some format, { c with hits := c.hits + 1 })
  | none => (none, { c with misses := c.misses + 1 })

def insert (c : SignatureLruCache) (signatureHash : UInt64) (format : VendorFormat) :
    SignatureLruCache :=
  let (shard, evicted) := (c.shard signatureHash).insert signatureHash format
  { c with
    shards := c.shards.set (c.shardIdx signatureHash) shard
    length_shards := by rw [List.length_set, c.length_shards]
    evictions := if evicted then c.evictions + 1 else c.evictions }

/-- What the callers do after a miss: only a recognised format enters the cache. -/
def promote (c : SignatureLruCache) (signatureHash : UInt64) (format : VendorFormat) :
    SignatureLruCache :=
  if format ≠ .unknown then c.insert signatureHash format else c

lemma peek_new (signatureHash : UInt64) : new.peek signatureHash = none := by
  have hshard : new.shard signatureHash = Shard.new 512 :=
    List.eq_of_mem_replicate (List.get_mem _ _)
  rw [peek, hshard]
  rfl

lemma get_fst (c : SignatureLruCache) (signatureHash : UInt64) :
    (c.get signatureHash).1 = c.peek signatureHash := by
  unfold get
  cases c.peek signatureHash <;> rfl

lemma peek_get (c : SignatureLruCache) (signatureHash k : UInt64) :
    (c.get signatureHash).2.peek k = c.peek k := by
  unfold get
  cases c.peek signatureHash <;> rfl

lemma shard_insert (c : SignatureLruCache) (key k : UInt64) (format : VendorFormat) :
    (c.insert key format).shard k =
      if c.shardIdx key = c.shardIdx k then ((c.shard key).insert key format).1 else c.shard k := by
  unfold shard insert
  simp only [List.get_eq_getElem, shardIdx, List.getElem_set]
  rfl

lemma peek_insert_self (c : SignatureLruCache) (key : UInt64) (format : VendorFormat) :
    (c.insert key format).peek key = some format := by
  rw [peek, shard_insert, if_pos rfl]
  exact Shard.get_insert_self _ key format

lemma peek_insert {c : SignatureLruCache} {key k : UInt64} {format f : VendorFormat}
    (h : (c.insert key format).peek k = some f) :
    (k = key ∧ f = format) ∨ c.peek k = some f := by
  rw [peek, shard_insert] at h
  split_ifs at h with hidx
  · have hshard : c.shard key = c.shard k := by
      unfold shard
      simp only [hidx]
    rw [peek, ← hshard]
    exact Shard.get_insert h
  · exact Or.inr h

lemma peek_promote_self {c : SignatureLruCache} {key : UInt64} {format : VendorFormat}
    (hknown : format ≠ .unknown) : (c.promote key format).peek key = some format := by
  rw [promote, if_pos hknown, peek_insert_self]

lemma peek_promote {c : SignatureLruCache} {key k : UInt64} {format f : VendorFormat}
    (h : (c.promote key format).peek k = some f) :
    (k = key ∧ f = format) ∨ c.peek k = some f := by
  unfold promote at h
  split_ifs at h
  · exact peek_insert h
  · exact Or.inr h

end SignatureLruCache

end Ulpf.Core
