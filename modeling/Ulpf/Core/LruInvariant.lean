import Mathlib.Algebra.BigOperators.Group.List.Basic
import Mathlib.Algebra.Ring.Nat
import Mathlib.Data.List.Induction
import Ulpf.Core.LruCache

/-!
# The signature cache as a bounded map

After any sequence of lookups and inserts a lookup gives the last format inserted for its key
or nothing, the queue of a shard lists the keys of its map, and the eviction counter accounts
for every key that was entered and is gone.
-/

namespace Ulpf.Core

/-! ### One shard -/

namespace Shard

/-- `Shard::len` -/
def len (s : Shard) : ℕ := s.entries.keys.length

/-- The queue lists the keys of the map, each once, and there is room for them. -/
structure Ok (s : Shard) : Prop where
  nodup : s.order.Nodup
  mem_iff : ∀ k, k ∈ s.order ↔ k ∈ s.entries
  bounded : s.len ≤ max 1 s.capacity

lemma ok_new (capacity : ℕ) : (new capacity).Ok where
  nodup := List.nodup_nil
  mem_iff k := iff_of_false List.not_mem_nil (AList.notMem_empty k)
  bounded := Nat.zero_le _

lemma len_eq_zero {s : Shard} (h : s.Ok) (horder : s.order = []) : s.len = 0 := by
  rw [len, List.length_eq_zero_iff, List.eq_nil_iff_forall_not_mem]
  intro k hk
  have hmem := (h.mem_iff k).mpr (AList.mem_keys.mpr hk)
  rw [horder] at hmem
  cases hmem

lemma mem_of_mem_evict {s : Shard} {k : UInt64} (hk : k ∈ s.evict.1.entries) : k ∈ s.entries := by
  unfold evict at hk
  cases horder : s.order with
  | nil => simpa only [horder] using hk
  | cons oldest order =>
    simp only [horder] at hk
    exact (AList.mem_erase.mp hk).2

lemma mem_order_evict {s : Shard} (h : s.Ok) (k : UInt64) :
    k ∈ s.evict.1.order ↔ k ∈ s.evict.1.entries := by
  unfold evict
  cases horder : s.order with
  | nil => simpa only [horder] using h.mem_iff k
  | cons oldest order =>
    have hnodup := h.nodup
    have hmem := h.mem_iff k
    rw [horder] at hnodup hmem
    simp only [AList.mem_erase, ← hmem, List.mem_cons]
    constructor
    · intro hk
      refine ⟨?_, Or.inr hk⟩
      rintro rfl
      exact (List.nodup_cons.mp hnodup).1 hk
    · rintro ⟨hne, rfl | hk⟩
      · exact absurd rfl hne
      · exact hk

lemma nodup_order_evict {s : Shard} (h : s.Ok) : s.evict.1.order.Nodup := by
  have hnodup := h.nodup
  unfold evict
  cases horder : s.order with
  | nil => simpa only [horder] using hnodup
  | cons oldest order =>
    rw [horder] at hnodup
    exact (List.nodup_cons.mp hnodup).2

lemma len_evict {s : Shard} (h : s.Ok) : s.evict.1.len + s.evict.2.toNat = s.len ∧
    s.evict.1.len < max 1 s.capacity := by
  have hbound := h.bounded
  cases horder : s.order with
  | nil =>
    have hlen := len_eq_zero h horder
    simp only [evict, horder, Bool.toNat_false, Nat.add_zero, true_and]
    omega
  | cons oldest order =>
    have hmem : oldest ∈ s.entries.keys := by
      rw [← AList.mem_keys, ← h.mem_iff, horder]
      exact List.mem_cons_self
    have hpos := List.length_pos_of_mem hmem
    simp only [len] at hbound
    simp only [evict, horder, len, AList.keys_erase, List.length_erase_of_mem hmem,
      Bool.toNat_true]
    omega

lemma capacity_evict (s : Shard) : s.evict.1.capacity = s.capacity := by
  unfold evict
  cases s.order <;> rfl

lemma capacity_insert (s : Shard) (key : UInt64) (format : VendorFormat) :
    (s.insert key format).1.capacity = s.capacity := by
  unfold insert
  split_ifs
  · rfl
  · exact capacity_evict s
  · rfl

lemma mem_insert {s : Shard} {key k : UInt64} {format : VendorFormat}
    (hk : k ∈ (s.insert key format).1.entries) : k = key ∨ k ∈ s.entries := by
  unfold insert at hk
  split_ifs at hk with hmem hfull
  · exact (AList.mem_insert _).mp hk
  · exact ((AList.mem_insert _).mp hk).imp_right mem_of_mem_evict
  · exact (AList.mem_insert _).mp hk

lemma ok_enter {s : Shard} {key : UInt64} (format : VendorFormat) (hnodup : s.order.Nodup)
    (hmem : ∀ k, k ∈ s.order ↔ k ∈ s.entries) (hroom : s.len < max 1 s.capacity)
    (hnew : key ∉ s.entries) :
    Ok { s with entries := s.entries.insert key format, order := s.order ++ [key] } where
  nodup := by
    rw [List.nodup_append_comm]
    exact List.nodup_cons.mpr ⟨fun hk => hnew ((hmem key).mp hk), hnodup⟩
  mem_iff k := by
    rw [AList.mem_insert, List.mem_append, List.mem_singleton, hmem, or_comm]
  bounded := by
    have hkey : key ∉ s.entries.keys := fun hk => hnew (AList.mem_keys.mpr hk)
    rw [len] at hroom ⊢
    rw [AList.keys_insert, List.length_cons, List.erase_of_not_mem hkey]
    exact hroom

lemma len_enter {s : Shard} {key : UInt64} (format : VendorFormat) (hnew : key ∉ s.entries) :
    (s.entries.insert key format).keys.length = s.len + 1 := by
  have hkey : key ∉ s.entries.keys := fun hk => hnew (AList.mem_keys.mpr hk)
  rw [AList.keys_insert, List.length_cons, List.erase_of_not_mem hkey, len]

lemma len_overwrite {s : Shard} {key : UInt64} (format : VendorFormat) (hold : key ∈ s.entries) :
    (s.entries.insert key format).keys.length = s.len := by
  have hkey : key ∈ s.entries.keys := AList.mem_keys.mp hold
  have hpos := List.length_pos_of_mem hkey
  rw [AList.keys_insert, List.length_cons, List.length_erase_of_mem hkey, len]
  omega

lemma ok_insert {s : Shard} (h : s.Ok) (key : UInt64) (format : VendorFormat) :
    (s.insert key format).1.Ok := by
  unfold insert
  split_ifs with hold hfull
  · exact {
      nodup := h.nodup
      mem_iff := by
        intro k
        rw [AList.mem_insert, h.mem_iff]
        exact ⟨Or.inr, fun hk => hk.elim (fun hkey => hkey ▸ hold) id⟩
      bounded := (len_overwrite format hold).trans_le h.bounded }
  · have hroom := (len_evict h).2
    rw [← capacity_evict] at hroom
    exact ok_enter format (nodup_order_evict h) (mem_order_evict h) hroom
      fun hk => hold (mem_of_mem_evict hk)
  · have hroom : s.len < max 1 s.capacity := by
      rw [len]
      omega
    exact ok_enter format h.nodup h.mem_iff hroom hold

/-- An insert adds one key if it was absent, less the one it evicts. -/
lemma len_insert {s : Shard} (h : s.Ok) (key : UInt64) (format : VendorFormat) :
    (s.insert key format).1.len + (s.insert key format).2.toNat =
      s.len + (s.get key).isNone.toNat := by
  have hget : (s.get key).isNone = decide (key ∉ s.entries) := by
    rw [get, ← Option.not_isSome, ← Bool.decide_coe (s.entries.lookup key).isSome, ← decide_not]
    simp only [AList.lookup_isSome]
  rw [hget]
  unfold insert
  split_ifs with hold hfull
  · have hlen : (s.entries.insert key format).keys.length = s.len := len_overwrite format hold
    rw [decide_eq_false (not_not_intro hold)]
    exact hlen
  · have hnew : key ∉ s.evict.1.entries := fun hk => hold (mem_of_mem_evict hk)
    have hlen := len_enter format hnew
    have hevict := (len_evict h).1
    rw [decide_eq_true hold, Bool.toNat_true, ← hevict, Nat.add_right_comm, ← hlen]
    rfl
  · have hlen : (s.entries.insert key format).keys.length = s.len + 1 := len_enter format hold
    rw [decide_eq_true hold]
    exact hlen

end Shard

/-! ### The shards of a cache -/

inductive CacheOp where
  | get (signatureHash : UInt64)
  | insert (signatureHash : UInt64) (format : VendorFormat)
deriving DecidableEq

namespace SignatureLruCache

def step (c : SignatureLruCache) : CacheOp → SignatureLruCache
  | .get signatureHash => (c.get signatureHash).2
  | .insert signatureHash format => c.insert signatureHash format

/-- The number of entries that `stats` reports. -/
def entriesCount (c : SignatureLruCache) : ℕ := (c.shards.map Shard.len).sum

/-- The format of the most recent insert of a key. -/
def lastInserted (ops : List CacheOp) (signatureHash : UInt64) : Option VendorFormat :=
  ops.reverse.findSome? fun
    | .get _ => none
    | .insert key format => if key = signatureHash then some format else none

/-- Whether the call inserts a key that is absent. -/
def entersKey (c : SignatureLruCache) : CacheOp → Bool
  | .get _ => false
  | .insert signatureHash _ => (c.peek signatureHash).isNone

/-- The number of inserts of then-absent keys along the calls. -/
def freshInserts (c : SignatureLruCache) : List CacheOp → ℕ
  | [] => 0
  | op :: ops => (c.entersKey op).toNat + (c.step op).freshInserts ops

/-- Every shard is in order, has the configured capacity and holds only keys of its own. -/
def ShardsOk (c : SignatureLruCache) (capacity : ℕ) : Prop :=
  ∀ i (hi : i < c.shards.length), c.shards[i].Ok ∧ c.shards[i].capacity = capacity ∧
    ∀ k ∈ c.shards[i].entries, c.shardIdx k = i

lemma shards_get (c : SignatureLruCache) (key : UInt64) : (c.get key).2.shards = c.shards := by
  unfold get
  cases c.peek key <;> rfl

lemma shardMask_get (c : SignatureLruCache) (key : UInt64) :
    (c.get key).2.shardMask = c.shardMask := by
  unfold get
  cases c.peek key <;> rfl

lemma evictions_get (c : SignatureLruCache) (key : UInt64) :
    (c.get key).2.evictions = c.evictions := by
  unfold get
  cases c.peek key <;> rfl

lemma hits_get (c : SignatureLruCache) (key : UInt64) :
    (c.get key).2.hits = c.hits + (c.get key).1.isSome.toNat := by
  unfold get
  cases c.peek key <;> rfl

lemma misses_get (c : SignatureLruCache) (key : UInt64) :
    (c.get key).2.misses = c.misses + (c.get key).1.isNone.toNat := by
  unfold get
  cases c.peek key <;> rfl

@[simp] lemma hits_promote (c : SignatureLruCache) (key : UInt64) (format : VendorFormat) :
    (c.promote key format).hits = c.hits := by
  unfold promote
  split_ifs <;> rfl

@[simp] lemma misses_promote (c : SignatureLruCache) (key : UInt64) (format : VendorFormat) :
    (c.promote key format).misses = c.misses := by
  unfold promote
  split_ifs <;> rfl

lemma shardIdx_step (c : SignatureLruCache) (op : CacheOp) (key : UInt64) :
    (c.step op).shardIdx key = c.shardIdx key := by
  cases op with
  | get signatureHash => rw [step, shardIdx, shardMask_get, shardIdx]
  | insert signatureHash format => rfl

lemma shardsOk_withCapacity {numShards capacityPerShard : ℕ} {c : SignatureLruCache}
    (h : withCapacity numShards capacityPerShard = some c) : c.ShardsOk capacityPerShard := by
  unfold withCapacity at h
  split_ifs at h
  cases h
  intro i hi
  have hnew : (List.replicate numShards (Shard.new capacityPerShard))[i] =
      Shard.new capacityPerShard := List.getElem_replicate hi
  refine ⟨?_, ?_, ?_⟩
  · rw [hnew]
    exact Shard.ok_new capacityPerShard
  · rw [hnew]
    rfl
  · intro k hk
    rw [hnew] at hk
    exact absurd hk (AList.notMem_empty k)

lemma shardsOk_step {c : SignatureLruCache} {capacity : ℕ} (h : c.ShardsOk capacity)
    (op : CacheOp) : (c.step op).ShardsOk capacity := by
  intro i hi
  cases op with
  | get signatureHash =>
    simp only [step, shardIdx, shards_get, shardMask_get] at hi ⊢
    exact h i hi
  | insert signatureHash format =>
    have hi' : i < c.shards.length := by
      rw [c.length_shards]
      rwa [(c.step _).length_shards] at hi
    have hget : (c.step (.insert signatureHash format)).shards[i] =
        if c.shardIdx signatureHash = i then ((c.shard signatureHash).insert signatureHash format).1
        else c.shards[i] := List.getElem_set hi
    simp only [shardIdx_step]
    rw [hget]
    split_ifs with hidx
    · subst hidx
      obtain ⟨hok, hcap, hkeys⟩ := h _ (c.shardIdx_lt signatureHash)
      refine ⟨Shard.ok_insert hok _ _, (Shard.capacity_insert _ _ _).trans hcap, ?_⟩
      intro k hk
      rcases Shard.mem_insert hk with rfl | hold
      · rfl
      · exact hkeys k hold
    · exact h i hi'

lemma sum_len_set (shards : List Shard) (i : ℕ) (hi : i < shards.length) (s : Shard) :
    ((shards.set i s).map Shard.len).sum + shards[i].len = (shards.map Shard.len).sum + s.len := by
  induction shards generalizing i with
  | nil => exact absurd hi (Nat.not_lt_zero i)
  | cons t shards ih =>
    cases i with
    | zero =>
      simp only [List.set_cons_zero, List.map_cons, List.sum_cons, List.getElem_cons_zero]
      omega
    | succ i =>
      have := ih i (Nat.lt_of_succ_lt_succ hi)
      simp only [List.set_cons_succ, List.map_cons, List.sum_cons, List.getElem_cons_succ]
      omega

lemma evictions_step {c : SignatureLruCache} {capacity : ℕ} (h : c.ShardsOk capacity)
    (op : CacheOp) :
    (c.step op).evictions + (c.step op).entriesCount =
      c.evictions + c.entriesCount + (c.entersKey op).toNat := by
  cases op with
  | get signatureHash => rw [step, evictions_get, entriesCount, shards_get]; rfl
  | insert signatureHash format =>
    have hlen := Shard.len_insert (s := c.shard signatureHash)
      (h _ (c.shardIdx_lt signatureHash)).1 signatureHash format
    have hsum : (c.insert signatureHash format).entriesCount + (c.shard signatureHash).len =
        c.entriesCount + ((c.shard signatureHash).insert signatureHash format).1.len :=
      sum_len_set c.shards _ (c.shardIdx_lt signatureHash) _
    have hevictions : (c.insert signatureHash format).evictions = c.evictions +
        ((c.shard signatureHash).insert signatureHash format).2.toNat := by
      unfold insert
      rcases (c.shard signatureHash).insert signatureHash format with ⟨s, _ | _⟩ <;> rfl
    rw [step, entersKey, peek, hevictions]
    omega

lemma peek_step {c : SignatureLruCache} {op : CacheOp} {k : UInt64} {f : VendorFormat}
    (h : (c.step op).peek k = some f) :
    op = .insert k f ∨ ((∀ g, op ≠ .insert k g) ∧ c.peek k = some f) := by
  cases op with
  | get signatureHash =>
    rw [step, peek_get] at h
    exact Or.inr ⟨fun _ => CacheOp.noConfusion, h⟩
  | insert signatureHash format =>
    by_cases hkey : signatureHash = k
    · subst hkey
      rw [step, peek_insert_self] at h
      cases h
      exact Or.inl rfl
    · right
      refine ⟨?_, ?_⟩
      · rintro g ⟨⟩
        exact hkey rfl
      · rcases peek_insert h with ⟨rfl, -⟩ | hold
        · exact absurd rfl hkey
        · exact hold

lemma lastInserted_concat_insert (ops : List CacheOp) (k : UInt64) (f : VendorFormat) :
    lastInserted (ops ++ [.insert k f]) k = some f := by
  simp [lastInserted]

lemma lastInserted_concat_of_ne (ops : List CacheOp) {op : CacheOp} {k : UInt64}
    (h : ∀ g, op ≠ .insert k g) : lastInserted (ops ++ [op]) k = lastInserted ops k := by
  unfold lastInserted
  rw [List.reverse_append, List.reverse_singleton, List.singleton_append]
  cases op with
  | get signatureHash => rfl
  | insert signatureHash format =>
    have hkey : signatureHash ≠ k := by
      rintro rfl
      exact h format rfl
    rw [List.findSome?_cons]
    simp only [hkey, if_false]

lemma peek_foldl {c : SignatureLruCache} (hempty : ∀ k, c.peek k = none) (ops : List CacheOp)
    {k : UInt64} {f : VendorFormat} (h : (ops.foldl step c).peek k = some f) :
    lastInserted ops k = some f := by
  induction ops using List.reverseRecOn generalizing k f with
  | nil => cases (hempty k).symm.trans h
  | append_singleton ops op ih =>
    rw [List.foldl_concat] at h
    rcases peek_step h with rfl | ⟨hother, hold⟩
    · exact lastInserted_concat_insert ops k f
    · rw [lastInserted_concat_of_ne ops hother]
      exact ih hold

lemma shardsOk_foldl {c : SignatureLruCache} {capacity : ℕ} (h : c.ShardsOk capacity)
    (ops : List CacheOp) : (ops.foldl step c).ShardsOk capacity := by
  induction ops generalizing c with
  | nil => exact h
  | cons op ops ih => exact ih (shardsOk_step h op)

lemma evictions_foldl {c : SignatureLruCache} {capacity : ℕ} (h : c.ShardsOk capacity)
    (ops : List CacheOp) :
    (ops.foldl step c).evictions + (ops.foldl step c).entriesCount =
      c.evictions + c.entriesCount + c.freshInserts ops := by
  induction ops generalizing c with
  | nil => rfl
  | cons op ops ih =>
    rw [List.foldl_cons, ih (shardsOk_step h op), evictions_step h op, freshInserts]
    omega

lemma peek_of_empty {c : SignatureLruCache} (h : ∀ s ∈ c.shards, s.entries = ∅) (k : UInt64) :
    c.peek k = none := by
  have hshard : (c.shard k).entries = ∅ := h _ (List.get_mem _ _)
  rw [peek, Shard.get, hshard]
  exact AList.lookup_empty k

lemma empty_withCapacity {numShards capacityPerShard : ℕ} {c : SignatureLruCache}
    (h : withCapacity numShards capacityPerShard = some c) :
    (∀ k, c.peek k = none) ∧ c.evictions = 0 ∧ c.entriesCount = 0 := by
  unfold withCapacity at h
  split_ifs at h
  cases h
  refine ⟨?_, rfl, ?_⟩
  · intro k
    apply peek_of_empty
    intro s hs
    rw [List.eq_of_mem_replicate hs]
    rfl
  · simp [entriesCount, Shard.len, Shard.new]

/-- After any calls on a cache built by `with_capacity`, a lookup gives the most recent insert
of its key or nothing, every shard is in order, and the evictions are the keys entered less
the keys held. -/
theorem bounded_map (numShards capacityPerShard : ℕ) (c : SignatureLruCache)
    (hnew : withCapacity numShards capacityPerShard = some c) (ops : List CacheOp) :
    let after := ops.foldl step c
    (∀ k, (after.get k).1 = none ∨ (after.get k).1 = lastInserted ops k) ∧
      (∀ i (hi : i < after.shards.length), let s := after.shards[i]
        s.order.Nodup ∧ (∀ k, k ∈ s.order ↔ k ∈ s.entries) ∧
          (∀ k ∈ s.entries, after.shardIdx k = i) ∧ s.len ≤ max 1 capacityPerShard) ∧
      after.evictions = c.freshInserts ops - after.entriesCount ∧
      after.entriesCount ≤ c.freshInserts ops := by
  intro after
  obtain ⟨hempty, hevictions, hcount⟩ := empty_withCapacity hnew
  have hok := shardsOk_withCapacity hnew
  have haccount : after.evictions + after.entriesCount =
      c.evictions + c.entriesCount + c.freshInserts ops := evictions_foldl hok ops
  rw [hevictions, hcount] at haccount
  refine ⟨?_, ?_, ?_, ?_⟩
  · intro k
    rw [get_fst]
    cases hpeek : after.peek k with
    | none => exact Or.inl rfl
    | some f => exact Or.inr (peek_foldl hempty ops hpeek).symm
  · intro i hi
    obtain ⟨hshard, hcap, hkeys⟩ := shardsOk_foldl hok ops i hi
    exact ⟨hshard.nodup, hshard.mem_iff, hkeys, hcap ▸ hshard.bounded⟩
  · omega
  · omega

theorem bounded_map_default :
    let after := [CacheOp.insert 1 .pfSense, .insert 17 .suricata].foldl step new
    (after.get 1).1 = none ∨ (after.get 1).1 = some .pfSense :=
  (bounded_map 16 512 new withCapacity_default [.insert 1 .pfSense, .insert 17 .suricata]).1 1

end SignatureLruCache

end Ulpf.Core
