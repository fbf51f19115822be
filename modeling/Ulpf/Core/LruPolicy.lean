import Ulpf.Core.LruInvariant
import Ulpf.Library.Eviction
import Ulpf.Library.Execution

/-!
# What the signature cache evicts

A shard evicts in the order of first inserts: no hit and no overwrite moves a key in its queue.
It goes with a least-recently-used cache until it evicts a key that is not the least recently
used one.
-/

namespace Ulpf.Core
open Ulpf.Library

namespace CacheOp

def signatureHash : CacheOp → UInt64
  | get signatureHash => signatureHash
  | insert signatureHash _ => signatureHash

/-- The call as a use of its key. -/
def toCall : CacheOp → Eviction.Call UInt64
  | get signatureHash => .lookup signatureHash
  | insert signatureHash _ => .enter signatureHash

end CacheOp

namespace Shard

def step (s : Shard) : CacheOp → Shard
  | .get _ => s
  | .insert key format => (s.insert key format).1

lemma ok_step {s : Shard} (h : s.Ok) (op : CacheOp) : (s.step op).Ok := by
  cases op with
  | get key => exact h
  | insert key format => exact ok_insert h key format

lemma capacity_step (s : Shard) (op : CacheOp) : (s.step op).capacity = s.capacity := by
  cases op with
  | get key => rfl
  | insert key format => exact capacity_insert s key format

lemma length_order {s : Shard} (h : s.Ok) : s.order.length = s.entries.keys.length := by
  apply List.Perm.length_eq
  rw [List.perm_ext_iff_of_nodup h.nodup s.entries.keys_nodup]
  intro k
  rw [h.mem_iff, AList.mem_keys]

lemma order_evict (s : Shard) : s.evict.1.order = s.order.tail := by
  unfold evict
  cases horder : s.order with
  | nil => exact horder
  | cons oldest order => rfl

lemma order_step {s : Shard} (h : s.Ok) (op : CacheOp) :
    (s.step op).order = Eviction.fifo s.capacity s.order op.toCall := by
  cases op with
  | get key => rfl
  | insert key format =>
    rw [step, insert, CacheOp.toCall, Eviction.fifo, Eviction.makeRoom, length_order h]
    by_cases hkey : key ∈ s.entries
    · rw [if_pos hkey, if_pos ((h.mem_iff key).mpr hkey)]
    · rw [if_neg hkey, if_neg (mt (h.mem_iff key).mp hkey)]
      split_ifs with hfull
      · rw [← order_evict]
      · rfl

end Shard

namespace SignatureLruCache

lemma shard_step (c : SignatureLruCache) (op : CacheOp) (k : UInt64) :
    (c.step op).shard k =
      if c.shardIdx op.signatureHash = c.shardIdx k then (c.shard k).step op else c.shard k := by
  cases op with
  | get key =>
    have hshard : (c.get key).2.shard k = c.shard k := by
      unfold get
      cases c.peek key <;> rfl
    rw [step, hshard]
    exact (ite_self _).symm
  | insert key format =>
    rw [step, shard_insert, CacheOp.signatureHash]
    by_cases hidx : c.shardIdx key = c.shardIdx k
    · have hshard : c.shard key = c.shard k := by
        unfold shard
        simp only [hidx]
      rw [if_pos hidx, if_pos hidx, hshard]
      rfl
    · rw [if_neg hidx, if_neg hidx]

/-- A shard of the cache takes the calls on its own keys, in their order. -/
lemma shard_foldl (c : SignatureLruCache) (ops : List CacheOp) (k : UInt64) :
    (ops.foldl step c).shard k =
      (ops.filter fun op => c.shardIdx op.signatureHash = c.shardIdx k).foldl Shard.step
        (c.shard k) := by
  induction ops generalizing c with
  | nil => rfl
  | cons op ops ih =>
    rw [List.foldl_cons, ih, shard_step]
    simp only [shardIdx_step]
    by_cases hidx : c.shardIdx op.signatureHash = c.shardIdx k
    · rw [if_pos hidx, List.filter_cons_of_pos (by simpa using hidx), List.foldl_cons]
    · rw [if_neg hidx, List.filter_cons_of_neg (by simpa using hidx)]

end SignatureLruCache

/-! ### Beside the reference cache -/

/-- A shard and the keys of the reference cache, least recently used first. -/
structure ReferencedShard where
  shard : Shard
  recency : List UInt64

namespace ReferencedShard

def start (capacity : ℕ) : ReferencedShard := ⟨Shard.new capacity, []⟩

/-- One call on the shard and on a least-recently-used cache of the given capacity. -/
def step (capacity : ℕ) (s : ReferencedShard) (op : CacheOp) : Option ReferencedShard :=
  some ⟨s.shard.step op, Eviction.lru capacity s.recency op.toCall⟩

def SameKeys (s : ReferencedShard) : Prop := ∀ k, k ∈ s.shard.entries ↔ k ∈ s.recency

/-- If the call evicts a key, then the key inserted first of all is the least recently used. -/
def EvictsLeastRecent (capacity : ℕ) (s : ReferencedShard) (op : CacheOp) : Prop :=
  Eviction.EvictsAlike capacity s.shard.order s.recency op.toCall

/-- The shard is in order and the reference cache holds each key once. -/
structure Ok (capacity : ℕ) (s : ReferencedShard) : Prop where
  shard : s.shard.Ok
  capacity_eq : s.shard.capacity = capacity
  nodup : s.recency.Nodup

variable {capacity : ℕ}

lemma ok_start (capacity : ℕ) : (start capacity).Ok capacity :=
  ⟨Shard.ok_new capacity, rfl, List.nodup_nil⟩

lemma Ok.step {s t : ReferencedShard} {op : CacheOp} (h : s.Ok capacity)
    (hstep : s.step capacity op = some t) : t.Ok capacity := by
  cases hstep
  exact ⟨Shard.ok_step h.shard op, (Shard.capacity_step s.shard op).trans h.capacity_eq,
    Eviction.nodup_lru h.nodup op.toCall⟩

lemma sameKeys_iff_perm {s : ReferencedShard} (h : s.Ok capacity) :
    s.SameKeys ↔ s.shard.order.Perm s.recency := by
  rw [List.perm_ext_iff_of_nodup h.shard.nodup h.nodup]
  apply forall_congr'
  intro k
  rw [h.shard.mem_iff]

lemma sameKeys_step_iff {s t : ReferencedShard} {op : CacheOp} (h : s.Ok capacity)
    (hsame : s.SameKeys) (hstep : s.step capacity op = some t) :
    t.SameKeys ↔ s.EvictsLeastRecent capacity op := by
  rw [sameKeys_iff_perm (h.step hstep)]
  cases hstep
  rw [Shard.order_step h.shard, h.capacity_eq]
  exact Eviction.fifo_perm_lru_iff h.shard.nodup ((sameKeys_iff_perm h).mp hsame) op.toCall

end ReferencedShard

open ReferencedShard

/-- Along any calls on a shard the resident keys are those of the least-recently-used cache,
exactly if every eviction finds the key inserted first to be the least recently used one. -/
theorem evicts_least_recent_iff (capacity : ℕ) (ops : List CacheOp) :
    (∀ done s, done <+: ops → run (step capacity) (start capacity) done = some s → s.SameKeys) ↔
      Along (step capacity) (EvictsLeastRecent capacity) (start capacity) ops := by
  obtain ⟨s, hrun⟩ := run_isSome (step capacity) (fun _ _ => rfl) (start capacity) ops
  apply forall_reached_iff_along (I := Ok capacity) _ _ _ (ok_start capacity) _ hrun
  · exact fun s op t h hstep => h.step hstep
  · exact fun s op t h hsame hstep => sameKeys_step_iff h hsame hstep
  · exact fun k => iff_of_false (AList.notMem_empty k) List.not_mem_nil

/-- A key that was looked up a moment ago is evicted, and one that never was is kept. -/
theorem recent_key_evicted :
    ∃ s, run (step 2) (start 2) [.insert 1 .pfSense, .insert 2 .suricata, .get 1,
        .insert 3 .ciscoAsa] = some s ∧
      s.shard.entries.keys = [3, 2] ∧ s.recency = [1, 3] ∧ ¬s.SameKeys := by
  refine ⟨_, rfl, rfl, rfl, ?_⟩
  intro hsame
  exact absurd ((hsame 2).mp (by decide)) (by decide)

end Ulpf.Core
