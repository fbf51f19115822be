import Ulpf.Integrity.Forensics
import Ulpf.Integrity.Inclusion

/-!
# Evidence from the ledger

An auditor who has the ledger alone reads the root of an entry from its text and checks audit
paths against it. Over any run the entries answer for logs that were pushed, in their order; each
archived log has a path that is accepted, and nothing else has one.
-/

namespace Ulpf.Integrity
open Ulpf.Library

/-! ### Digests read from text -/

/-- The value of a digit of either case. -/
def hexValue (c : Char) : Option ℕ :=
  if '0' ≤ c ∧ c ≤ '9' then some (c.toNat - 48)
  else if 'a' ≤ c ∧ c ≤ 'f' then some (c.toNat - 87)
  else if 'A' ≤ c ∧ c ≤ 'F' then some (c.toNat - 55)
  else none

/-- `hex::decode`; a text of odd length is refused. -/
def hexDecode : List Char → Option Bytes
  | [] => some []
  | [_] => none
  | high :: low :: rest => do
    let h ← hexValue high
    let l ← hexValue low
    let bytes ← hexDecode rest
    some (UInt8.ofNat (16 * h + l) :: bytes)

def Hash.fromHex (s : String) : Option Hash :=
  (hexDecode s.toList).bind fun bytes => if h : bytes.length = 32 then some ⟨bytes, h⟩ else none

lemma hexValue_digitChar : ∀ {n : ℕ}, n < 16 → hexValue (Nat.digitChar n) = some n := by
  have h : ∀ n : Fin 16, hexValue (Nat.digitChar n) = some n.val := by decide
  intro n hn
  exact h ⟨n, hn⟩

lemma hexDecode_hexByte (bytes : Bytes) : hexDecode (bytes.flatMap hexByte) = some bytes := by
  induction bytes with
  | nil => rfl
  | cons byte bytes ih =>
    have hbyte := byte.toNat_lt
    have hvalue : 16 * (byte.toNat / 16) + byte.toNat % 16 = byte.toNat := by omega
    rw [List.flatMap_cons, hexByte, List.cons_append, List.cons_append, List.nil_append, hexDecode,
      hexValue_digitChar (by omega), hexValue_digitChar (by omega), ih]
    simp only [Option.bind_eq_bind, Option.bind_some, hvalue, UInt8.ofNat_toNat]

lemma fromHex_toHex (h : Hash) : Hash.fromHex h.toHex = some h := by
  rw [Hash.fromHex, Hash.toHex, hexEncode, String.toList_ofList, hexDecode_hexByte,
    Option.bind_some, dif_pos h.length_eq]

/-! ### The logs that the ledger answers for -/

/-- The logs that a step hands to the accumulator. -/
def ArchiveOp.pushed : ArchiveOp → List String
  | session (.call op) => op.pushed.map IncomingLog.rawLog
  | _ => []

def submitted (ops : List ArchiveOp) : List String := ops.flatMap ArchiveOp.pushed

/-- The ledger consists of flushes of logs that were submitted, in their order; what is left of
the others is in the buffer. -/
structure Recorded (sha256 : Bytes → Hash) (dir : String) (blocks : List (BlockWrite × LedgerEntry))
    (logs : List String) (b : Batcher) : Prop where
  chronicle : Chronicle sha256 dir blocks b
  logs : (blockLogs blocks ++ bufferedLogs b).Sublist logs

variable {sha256 : Bytes → Hash} {overflowChecks : Bool} {regex : AddressRegex} {dir : String}
  {blocks : List (BlockWrite × LedgerEntry)} {logs : List String} {b b' : Batcher}

lemma Recorded.accept (h : Recorded sha256 dir blocks logs b) (op : BatchOp) :
    Recorded sha256 dir blocks (logs ++ op.pushed.map IncomingLog.rawLog) (op.accept b) where
  chronicle := h.chronicle.accept op
  logs := by
    rw [bufferedLogs_accept, ← List.append_assoc]
    exact h.logs.append_right _

lemma bufferedLogs_of_step {op : BatchOp} (hstep : op.step sha256 overflowChecks b = some b')
    (hmoved : b'.acc.currentBlockId ≠ (op.accept b).acc.currentBlockId) : bufferedLogs b' = [] := by
  obtain ⟨out, hcall, rfl⟩ := Option.map_eq_some_iff.mp hstep
  rw [BatchOp.call_eq] at hcall
  split_ifs at hcall with hreach
  · cases flushes_of_flush hcall with
    | idle hempty => exact absurd rfl hmoved
    | unwritten nextId fault hne hid hfault => rfl
    | unanchored nextId fault hne hid hstored hfault => rfl
    | anchored nextId hne hid hok => rfl
  · cases hcall
    exact absurd rfl hmoved

lemma FlushEffect.moved {env : FlushEnv} {nextId : UInt64}
    (h : FlushEffect sha256 overflowChecks b b' env nextId) :
    b'.acc.currentBlockId ≠ b.acc.currentBlockId := by
  rw [h.currentBlockId, (nextBlockId_eq_some h.nextId_eq).1]
  intro hsame
  have hnat := congrArg UInt64.toNat hsame
  rw [UInt64.toNat_add, UInt64.toNat_one] at hnat
  have hlt := b.acc.currentBlockId.toNat_lt
  omega

/-- A flush moves the buffer into a block of the ledger, or loses it. -/
lemma Recorded.flush (h : Recorded sha256 dir blocks logs b) {env : FlushEnv} {nextId : UInt64}
    (heffect : FlushEffect sha256 overflowChecks b b' env nextId)
    (hdrained : bufferedLogs b' = []) : ∃ blocks', Recorded sha256 dir blocks' logs b' := by
  rcases heffect.ledgers with ⟨hledger, hmemory⟩ | rfl
  · refine ⟨blocks, h.chronicle.abandon heffect hledger hmemory, ?_⟩
    rw [hdrained, List.append_nil]
    exact (List.sublist_append_left _ _).trans h.logs
  · refine ⟨_, h.chronicle.anchor env nextId heffect.nonempty, ?_⟩
    have hblocks : blockLogs (blocks ++ [(flushedBlock sha256 b.acc env,
        flushedEntry sha256 b.acc env)]) = blockLogs blocks ++ bufferedLogs b := by
      rw [blockLogs, List.flatMap_append, List.flatMap_singleton, rawLogs_flushedBlock]
      rfl
    rw [hblocks, hdrained, List.append_nil]
    exact h.logs

lemma Recorded.step (h : Recorded sha256 dir blocks logs b) {op : ArchiveOp}
    (hstep : op.step sha256 overflowChecks regex b = some b') :
    ∃ blocks', Recorded sha256 dir blocks' (logs ++ op.pushed) b' := by
  cases op with
  | session op =>
    cases op with
    | call op =>
      rcases call_effect hstep with rfl | ⟨nextId, heffect⟩
      · exact ⟨blocks, h.accept op⟩
      · exact (h.accept op).flush heffect (bufferedLogs_of_step hstep heffect.moved)
    | reopen config =>
      obtain ⟨id, -, rfl⟩ := reopen_eq_some h.chronicle hstep
      refine ⟨blocks, h.chronicle.congr rfl (List.Subset.refl _) rfl rfl, ?_⟩
      change (blockLogs blocks ++ []).Sublist (logs ++ [])
      rw [List.append_nil, List.append_nil]
      exact (List.sublist_append_left _ _).trans h.logs
  | tamper path leaf ip fault =>
    cases hstep
    refine ⟨blocks, h.chronicle.congr rfl ?_ rfl rfl, ?_⟩
    · change b.disk.files ⊆ runTamper regex b.disk.files path leaf ip fault
      rcases runTamper_cases regex b.disk.files path leaf ip fault with
        hsame | ⟨_, _, _, _, _, _, hmore⟩
      · rw [hsame]
        exact List.Subset.refl _
      · rw [hmore]
        exact List.subset_append_left _ _
    · change (blockLogs blocks ++ bufferedLogs b).Sublist (logs ++ [])
      rw [List.append_nil]
      exact h.logs

lemma recorded_of_run {start : Batcher} {ops : List ArchiveOp}
    (hstart : Recorded sha256 dir [] [] start)
    (hrun : run (ArchiveOp.step sha256 overflowChecks regex) start ops = some b) :
    ∃ blocks, Recorded sha256 dir blocks (submitted ops) b := by
  refine run_induction (motive := fun done b => ∃ blocks, Recorded sha256 dir blocks
    (submitted done) b) _ ⟨[], hstart⟩ ?_ hrun
  rintro done op u v - ⟨blocks, h⟩ hstep
  rw [submitted, List.flatMap_append, List.flatMap_singleton]
  exact h.step hstep

lemma recorded_new {config : BatcherConfig} {disk : Disk} {acc : BatchAccumulator}
    (hfresh : disk.ledgerLines = [])
    (hnew : BatchAccumulator.new overflowChecks config disk = some (.ok acc)) :
    Recorded sha256 config.storageDir [] [] ⟨acc, disk⟩ where
  chronicle := (kept_new hfresh hnew).chronicle
  logs := by
    obtain ⟨-, hbuffer, -⟩ := new_eq_some hnew
    rw [bufferedLogs, hbuffer]
    exact List.Sublist.slnil

/-! ### Audit paths against the ledger -/

lemma verify_of_getElem? {logs : List Bytes} {i : ℕ} {rawLog : Bytes} (h : logs[i]? = some rawLog) :
    ∃ proof, (MerkleTree.fromRawLogs (sha256Hasher sha256) logs).inclusionProof i = .ok proof ∧
      proof.leafIndex = i ∧ proof.treeSize = logs.length ∧
      proof.verify (sha256Hasher sha256) rawLog
        (MerkleTree.fromRawLogs (sha256Hasher sha256) logs).root = true := by
  have hleaf : (logs.map (sha256Hasher sha256).hashLeaf)[i]? =
      some ((sha256Hasher sha256).hashLeaf rawLog) := by
    rw [List.getElem?_map, h, Option.map_some]
  obtain ⟨hlt, -⟩ := List.getElem?_eq_some_iff.mp hleaf
  refine ⟨_, inclusionProof_of_lt _ hlt, rfl, List.length_map _, ?_⟩
  exact verify_collectAuditPath _ (List.length_pos_iff.mp (by omega)) hleaf

end Ulpf.Integrity
