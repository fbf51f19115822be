import Mathlib.Data.List.Nodup
import Mathlib.Data.Set.Function
import Ulpf.Library.Sha256

/-!
# Digests

`Hash` is the 256-bit digest of `merkle.rs`, with its hexadecimal text. The digest
function itself is the `sha2` crate; it is a parameter `sha256` of the development, and
where collisions matter a theorem names the byte strings on which it may have none.
-/

namespace Ulpf.Integrity

abbrev Bytes := List UInt8

def asBytes (s : String) : Bytes := s.toByteArray.data.toList

lemma asBytes_injective : Function.Injective asBytes := by
  intro s t h
  exact String.toByteArray_inj.mp (ByteArray.ext (Array.toList_inj.mp h))

structure Hash where
  bytes : Bytes
  length_eq : bytes.length = 32
deriving DecidableEq

/-- The two lower-case digits `hex::encode` writes for a byte. -/
def hexByte (b : UInt8) : List Char :=
  [Nat.digitChar (b.toNat / 16), Nat.digitChar (b.toNat % 16)]

def hexEncode (bs : Bytes) : String := String.ofList (bs.flatMap hexByte)

def Hash.toHex (h : Hash) : String := hexEncode h.bytes

lemma digitChar_inj : ∀ {a b : ℕ}, a < 16 → b < 16 → Nat.digitChar a = Nat.digitChar b → a = b := by
  have h : ∀ a b : Fin 16, Nat.digitChar a = Nat.digitChar b → a = b := by decide
  intro a b ha hb hab
  exact congrArg Fin.val (h ⟨a, ha⟩ ⟨b, hb⟩ hab)

lemma hexByte_injective : Function.Injective hexByte := by
  intro a b h
  have ha := a.toNat_lt
  have hb := b.toNat_lt
  simp only [hexByte, List.cons.injEq, and_true] at h
  have hdiv := digitChar_inj (by omega) (by omega) h.1
  have hmod := digitChar_inj (by omega) (by omega) h.2
  apply UInt8.toNat_inj.mp
  omega

/-- Distinct byte strings have distinct hexadecimal texts. -/
theorem hexEncode_injective : Function.Injective hexEncode := by
  intro s t h
  have h' : s.flatMap hexByte = t.flatMap hexByte := String.ofList_injective h
  clear h
  induction s generalizing t with
  | nil =>
    cases t with
    | nil => rfl
    | cons b t => simp [hexByte] at h'
  | cons a s ih =>
    cases t with
    | nil => simp [hexByte] at h'
    | cons b t =>
      rw [List.flatMap_cons, List.flatMap_cons] at h'
      obtain ⟨hab, hst⟩ := List.append_inj h' rfl
      rw [hexByte_injective hab, ih hst]

lemma Hash.toHex_injective : Function.Injective Hash.toHex := by
  rintro ⟨a, ha⟩ ⟨b, hb⟩ h
  cases hexEncode_injective h
  rfl

/-- SHA-256 itself, for runs on concrete inputs. -/
def sha2 (bs : Bytes) : Hash :=
  ⟨Ulpf.Library.Sha256.digest bs, Ulpf.Library.Sha256.length_digest bs⟩

/-! ### The digests of RFC 6962 -/

/-- Domain separation prefixes as mandated by RFC 6962 Section 2.1. -/
def leafPrefix : UInt8 := 0x00
def nodePrefix : UInt8 := 0x01

/-- The three digest functions of the Merkle tree, over any type of digests. -/
structure Hasher (Digest : Type*) where
  hashLeaf : Bytes → Digest
  hashChildren : Digest → Digest → Digest
  emptyTreeHash : Digest

/-- What `hash_leaf` feeds to SHA-256. -/
def leafInput (data : Bytes) : Bytes := leafPrefix :: data

/-- What `hash_children` feeds to SHA-256. -/
def nodeInput (left right : Hash) : Bytes := nodePrefix :: (left.bytes ++ right.bytes)

def sha256Hasher (sha256 : Bytes → Hash) : Hasher Hash where
  hashLeaf data := sha256 (leafInput data)
  hashChildren left right := sha256 (nodeInput left right)
  emptyTreeHash := sha256 []

lemma leafInput_injective : Function.Injective leafInput := fun _ _ h => (List.cons.inj h).2

lemma nodeInput_inj {a b c d : Hash} (h : nodeInput a b = nodeInput c d) : a = c ∧ b = d := by
  have hab := List.append_inj (List.cons.inj h).2 (a.length_eq.trans c.length_eq.symm)
  cases a
  cases b
  cases c
  cases d
  simpa using hab

lemma leafInput_ne_nodeInput (data : Bytes) (a b : Hash) : leafInput data ≠ nodeInput a b := by
  intro h
  exact absurd (List.cons.inj h).1 (by decide)

/-- SHA-256 has no collision among the listed inputs. -/
def CollisionFree (sha256 : Bytes → Hash) (inputs : List Bytes) : Prop :=
  Set.InjOn sha256 {b | b ∈ inputs}

lemma CollisionFree.mono {sha256 : Bytes → Hash} {inputs inputs' : List Bytes}
    (h : CollisionFree sha256 inputs') (hsub : inputs ⊆ inputs') : CollisionFree sha256 inputs :=
  Set.InjOn.mono (fun _ hb => hsub hb) h

lemma collisionFree_of_nodup {sha256 : Bytes → Hash} {inputs : List Bytes}
    (h : (inputs.map sha256).Nodup) : CollisionFree sha256 inputs :=
  fun _ ha _ hb hab => List.inj_on_of_nodup_map h ha hb hab

end Ulpf.Integrity
