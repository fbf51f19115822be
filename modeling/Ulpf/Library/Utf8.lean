import Mathlib.Data.List.Basic
import Mathlib.Data.Nat.Notation
import Mathlib.Data.Set.List

/-!
# UTF-8 and lines

The encoding of a list of characters and its partial inverse. A line feed is the only character
with its byte in it, so cutting the bytes into lines and decoding the lines is the same as
decoding the bytes and cutting the text.
-/

namespace Ulpf.Library.Utf8

def encode (s : List Char) : List UInt8 := s.flatMap String.utf8EncodeChar

/-- The text that the bytes encode, if there is one. -/
def decode (bytes : List UInt8) : Option (List Char) :=
  (String.fromUTF8? bytes.toByteArray).map String.toList

@[simp] lemma encode_nil : encode [] = [] := rfl

lemma encode_cons (c : Char) (s : List Char) :
    encode (c :: s) = String.utf8EncodeChar c ++ encode s := rfl

lemma encode_append (s t : List Char) : encode (s ++ t) = encode s ++ encode t :=
  List.flatMap_append

lemma encode_toList (t : String) : (encode t.toList).toByteArray = t.toByteArray := by
  have hsame := congrArg String.toByteArray (String.ofList_toList (s := t))
  rwa [String.toByteArray_ofList] at hsame

lemma decode_encode (s : List Char) : decode (encode s) = some s := by
  have hvalid : (encode s).toByteArray.IsValidUTF8 := ByteArray.isValidUTF8_utf8Encode
  unfold decode String.fromUTF8?
  rw [dif_pos hvalid, Option.map_some, Option.some_inj]
  exact String.toList_ofList

lemma decode_eq_some_iff {bytes : List UInt8} {s : List Char} :
    decode bytes = some s ↔ encode s = bytes := by
  constructor
  · intro h
    obtain ⟨t, ht, rfl⟩ := Option.map_eq_some_iff.mp h
    unfold String.fromUTF8? at ht
    split_ifs at ht with hvalid
    cases ht
    exact List.toByteArray_inj.mp (encode_toList _)
  · rintro rfl
    exact decode_encode s

lemma isSome_decode_iff {bytes : List UInt8} :
    (decode bytes).isSome ↔ ∃ s, encode s = bytes := by
  rw [Option.isSome_iff_exists]
  exact exists_congr fun s => decode_eq_some_iff

/-! ### Bytes below 128 -/

lemma encodeChar_of_mem {c : Char} {b : UInt8} (hb : b ∈ String.utf8EncodeChar c)
    (hsmall : b.toNat < 128) : String.utf8EncodeChar c = [b] ∧ c.toNat = b.toNat := by
  have hofNat : ∀ n, (UInt8.ofNat n).toNat = n % 256 := fun _ => UInt8.toNat_ofNat'
  have hval : c.val.toNat = c.toNat := rfl
  unfold String.utf8EncodeChar at hb ⊢
  dsimp only at hb ⊢
  split_ifs at hb ⊢
  · rw [List.mem_singleton] at hb
    rw [hb, hofNat]
    exact ⟨rfl, by omega⟩
  · simp only [List.mem_cons, List.not_mem_nil, or_false] at hb
    rcases hb with hb | hb <;> rw [hb, hofNat] at hsmall <;> omega
  · simp only [List.mem_cons, List.not_mem_nil, or_false] at hb
    rcases hb with hb | hb | hb <;> rw [hb, hofNat] at hsmall <;> omega
  · simp only [List.mem_cons, List.not_mem_nil, or_false] at hb
    rcases hb with hb | hb | hb | hb <;> rw [hb, hofNat] at hsmall <;> omega

lemma encodeChar_cases (c : Char) :
    (∃ b, String.utf8EncodeChar c = [b] ∧ b.toNat = c.toNat ∧ b.toNat < 128) ∨
      ∀ b ∈ String.utf8EncodeChar c, 128 ≤ b.toNat := by
  by_cases hsmall : ∃ b ∈ String.utf8EncodeChar c, b.toNat < 128
  · obtain ⟨b, hb, hlt⟩ := hsmall
    obtain ⟨hencode, hval⟩ := encodeChar_of_mem hb hlt
    exact Or.inl ⟨b, hencode, hval.symm, hlt⟩
  · push Not at hsmall
    exact Or.inr hsmall

lemma byte_eq_iff {a b : UInt8} {c d : Char} (hb : b.toNat = c.toNat) (ha : a.toNat = d.toNat) :
    b = a ↔ c = d := by
  rw [← UInt8.toNat_inj, ← Char.toNat_inj, hb, ha]

lemma byte_ne_of_high {a b : UInt8} (hb : 128 ≤ b.toNat) (ha : a.toNat < 128) : b ≠ a := by
  rintro rfl
  omega

lemma char_ne_of_high {c d : Char} (hc : ∀ b ∈ String.utf8EncodeChar c, 128 ≤ b.toNat) {a : UInt8}
    (hd : a ∈ String.utf8EncodeChar d) (ha : a.toNat < 128) : c ≠ d := by
  rintro rfl
  exact byte_ne_of_high (hc a hd) ha rfl

lemma encodeChar_newline : String.utf8EncodeChar '\n' = [10] := rfl

lemma newline_mem_encodeChar_iff {c : Char} : 10 ∈ String.utf8EncodeChar c ↔ c = '\n' := by
  constructor
  · intro hmem
    exact Char.toNat_inj.mp (encodeChar_of_mem hmem (by decide)).2
  · rintro rfl
    exact List.mem_singleton.mpr rfl

/-- The first character is known from its bytes, whatever comes after them. -/
lemma encodeChar_append_inj {c d : Char} {x y : List UInt8}
    (h : String.utf8EncodeChar c ++ x = String.utf8EncodeChar d ++ y) : c = d ∧ x = y := by
  have hfirst : ∀ (e : Char) (z : List UInt8),
      ByteArray.utf8DecodeChar? (String.utf8EncodeChar e ++ z).toByteArray 0 = some e := by
    intro e z
    rw [List.toByteArray_append]
    exact ByteArray.utf8DecodeChar?_utf8EncodeChar_append
  have hchar : c = d := Option.some.inj ((hfirst c x).symm.trans (h ▸ hfirst d y))
  subst hchar
  exact ⟨rfl, List.append_cancel_left h⟩

lemma prefix_of_encode_prefix {s t : List Char} (h : encode s <+: encode t) : s <+: t := by
  induction s generalizing t with
  | nil => exact List.nil_prefix
  | cons c s ih =>
    obtain ⟨rest, hrest⟩ := h
    rw [encode_cons, List.append_assoc] at hrest
    cases t with
    | nil =>
      rw [encode_nil, List.append_eq_nil_iff] at hrest
      have hpos := String.length_utf8EncodeChar c
      rw [hrest.1] at hpos
      exact absurd hpos.symm (Nat.ne_of_gt (Char.utf8Size_pos c))
    | cons d t =>
      rw [encode_cons] at hrest
      obtain ⟨rfl, htail⟩ := encodeChar_append_inj hrest
      rw [List.prefix_cons_inj]
      exact ih ⟨rest, htail⟩

/-! ### Lines -/

lemma splitOn_append_of_notMem {α : Type*} [BEq α] [LawfulBEq α] {a : α} {xs : List α}
    (h : a ∉ xs) (ys : List α) :
    (xs ++ ys).splitOn a = (ys.splitOn a).modifyHead (xs ++ ·) := by
  induction xs with
  | nil =>
    rw [List.nil_append]
    cases ys.splitOn a <;> rfl
  | cons x xs ih =>
    have hx : x ≠ a := fun hxa => h (hxa ▸ List.mem_cons_self)
    have hxs : a ∉ xs := fun hmem => h (List.mem_cons_of_mem x hmem)
    rw [List.cons_append, List.splitOn_cons_eq_if_modifyHead, ih hxs]
    simp only [beq_iff_eq, hx, if_false]
    cases ys.splitOn a <;> rfl

lemma splitOn_terminated {α : Type*} [BEq α] [LawfulBEq α] {a : α} {msgs : List (List α)}
    (h : ∀ msg ∈ msgs, a ∉ msg) (rest : List α) :
    (msgs.flatMap (· ++ [a]) ++ rest).splitOn a = msgs ++ rest.splitOn a := by
  induction msgs with
  | nil => rfl
  | cons msg msgs ih =>
    rw [List.forall_mem_cons] at h
    have hnext : ∀ tail : List α, (a :: tail).splitOn a = [] :: tail.splitOn a := by
      intro tail
      rw [List.splitOn_cons_eq_if_modifyHead, if_pos (beq_self_eq_true a)]
    rw [List.flatMap_cons, List.append_assoc, List.append_assoc, splitOn_append_of_notMem h.1,
      List.singleton_append, hnext, ih h.2, List.modifyHead_cons, List.append_nil]
    rfl

lemma splitOn_encode (s : List Char) :
    (encode s).splitOn 10 = (s.splitOn '\n').map encode := by
  induction s with
  | nil => rfl
  | cons c s ih =>
    rw [encode_cons, List.splitOn_cons_eq_if_modifyHead]
    by_cases hc : c = '\n'
    · subst hc
      rw [encodeChar_newline, List.singleton_append, List.splitOn_cons_eq_if_modifyHead, ih]
      rfl
    · have hnot : 10 ∉ String.utf8EncodeChar c := fun h => hc (newline_mem_encodeChar_iff.mp h)
      rw [splitOn_append_of_notMem hnot, ih]
      simp only [beq_iff_eq, hc, if_false]
      cases s.splitOn '\n' <;> simp [encode_cons]

lemma encode_intercalate (ts : List (List Char)) :
    encode (['\n'].intercalate ts) = [10].intercalate (ts.map encode) := by
  induction ts with
  | nil => rfl
  | cons t ts ih =>
    cases ts with
    | nil => simp
    | cons u ts =>
      have hne : (u :: ts).map encode ≠ [] := by simp
      rw [List.intercalate_cons_cons, encode_append, encode_append, ih]
      exact (List.intercalate_cons_of_ne_nil hne).symm

/-- Bytes are valid exactly if each of their lines is. -/
theorem isSome_decode_iff_lines {bytes : List UInt8} :
    (decode bytes).isSome ↔ ∀ line ∈ bytes.splitOn 10, (decode line).isSome := by
  constructor
  · intro h line hline
    obtain ⟨s, rfl⟩ := isSome_decode_iff.mp h
    rw [splitOn_encode, List.mem_map] at hline
    obtain ⟨t, -, rfl⟩ := hline
    exact isSome_decode_iff.mpr ⟨t, rfl⟩
  · intro h
    have hlines : bytes.splitOn 10 ∈ Set.range (List.map encode) := by
      rw [Set.range_list_map]
      exact fun line hline => isSome_decode_iff.mp (h line hline)
    obtain ⟨ts, hts⟩ := hlines
    refine isSome_decode_iff.mpr ⟨['\n'].intercalate ts, ?_⟩
    rw [encode_intercalate, hts, List.intercalate_splitOn]

end Ulpf.Library.Utf8
