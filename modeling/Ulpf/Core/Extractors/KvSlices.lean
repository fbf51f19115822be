import Ulpf.Core.Extractors.Fortigate
import Ulpf.Library.Utf8

/-!
# The slices of the key-value tokenizer

`KvTokenizer::next` as the source has it, with byte offsets and a loop over bytes, refines the
walk over characters. The only slice that can miss a character boundary is the one after the
last separator before an `=`.
-/

namespace Ulpf.Core.KvTokenizer
open Ulpf.Library

/-- The loop over the bytes of a quoted value; the index of the quote that closes it. -/
def closingQuote (escaped : Bool) (idx : ℕ) : List UInt8 → Option ℕ
  | [] => none
  | b :: bytes =>
    if escaped then closingQuote false (idx + 1) bytes
    else if b = 92 then closingQuote true (idx + 1) bytes
    else if b = 34 then some idx
    else closingQuote false (idx + 1) bytes

/-- The word immediately preceding the `=`, by the byte offset of the last separator. -/
def wordSlice (rawKey : Text) : Option Text :=
  match rfindPos isKeySeparator rawKey with
  | some spacePos => sliceFrom rawKey (spacePos + 1)
  | none => some rawKey

/-- The value after an `=` and the rest of the line, by byte offsets. -/
def valueSlices (afterEq : Text) : Option (Text × Text) :=
  match stripPrefix afterEq "\"" with
  | some inner =>
    match closingQuote false 0 (utf8Bytes inner) with
    | some closeIdx => do
      let val ← sliceTo inner closeIdx
      let rest ← sliceFrom inner (closeIdx + 1)
      some (val, rest)
    | none => some (inner, [])
  | none =>
    match findPos isWhitespace afterEq with
    | some idx => do
      let val ← sliceTo afterEq idx
      let rest ← sliceFrom afterEq idx
      some (val, rest)
    | none => some (afterEq, [])

/-- One call of `next`: the item, if there is one, and the text that is left. There is no value
where a slice panics. -/
def next (isAlphanumeric : Char → Bool) (s : Text) : Option (Option (Text × Text) × Text) :=
  let s := trimStart s
  if s = [] then some (none, s)
  else
    match findPos (· == '=') s with
    | none => some (none, s)
    | some eqPos => do
      let rawKey ← sliceTo s eqPos
      let word ← wordSlice rawKey
      let key := word.dropWhile fun c => !isAlphanumeric c && c != '_'
      let afterEq ← sliceFrom s (eqPos + 1)
      let (val, rest) ← valueSlices afterEq
      some (some (key, val), rest)

/-- Calls of `next` until it returns `None` yield the items, and none of them panics. -/
inductive Yields (isAlphanumeric : Char → Bool) : Text → List (Text × Text) → Prop where
  | done {s left : Text} (h : next isAlphanumeric s = some (none, left)) :
      Yields isAlphanumeric s []
  | item {s left : Text} {pair : Text × Text} {pairs : List (Text × Text)}
      (h : next isAlphanumeric s = some (some pair, left))
      (hrest : Yields isAlphanumeric left pairs) : Yields isAlphanumeric s (pair :: pairs)

/-- `KvTokenizer::new(input).collect()` -/
def Tokenizes (isAlphanumeric : Char → Bool) (input : Text) (pairs : List (Text × Text)) : Prop :=
  Yields isAlphanumeric (trim input) pairs

/-! ### The closing quote -/

lemma utf8Bytes_cons (c : Char) (s : Text) :
    utf8Bytes (c :: s) = String.utf8EncodeChar c ++ utf8Bytes s := rfl

lemma closingQuote_high {bytes : List UInt8} (h : ∀ b ∈ bytes, 128 ≤ b.toNat) (hne : bytes ≠ [])
    (escaped : Bool) (idx : ℕ) (rest : List UInt8) :
    closingQuote escaped idx (bytes ++ rest) = closingQuote false (idx + bytes.length) rest := by
  induction bytes generalizing escaped idx with
  | nil => exact absurd rfl hne
  | cons b bytes ih =>
    rw [List.forall_mem_cons] at h
    have hbackslash : b ≠ 92 := Utf8.byte_ne_of_high h.1 (by decide)
    have hquote : b ≠ 34 := Utf8.byte_ne_of_high h.1 (by decide)
    have hstep : closingQuote escaped idx (b :: bytes ++ rest) =
        closingQuote false (idx + 1) (bytes ++ rest) := by
      cases escaped <;> simp [closingQuote, hbackslash, hquote]
    rw [hstep, List.length_cons]
    cases bytes with
    | nil => rfl
    | cons b' bytes =>
      rw [ih h.2 (List.cons_ne_nil _ _)]
      congr 1
      omega

lemma closingQuote_char (escaped : Bool) (idx : ℕ) (c : Char) (bytes : List UInt8) :
    closingQuote escaped idx (String.utf8EncodeChar c ++ bytes) =
      if !escaped && c == '"' then some idx
      else closingQuote (!escaped && c == '\\') (idx + c.utf8Size) bytes := by
  rcases Utf8.encodeChar_cases c with ⟨b, hencode, hb, hsmall⟩ | hhigh
  · have hsize : c.utf8Size = 1 := by
      rw [← String.length_utf8EncodeChar, hencode, List.length_singleton]
    have hquote : b = 34 ↔ c = '"' := Utf8.byte_eq_iff hb rfl
    have hbackslash : b = 92 ↔ c = '\\' := Utf8.byte_eq_iff hb rfl
    rw [hencode, List.singleton_append, closingQuote, hsize]
    cases escaped with
    | true => rfl
    | false =>
      simp only [hquote, hbackslash, Bool.false_eq_true, if_false, Bool.not_false, Bool.true_and,
        beq_iff_eq]
      by_cases hc : c = '"'
      · subst hc
        rfl
      · by_cases hc' : c = '\\'
        · subst hc'
          rfl
        · have hbeq : (c == '\\') = false := beq_eq_false_iff_ne.mpr hc'
          rw [if_neg hc', if_neg hc, if_neg hc, hbeq]
  · have hne : String.utf8EncodeChar c ≠ [] := by
      rw [← List.length_pos_iff, String.length_utf8EncodeChar]
      exact c.utf8Size_pos
    have hquote : c ≠ '"' := Utf8.char_ne_of_high hhigh (a := 34) (by decide) (by decide)
    have hbackslash : c ≠ '\\' := Utf8.char_ne_of_high hhigh (a := 92) (by decide) (by decide)
    have hbeq : (c == '\\') = false := beq_eq_false_iff_ne.mpr hbackslash
    have hbeq' : (c == '"') = false := beq_eq_false_iff_ne.mpr hquote
    rw [closingQuote_high hhigh hne, String.length_utf8EncodeChar, hbeq, hbeq', Bool.and_false,
      if_neg Bool.false_ne_true]

lemma closingQuote_eq (escaped : Bool) (idx : ℕ) (s : Text) :
    closingQuote escaped idx (utf8Bytes s) =
      (quoted escaped s).map fun p => idx + utf8Len p.1 := by
  induction s generalizing escaped idx with
  | nil => rfl
  | cons c s ih =>
    rw [utf8Bytes_cons, closingQuote_char, quoted]
    split_ifs
    · rfl
    · rw [ih, Option.map_map]
      congr 1
      funext p
      simp only [Function.comp_apply, utf8Len]
      omega

/-! ### Refinement -/

lemma quoted_eq_some {escaped : Bool} {s val rest : Text}
    (h : quoted escaped s = some (val, rest)) : s = val ++ '"' :: rest := by
  induction s generalizing escaped val with
  | nil => cases h
  | cons c s ih =>
    simp only [quoted] at h
    split_ifs at h with hclose
    · rw [Bool.and_eq_true, beq_iff_eq] at hclose
      cases h
      rw [hclose.2, List.nil_append]
    · obtain ⟨⟨tail, rest'⟩, htail, heq⟩ := Option.map_eq_some_iff.mp h
      cases heq
      rw [ih htail, List.cons_append]

lemma valueSlices_eq (afterEq : Text) : valueSlices afterEq = some (value afterEq) := by
  by_cases hquote : ∃ inner, afterEq = '"' :: inner
  · obtain ⟨inner, rfl⟩ := hquote
    have hstrip : stripPrefix ('"' :: inner) "\"" = some inner := rfl
    rw [valueSlices, hstrip, value]
    dsimp only
    rw [closingQuote_eq]
    cases hquoted : quoted false inner with
    | none => rfl
    | some p =>
      obtain ⟨val, rest⟩ := p
      have hsplit := quoted_eq_some hquoted
      have hval : sliceTo inner (utf8Len val) = some val := by rw [hsplit, sliceTo_append]
      have hrest : sliceFrom inner (utf8Len val + 1) = some rest := by
        rw [hsplit, sliceFrom_append_add]
        exact sliceFrom_zero rest
      simp [hval, hrest]
  · have hstrip : stripPrefix afterEq "\"" = none := by
      cases afterEq with
      | nil => rfl
      | cons c s =>
        have hc : c ≠ '"' := fun hc => hquote ⟨s, by rw [hc]⟩
        have hstart : startsWith (c :: s) "\"" = false := by
          change ('"' == c && true) = false
          simpa using hc.symm
        rw [stripPrefix, hstart]
        rfl
    have hvalue : value afterEq =
        (afterEq.takeWhile (!isWhitespace ·), afterEq.dropWhile (!isWhitespace ·)) := by
      unfold value
      split
      · next inner => exact absurd ⟨inner, rfl⟩ hquote
      · rfl
    rw [valueSlices, hstrip, hvalue]
    dsimp only
    rcases exists_first_cut isWhitespace afterEq with hnone | ⟨val, c, rest, rfl, hval, hc⟩
    · rw [(takeWhile_not_eq_self hnone).1, (takeWhile_not_eq_self hnone).2, findPos_eq_none hnone]
    · rw [(takeWhile_not_append_cons hval hc rest).1, (takeWhile_not_append_cons hval hc rest).2,
        findPos_append_cons hval hc]
      simp [sliceTo_append, sliceFrom_append]

lemma keyOf_eq (isAlphanumeric : Char → Bool) (rawKey : Text) :
    keyOf isAlphanumeric rawKey = (wordSlice rawKey).map
      fun word => word.dropWhile fun c => !isAlphanumeric c && c != '_' := by
  unfold keyOf wordSlice
  cases hlast : lastSeparator rawKey with
  | none =>
    have hnone : ∀ c ∈ rawKey, isKeySeparator c = false := by
      intro c hc
      simpa using List.find?_eq_none.mp hlast c (List.mem_reverse.mpr hc)
    have htake : rawKey.reverse.takeWhile (!isKeySeparator ·) = rawKey.reverse := by
      rw [List.takeWhile_eq_self_iff]
      intro c hc
      simp [hnone c (List.mem_reverse.mp hc)]
    rw [rfindPos_eq_none hnone, htake, List.reverse_reverse]
    rfl
  | some c =>
    obtain ⟨hc, word, before, hsplit, hword⟩ := List.find?_eq_some_iff_append.mp hlast
    have hraw : rawKey = before.reverse ++ c :: word.reverse := by
      rw [← List.reverse_reverse rawKey, hsplit, List.reverse_append, List.reverse_cons,
        List.append_assoc, List.singleton_append]
    have hword' : ∀ d ∈ word.reverse, isKeySeparator d = false := by
      intro d hd
      simpa using hword d (List.mem_reverse.mp hd)
    have htake : rawKey.reverse.takeWhile (!isKeySeparator ·) = word := by
      rw [hsplit, List.takeWhile_append_of_pos (by simpa using hword), List.takeWhile_cons_of_neg
        (by simp [hc]), List.append_nil]
    have hfind : rfindPos isKeySeparator rawKey = some (utf8Len before.reverse) := by
      rw [hraw]
      exact rfindPos_append_cons hc hword' _
    have hslice : sliceFrom rawKey (utf8Len before.reverse + 1) =
        if c.utf8Size = 1 then some word.reverse else none := by
      have hpos := c.utf8Size_pos
      rw [hraw, sliceFrom_append_add, sliceFrom]
      by_cases hsize : c.utf8Size = 1
      · rw [if_pos hsize.le, hsize, if_pos rfl, Nat.sub_self, sliceFrom_zero]
      · rw [if_neg (by omega), if_neg hsize]
    rw [hfind, htake]
    dsimp only
    rw [hslice]
    by_cases hsize : c.utf8Size = 1 <;> simp [hsize]

/-- A call of `next` takes the next pair of the walk, or panics at the slice of its key. -/
theorem next_eq (isAlphanumeric : Char → Bool) (s : Text) :
    next isAlphanumeric s =
      match splitPair s with
      | none => some (none, trimStart s)
      | some ((rawKey, val), rest) =>
        (keyOf isAlphanumeric rawKey).map fun key => (some (key, val), rest) := by
  unfold next splitPair
  dsimp only
  generalize trimStart s = s
  rcases exists_first_cut (· == '=') s with hnone | ⟨rawKey, c, afterEq, rfl, hraw, hc⟩
  · have hdrop : s.dropWhile (· != '=') = [] := (takeWhile_not_eq_self hnone).2
    rw [findPos_eq_none hnone, hdrop]
    split_ifs <;> rfl
  · have htake : (rawKey ++ c :: afterEq).takeWhile (· != '=') = rawKey :=
      (takeWhile_not_append_cons hraw hc afterEq).1
    have hdrop : (rawKey ++ c :: afterEq).dropWhile (· != '=') = c :: afterEq :=
      (takeWhile_not_append_cons hraw hc afterEq).2
    have hafter : sliceFrom (rawKey ++ c :: afterEq) (utf8Len rawKey + 1) = some afterEq := by
      rw [sliceFrom_append_add, beq_iff_eq.mp hc]
      exact sliceFrom_zero afterEq
    rw [if_neg (by simp), findPos_append_cons hraw hc, htake, hdrop]
    dsimp only
    rw [sliceTo_append, keyOf_eq]
    cases hword : wordSlice rawKey <;> simp [hword, hafter, valueSlices_eq]

end Ulpf.Core.KvTokenizer
