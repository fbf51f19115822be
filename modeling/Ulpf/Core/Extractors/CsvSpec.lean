import Mathlib.Algebra.Group.Nat.Even
import Ulpf.Core.Extractors.CsvRoundTrip
import Ulpf.Core.Extractors.Fortigate
import Ulpf.Library.Pieces

/-!
# Fields between commas

Whatever the quotes of a text, `split_csv` cuts it at the commas preceded by an even number of
double quotes, and no slice of its loop falls inside a character.
-/

namespace Ulpf.Core
open Ulpf.Library

/-- The positions of the commas preceded by an even number of double quotes. -/
def csvSeparators (s : Text) : List ℕ :=
  (List.range s.length).filter fun j => s[j]? = some ',' ∧ Even ((s.take j).count '"')

/-- The separators in a text that comes after `quotes` double quotes. -/
def csvSeparatorsAfter (quotes : ℕ) (s : Text) : List ℕ :=
  (List.range s.length).filter fun j => s[j]? = some ',' ∧ Even (quotes + (s.take j).count '"')

lemma csvSeparatorsAfter_zero (s : Text) : csvSeparatorsAfter 0 s = csvSeparators s := by
  simp only [csvSeparatorsAfter, csvSeparators, Nat.zero_add]

lemma csvSeparatorsAfter_cons (quotes : ℕ) (c : Char) (s : Text) :
    csvSeparatorsAfter quotes (c :: s) = (if c = ',' ∧ Even quotes then [0] else []) ++
      (csvSeparatorsAfter (quotes + [c].count '"') s).map (· + 1) := by
  have hrest : (List.range s.length).filter
      ((fun j => decide ((c :: s)[j]? = some ',' ∧ Even (quotes + ((c :: s).take j).count '"'))) ∘
        Nat.succ) = csvSeparatorsAfter (quotes + [c].count '"') s := by
    apply List.filter_congr
    intro j _
    have hcount : ((c :: s).take (j + 1)).count '"' = [c].count '"' + (s.take j).count '"' := by
      rw [List.take_succ_cons, ← List.singleton_append, List.count_append]
    simp only [Function.comp_apply, Nat.succ_eq_add_one, List.getElem?_cons_succ, hcount,
      Nat.add_assoc]
  rw [csvSeparatorsAfter, List.length_cons, List.range_succ_eq_map, List.filter_cons,
    List.filter_map, hrest]
  simp only [List.getElem?_cons_zero, Option.some.injEq, List.take_zero, List.count_nil,
    Nat.add_zero, decide_eq_true_eq]
  split_ifs <;> rfl

lemma csvCuts_eq_cutAt (quotes : ℕ) (s : Text) :
    csvCuts (!decide (Even quotes)) s = cutAt s (csvSeparatorsAfter quotes s) := by
  induction s generalizing quotes with
  | nil => rfl
  | cons c s ih =>
    rw [csvSeparatorsAfter_cons]
    by_cases hquote : c = '"'
    · have hparity : (!!decide (Even quotes)) = !decide (Even (quotes + 1)) := by
        rw [Bool.not_not, ← decide_not, decide_eq_decide, Nat.even_add_one, not_not]
      have hcount : [c].count '"' = 1 := by simp [hquote]
      have hsep : ¬(c = ',' ∧ Even quotes) := by simp [hquote]
      rw [csvCuts, if_pos (by simp [hquote]), hparity, ih, hcount, if_neg hsep, List.nil_append,
        cutAt_cons]
    · have hcount : [c].count '"' = 0 := by simp [hquote]
      rw [csvCuts, if_neg (by simp [hquote]), Bool.not_not, ih, hcount, Nat.add_zero]
      by_cases hsep : c = ',' ∧ Even quotes
      · rw [if_pos (by simp [hsep]), if_pos hsep]
        exact (cutAt_cons_zero c s _).symm
      · rw [if_neg (by simpa using hsep), if_neg hsep, List.nil_append, cutAt_cons]

/-! ### Slices that are taken -/

lemma sliceFrom_eq_some {s t : Text} {n : ℕ} (h : sliceFrom s n = some t) :
    ∃ done, done ++ t = s ∧ utf8Len done = n := by
  induction s generalizing n with
  | nil =>
    cases n with
    | zero => exact ⟨[], by simpa [sliceFrom] using h.symm, rfl⟩
    | succ n => cases h
  | cons c s ih =>
    cases n with
    | zero => exact ⟨[], by simpa [sliceFrom] using h.symm, rfl⟩
    | succ n =>
      rw [sliceFrom] at h
      split_ifs at h with hfits
      obtain ⟨done, hs, hlen⟩ := ih h
      refine ⟨c :: done, congrArg _ hs, ?_⟩
      rw [utf8Len, hlen]
      omega

lemma slice_eq_some {s t : Text} {start stop : ℕ} (h : slice s start stop = some t) :
    start ≤ stop ∧ IsCharBoundary s start ∧ IsCharBoundary s stop := by
  rw [slice] at h
  split_ifs at h with hle
  obtain ⟨rest, hfrom, hto⟩ := Option.bind_eq_some_iff.mp h
  obtain ⟨done, hs, hdone⟩ := sliceFrom_eq_some hfrom
  obtain ⟨⟨after, hrest⟩, hlen⟩ := sliceTo_eq_some_iff.mp hto
  refine ⟨hle, ⟨done, ⟨rest, hs⟩, hdone⟩, done ++ t, ⟨after, ?_⟩, ?_⟩
  · rw [List.append_assoc, hrest, hs]
  · rw [utf8Len_append, hdone, hlen]
    omega

lemma slice_utf8Len {s : Text} {start : ℕ} (h : start ≤ utf8Len s) :
    slice s start (utf8Len s) = sliceFrom s start := by
  rw [slice, if_pos h]
  cases hfrom : sliceFrom s start with
  | none => rfl
  | some t =>
    obtain ⟨done, rfl, rfl⟩ := sliceFrom_eq_some hfrom
    rw [Option.bind_some, utf8Len_append, Nat.add_sub_cancel_left]
    simpa using sliceTo_append t []

/-! ### The loop as written -/

/-- What the loop of `split_csv` changes. -/
structure CsvLoop where
  fields : List Text
  inQuotes : Bool
  start : ℕ

/-- `while i < bytes.len()` -/
def CsvLoop.run (input : Text) (i : ℕ) (l : CsvLoop) : List UInt8 → Option CsvLoop
  | [] => some l
  | b :: bytes =>
    if b = 34 then CsvLoop.run input (i + 1) { l with inQuotes := !l.inQuotes } bytes
    else if b = 44 && !l.inQuotes then do
      let field ← slice input l.start i
      let l' := { l with
        fields := l.fields ++ [trim (trimMatches (· == '"') field)]
        start := i + 1 }
      CsvLoop.run input (i + 1) l' bytes
    else CsvLoop.run input (i + 1) l bytes

/-- What follows the loop. -/
def CsvLoop.finish (input : Text) (l : CsvLoop) : Option (List Text) :=
  if l.start ≤ utf8Len input then
    (sliceFrom input l.start).map fun field =>
      l.fields ++ [trim (trimMatches (· == '"') field)]
  else some l.fields

/-- `split_csv` with its loop; there is no value where a slice panics. -/
def splitCsvLoop (input : Text) : Option (List Text) :=
  (CsvLoop.run input 0 ⟨[], false, 0⟩ (utf8Bytes input)).bind (CsvLoop.finish input)

/-- The trimmed slices between pairs of offsets. -/
def csvFields (input : Text) (offsets : List (ℕ × ℕ)) : Option (List Text) :=
  offsets.mapM fun (start, stop) =>
    (slice input start stop).map fun field => trim (trimMatches (· == '"') field)

lemma csvFields_cons (input : Text) (start stop : ℕ) (offsets : List (ℕ × ℕ)) :
    csvFields input ((start, stop) :: offsets) = (slice input start stop).bind fun field =>
      (csvFields input offsets).map (trim (trimMatches (· == '"') field) :: ·) := by
  rw [csvFields, csvFields, List.mapM_cons]
  dsimp only
  cases slice input start stop with
  | none => rfl
  | some field => exact Option.map_eq_bind.symm

/-- From any point on, the loop appends the fields between the offsets that remain. -/
lemma csvLoop_run {input : Text} {i : ℕ} {l : CsvLoop} {bytes : List UInt8}
    (hstart : l.start ≤ i) (hi : i + bytes.length = utf8Len input) :
    (CsvLoop.run input i l bytes).bind (CsvLoop.finish input) =
      (csvFields input (csvScan l.inQuotes l.start i bytes)).map (l.fields ++ ·) := by
  induction bytes generalizing i l with
  | nil =>
    obtain rfl : i = utf8Len input := hi
    rw [CsvLoop.run, Option.bind_some, CsvLoop.finish, if_pos hstart, csvScan, csvFields_cons,
      slice_utf8Len hstart]
    cases sliceFrom input l.start <;> rfl
  | cons b bytes ih =>
    have hnext : i + 1 + bytes.length = utf8Len input := by
      rw [← hi, List.length_cons]
      omega
    rw [CsvLoop.run, csvScan]
    split_ifs with hquote hcomma
    · exact ih (Nat.le_succ_of_le hstart) hnext
    · rw [csvFields_cons]
      cases slice input l.start i with
      | none => rfl
      | some field =>
        have happend : ∀ fields, l.fields ++ [trim (trimMatches (· == '"') field)] ++ fields =
            l.fields ++ trim (trimMatches (· == '"') field) :: fields := by simp
        refine (ih (Nat.le_refl (i + 1)) hnext).trans ?_
        rw [Option.bind_some, Option.map_map]
        exact congrArg (Option.map · _) (funext happend)
    · exact ih (Nat.le_succ_of_le hstart) hnext

lemma length_utf8Bytes (s : Text) : (utf8Bytes s).length = utf8Len s := by
  induction s with
  | nil => rfl
  | cons c s ih =>
    rw [utf8Bytes, List.flatMap_cons, List.length_append, String.length_utf8EncodeChar, utf8Len]
    exact congrArg _ ih

lemma splitCsvLoop_eq_splitCsvBytes (input : Text) : splitCsvLoop input = splitCsvBytes input := by
  have hlength : 0 + (utf8Bytes input).length = utf8Len input := by
    rw [Nat.zero_add, length_utf8Bytes]
  exact (csvLoop_run (Nat.le_refl 0) hlength).trans Option.map_id'

/-- There is one field more than there are separators, each is the text between two of them
without its quotes and blanks, and all slices start and end at characters. -/
theorem splitCsvLoop_spec (input : Text) :
    ∃ fields, splitCsvLoop input = some fields ∧
      fields.length = (csvSeparators input).length + 1 ∧
      fields = (cutAt input (csvSeparators input)).map
        (fun field => trim (trimMatches (· == '"') field)) ∧
      ∀ p ∈ csvScan false 0 0 (utf8Bytes input),
        p.1 ≤ p.2 ∧ IsCharBoundary input p.1 ∧ IsCharBoundary input p.2 := by
  have hsplit := splitCsvBytes_eq input
  have hcuts : csvCuts false input = cutAt input (csvSeparators input) := by
    rw [← csvSeparatorsAfter_zero]
    exact csvCuts_eq_cutAt 0 input
  refine ⟨splitCsv input, (splitCsvLoop_eq_splitCsvBytes input).trans hsplit, ?_, ?_, ?_⟩
  · rw [splitCsv, List.length_map, hcuts, length_cutAt]
  · rw [splitCsv, hcuts]
  · intro p hp
    have hall := KvTokenizer.isSome_mapM_iff.mp (Option.isSome_of_eq_some hsplit) p hp
    rw [Option.isSome_map] at hall
    obtain ⟨field, hfield⟩ := Option.isSome_iff_exists.mp hall
    exact slice_eq_some hfield

end Ulpf.Core
