import Ulpf.Core.Extractors.Common
import Ulpf.Library.Strip
import Ulpf.Library.Utf8

/-!
# Printed CSV fields are read back

`split_csv` as the source has it, with a loop over bytes and slices between their offsets, cuts
the text at the commas outside quotes, and so undoes the printing of fields.
-/

namespace Ulpf.Core
open Ulpf.Library

/-- `&s[start..stop]` -/
def slice (s : Text) (start stop : ℕ) : Option Text :=
  if start ≤ stop then (sliceFrom s start).bind fun t => sliceTo t (stop - start) else none

/-- The loop of `split_csv` from byte `i` on; the offsets of the fields. -/
def csvScan (inQuotes : Bool) (start i : ℕ) : List UInt8 → List (ℕ × ℕ)
  | [] => [(start, i)]
  | b :: bytes =>
    if b = 34 then csvScan (!inQuotes) start (i + 1) bytes
    else if b = 44 && !inQuotes then (start, i) :: csvScan inQuotes (i + 1) (i + 1) bytes
    else csvScan inQuotes start (i + 1) bytes

/-- `split_csv`; there is no value where a slice panics. -/
def splitCsvBytes (input : Text) : Option (List Text) :=
  (csvScan false 0 0 (utf8Bytes input)).mapM fun (start, stop) =>
    (slice input start stop).map fun field => trim (trimMatches (· == '"') field)

/-! ### The loop over bytes -/

lemma slice_append (done field rest : Text) :
    slice (done ++ (field ++ rest)) (utf8Len done) (utf8Len (done ++ field)) = some field := by
  rw [slice, utf8Len_append, if_pos (Nat.le_add_right _ _), sliceFrom_append, Option.bind_some,
    Nat.add_sub_cancel_left, sliceTo_append]

lemma csvScan_high {bytes : List UInt8} (h : ∀ b ∈ bytes, 128 ≤ b.toNat) (inQuotes : Bool)
    (start i : ℕ) (rest : List UInt8) :
    csvScan inQuotes start i (bytes ++ rest) = csvScan inQuotes start (i + bytes.length) rest := by
  induction bytes generalizing i with
  | nil => rfl
  | cons b bytes ih =>
    rw [List.forall_mem_cons] at h
    have hquote : b ≠ 34 := Utf8.byte_ne_of_high h.1 (by decide)
    have hcomma : b ≠ 44 := Utf8.byte_ne_of_high h.1 (by decide)
    rw [List.cons_append, csvScan, if_neg hquote, if_neg (by simp [hcomma]), ih h.2,
      List.length_cons]
    congr 1
    omega

lemma csvScan_char (inQuotes : Bool) (start i : ℕ) (c : Char) (bytes : List UInt8) :
    csvScan inQuotes start i (String.utf8EncodeChar c ++ bytes) =
      if c == '"' then csvScan (!inQuotes) start (i + c.utf8Size) bytes
      else if c == ',' && !inQuotes then
        (start, i) :: csvScan inQuotes (i + c.utf8Size) (i + c.utf8Size) bytes
      else csvScan inQuotes start (i + c.utf8Size) bytes := by
  rcases Utf8.encodeChar_cases c with ⟨b, hencode, hb, hsmall⟩ | hhigh
  · have hsize : c.utf8Size = 1 := by
      rw [← String.length_utf8EncodeChar, hencode, List.length_singleton]
    have hquote : b = 34 ↔ c = '"' := Utf8.byte_eq_iff hb rfl
    have hcomma : b = 44 ↔ c = ',' := Utf8.byte_eq_iff hb rfl
    rw [hencode, List.singleton_append, csvScan, hsize]
    simp only [hquote, hcomma, beq_iff_eq, Bool.and_eq_true, decide_eq_true_eq]
  · have hquote : (c == '"') = false :=
      beq_eq_false_iff_ne.mpr (Utf8.char_ne_of_high hhigh (a := 34) (by decide) (by decide))
    have hcomma : (c == ',') = false :=
      beq_eq_false_iff_ne.mpr (Utf8.char_ne_of_high hhigh (a := 44) (by decide) (by decide))
    rw [csvScan_high hhigh, String.length_utf8EncodeChar, hquote, hcomma, Bool.false_and,
      if_neg Bool.false_ne_true, if_neg Bool.false_ne_true]

/-- The slices are the pieces that the walk over characters cuts out; `field` is what the loop
has seen of the current one. -/
lemma csvScan_slices (done field s : Text) (inQuotes : Bool) :
    (csvScan inQuotes (utf8Len done) (utf8Len (done ++ field)) (utf8Bytes s)).mapM
        (fun p => slice (done ++ (field ++ s)) p.1 p.2) =
      some ((csvCuts inQuotes s).modifyHead (field ++ ·)) := by
  induction s generalizing done field inQuotes with
  | nil =>
    have hbytes : utf8Bytes [] = [] := rfl
    rw [hbytes, csvScan, List.mapM_cons, slice_append, csvCuts]
    simp
  | cons c s ih =>
    have hlong := ih done (field ++ [c])
    have hsize : utf8Len (done ++ (field ++ [c])) = utf8Len (done ++ field) + c.utf8Size := by
      simp [utf8Len]
      omega
    have htext : done ++ (field ++ [c] ++ s) = done ++ (field ++ c :: s) := by simp
    have hhead : ∀ cuts : List Text, cuts.modifyHead (field ++ [c] ++ ·) =
        (cuts.modifyHead (c :: ·)).modifyHead (field ++ ·) := by
      intro cuts
      cases cuts <;> simp
    rw [hsize, htext] at hlong
    have hbytes : utf8Bytes (c :: s) = String.utf8EncodeChar c ++ utf8Bytes s := rfl
    rw [hbytes, csvScan_char, csvCuts]
    split_ifs with hquote hcomma
    · rw [hlong, hhead]
    · have hnext := ih (done ++ (field ++ [c])) [] inQuotes
      have htext' : done ++ (field ++ [c]) ++ ([] ++ s) = done ++ (field ++ c :: s) := by simp
      have hcuts : (csvCuts inQuotes s).modifyHead ([] ++ ·) = csvCuts inQuotes s :=
        congrFun List.modifyHead_id _
      rw [List.append_nil, hsize, htext', hcuts] at hnext
      rw [List.mapM_cons, slice_append, hnext]
      simp
    · rw [hlong, hhead]

lemma mapM_option_map {α β γ : Type} (f : α → Option β) (g : β → γ) (xs : List α) :
    (xs.mapM fun x => (f x).map g) = (xs.mapM f).map (List.map g) := by
  induction xs with
  | nil => rfl
  | cons x xs ih =>
    rw [List.mapM_cons, List.mapM_cons, ih]
    cases f x with
    | none => rfl
    | some y => cases xs.mapM f <;> rfl

lemma splitCsvBytes_eq (input : Text) : splitCsvBytes input = some (splitCsv input) := by
  have hslices := csvScan_slices [] [] input false
  have hcuts : (csvCuts false input).modifyHead ([] ++ ·) = csvCuts false input :=
    congrFun List.modifyHead_id _
  rw [hcuts] at hslices
  have hmap : splitCsvBytes input = ((csvScan false 0 0 (utf8Bytes input)).mapM fun p =>
      slice input p.1 p.2).map (List.map fun field => trim (trimMatches (· == '"') field)) :=
    mapM_option_map _ _ _
  rw [hmap]
  exact congrArg (Option.map _) hslices

/-! ### Printed fields -/

/-- A field that is written in quotes or, without a comma in it, bare. -/
inductive CsvField where
  | quoted (text : Text) (plain : '"' ∉ text) (trimmed : Bare isWhitespace text)
  | bare (text : Text) (plain : '"' ∉ text) (trimmed : Bare isWhitespace text)
      (commaless : ',' ∉ text)

namespace CsvField

def text : CsvField → Text
  | quoted text _ _ => text
  | bare text _ _ _ => text

def print : CsvField → Text
  | quoted text _ _ => '"' :: (text ++ ['"'])
  | bare text _ _ _ => text

end CsvField

/-- The fields joined by single commas. -/
def printCsv (fields : List CsvField) : Text := [','].intercalate (fields.map CsvField.print)

lemma csvCuts_quoted {text : Text} (h : '"' ∉ text) (rest : Text) :
    csvCuts true (text ++ '"' :: rest) =
      (csvCuts false rest).modifyHead (text ++ '"' :: ·) := by
  induction text with
  | nil => rfl
  | cons c text ih =>
    rw [List.mem_cons, not_or] at h
    have hquote : (c == '"') = false := beq_eq_false_iff_ne.mpr (Ne.symm h.1)
    rw [List.cons_append, csvCuts, hquote, if_neg Bool.false_ne_true, Bool.not_true,
      Bool.and_false, if_neg Bool.false_ne_true, ih h.2]
    cases csvCuts false rest <;> rfl

lemma csvCuts_bare {text : Text} (h : '"' ∉ text) (hcomma : ',' ∉ text) (rest : Text) :
    csvCuts false (text ++ rest) = (csvCuts false rest).modifyHead (text ++ ·) := by
  induction text with
  | nil => exact (congrFun List.modifyHead_id _).symm
  | cons c text ih =>
    rw [List.mem_cons, not_or] at h hcomma
    have hquote : (c == '"') = false := beq_eq_false_iff_ne.mpr (Ne.symm h.1)
    have hnocomma : (c == ',') = false := beq_eq_false_iff_ne.mpr (Ne.symm hcomma.1)
    rw [List.cons_append, csvCuts, hquote, if_neg Bool.false_ne_true, hnocomma, Bool.false_and,
      if_neg Bool.false_ne_true, ih h.2 hcomma.2]
    cases csvCuts false rest <;> rfl

lemma csvCuts_print (f : CsvField) (rest : Text) :
    csvCuts false (f.print ++ rest) = (csvCuts false rest).modifyHead (f.print ++ ·) := by
  cases f with
  | quoted text plain trimmed =>
    have hprint : (CsvField.quoted text plain trimmed).print ++ rest =
        '"' :: (text ++ '"' :: rest) := by simp [CsvField.print]
    rw [hprint, csvCuts, if_pos (beq_self_eq_true '"'), Bool.not_false, csvCuts_quoted plain]
    cases csvCuts false rest <;> simp [CsvField.print]
  | bare text plain trimmed commaless => exact csvCuts_bare plain commaless rest

lemma trim_print (f : CsvField) : trim (trimMatches (· == '"') f.print) = f.text := by
  have hplain : ∀ {text : Text}, '"' ∉ text → strip (· == '"') text = text := by
    intro text h
    apply strip_eq_self (bare_of_forall _)
    intro c hc
    rw [beq_eq_false_iff_ne]
    rintro rfl
    exact h hc
  cases f with
  | quoted text plain trimmed =>
    have hquotes : trimMatches (· == '"') ('"' :: (text ++ ['"'])) = text :=
      (strip_enclosed (p := (· == '"')) (beq_self_eq_true _) (beq_self_eq_true _) text).trans
        (hplain plain)
    rw [CsvField.print, hquotes]
    exact strip_eq_self trimmed
  | bare text plain trimmed commaless =>
    have hquotes : trimMatches (· == '"') text = text := hplain plain
    rw [CsvField.print, hquotes]
    exact strip_eq_self trimmed

lemma csvCuts_printCsv (f : CsvField) (fs : List CsvField) :
    csvCuts false (printCsv (f :: fs)) = (f :: fs).map CsvField.print := by
  induction fs generalizing f with
  | nil =>
    have hprint : printCsv [f] = f.print ++ [] := by simp [printCsv]
    rw [hprint, csvCuts_print]
    simp [csvCuts]
  | cons g fs ih =>
    have hprint : printCsv (f :: g :: fs) = f.print ++ ',' :: printCsv (g :: fs) := by
      simp [printCsv, List.intercalate_cons_cons]
    have hcomma : csvCuts false (',' :: printCsv (g :: fs)) =
        [] :: csvCuts false (printCsv (g :: fs)) := rfl
    rw [hprint, csvCuts_print, hcomma, ih]
    simp

/-- Splitting printed fields gives them back, empty and trailing ones included. -/
theorem splitCsv_printCsv (f : CsvField) (fs : List CsvField) :
    splitCsvBytes (printCsv (f :: fs)) = some ((f :: fs).map CsvField.text) := by
  rw [splitCsvBytes_eq, splitCsv, csvCuts_printCsv, List.map_map]
  congr 1
  exact List.map_congr_left fun g _ => trim_print g

example : splitCsvBytes "1,\"a, b\",,é,".toList =
    some ["1".toList, "a, b".toList, [], "é".toList, []] := by decide

end Ulpf.Core
