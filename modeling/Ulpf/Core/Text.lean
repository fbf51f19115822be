import Mathlib.Algebra.Group.Nat.Defs
import Mathlib.Data.Nat.Notation
import Mathlib.Tactic.SplitIfs

/-!
# Text

The operations of Rust's `str` that the parser uses, on the list of characters of a string.
Offsets of slices are bytes of UTF-8, so a slice may fall inside a character; there the
program panics and the model has no value.
-/

namespace Ulpf.Core

abbrev Text := List Char

/-- `str::as_bytes` -/
def utf8Bytes (s : Text) : List UInt8 := s.flatMap String.utf8EncodeChar

/-- `str::len` -/
def utf8Len : Text → ℕ
  | [] => 0
  | c :: s => c.utf8Size + utf8Len s

/-- `&s[..n]` -/
def sliceTo : Text → ℕ → Option Text
  | _, 0 => some []
  | [], _ + 1 => none
  | c :: s, n + 1 =>
    if c.utf8Size ≤ n + 1 then (sliceTo s (n + 1 - c.utf8Size)).map (c :: ·) else none

/-- `str::is_char_boundary` -/
def IsCharBoundary (s : Text) (n : ℕ) : Prop := ∃ t, t <+: s ∧ utf8Len t = n

lemma utf8Len_eq_zero {t : Text} (h : utf8Len t = 0) : t = [] := by
  cases t with
  | nil => rfl
  | cons c t =>
    have hpos := c.utf8Size_pos
    simp only [utf8Len] at h
    omega

lemma prefix_cons_utf8Len_iff {s t : Text} {c : Char} {n : ℕ} :
    t <+: c :: s ∧ utf8Len t = n + 1 ↔
      ∃ rest, rest <+: s ∧ c.utf8Size + utf8Len rest = n + 1 ∧ c :: rest = t := by
  constructor
  · rintro ⟨hstart, hlen⟩
    cases t with
    | nil => cases hlen
    | cons d rest =>
      obtain ⟨rfl, hrest⟩ := List.cons_prefix_cons.mp hstart
      exact ⟨rest, hrest, hlen, rfl⟩
  · rintro ⟨rest, hrest, hlen, rfl⟩
    exact ⟨List.cons_prefix_cons.mpr ⟨rfl, hrest⟩, hlen⟩

lemma sliceTo_eq_some_iff {s t : Text} {n : ℕ} :
    sliceTo s n = some t ↔ t <+: s ∧ utf8Len t = n := by
  induction s generalizing n t with
  | nil =>
    rw [List.prefix_nil]
    cases n with
    | zero =>
      simp only [sliceTo, Option.some.injEq]
      constructor
      · rintro rfl
        exact ⟨rfl, rfl⟩
      · rintro ⟨rfl, -⟩
        rfl
    | succ n =>
      simp only [sliceTo, reduceCtorEq, false_iff]
      rintro ⟨rfl, hlen⟩
      cases hlen
  | cons c s ih =>
    cases n with
    | zero =>
      simp only [sliceTo, Option.some.injEq]
      constructor
      · rintro rfl
        exact ⟨List.nil_prefix, rfl⟩
      · rintro ⟨-, hlen⟩
        exact (utf8Len_eq_zero hlen).symm
    | succ n =>
      rw [prefix_cons_utf8Len_iff, sliceTo]
      split_ifs with hfits
      · rw [Option.map_eq_some_iff]
        apply exists_congr
        intro rest
        have hlen : utf8Len rest = n + 1 - c.utf8Size ↔ c.utf8Size + utf8Len rest = n + 1 := by
          omega
        rw [ih, hlen, and_assoc]
      · simp only [false_iff]
        rintro ⟨rest, -, hlen, -⟩
        omega

lemma isSome_sliceTo_iff {s : Text} {n : ℕ} : (sliceTo s n).isSome ↔ IsCharBoundary s n := by
  rw [Option.isSome_iff_exists]
  exact exists_congr fun t => sliceTo_eq_some_iff

@[simp] lemma utf8Len_append (s t : Text) : utf8Len (s ++ t) = utf8Len s + utf8Len t := by
  induction s with
  | nil => simp [utf8Len]
  | cons c s ih =>
    simp only [List.cons_append, utf8Len, ih]
    omega

lemma sliceTo_append (s t : Text) : sliceTo (s ++ t) (utf8Len s) = some s :=
  sliceTo_eq_some_iff.mpr ⟨List.prefix_append s t, rfl⟩

/-- `&s[n..]` -/
def sliceFrom : Text → ℕ → Option Text
  | s, 0 => some s
  | [], _ + 1 => none
  | c :: s, n + 1 => if c.utf8Size ≤ n + 1 then sliceFrom s (n + 1 - c.utf8Size) else none

@[simp] lemma sliceFrom_zero (s : Text) : sliceFrom s 0 = some s := by
  cases s <;> rfl

lemma sliceFrom_append_add (s t : Text) (n : ℕ) :
    sliceFrom (s ++ t) (utf8Len s + n) = sliceFrom t n := by
  induction s with
  | nil => rw [List.nil_append, utf8Len, Nat.zero_add]
  | cons c s ih =>
    have hpos := c.utf8Size_pos
    obtain ⟨k, hk⟩ : ∃ k, utf8Len (c :: s) + n = k + 1 :=
      ⟨utf8Len (c :: s) + n - 1, by simp only [utf8Len]; omega⟩
    have hrest : k + 1 - c.utf8Size = utf8Len s + n := by
      rw [← hk, utf8Len]
      omega
    have hfits : c.utf8Size ≤ k + 1 := by
      rw [← hk, utf8Len]
      omega
    rw [List.cons_append, hk, sliceFrom, if_pos hfits, hrest, ih]

lemma sliceFrom_append (s t : Text) : sliceFrom (s ++ t) (utf8Len s) = some t := by
  rw [← Nat.add_zero (utf8Len s), sliceFrom_append_add, sliceFrom_zero]

/-- `str::find` of a predicate. -/
def findPos (p : Char → Bool) : Text → Option ℕ
  | [] => none
  | c :: s => if p c then some 0 else (findPos p s).map (c.utf8Size + ·)

/-- `str::rfind` of a predicate. -/
def rfindPos (p : Char → Bool) : Text → Option ℕ
  | [] => none
  | c :: s =>
    match rfindPos p s with
    | some n => some (c.utf8Size + n)
    | none => if p c then some 0 else none

lemma findPos_eq_none {p : Char → Bool} {s : Text} (h : ∀ c ∈ s, p c = false) :
    findPos p s = none := by
  induction s with
  | nil => rfl
  | cons c s ih =>
    rw [List.forall_mem_cons] at h
    simp [findPos, h.1, ih h.2]

lemma findPos_append_cons {p : Char → Bool} {s : Text} (h : ∀ c ∈ s, p c = false) {c : Char}
    (hc : p c = true) (t : Text) : findPos p (s ++ c :: t) = some (utf8Len s) := by
  induction s with
  | nil => simp [findPos, hc, utf8Len]
  | cons d s ih =>
    rw [List.forall_mem_cons] at h
    simp [findPos, h.1, ih h.2, utf8Len]

lemma exists_first_cut (p : Char → Bool) (s : Text) :
    (∀ c ∈ s, p c = false) ∨
      ∃ before c after, s = before ++ c :: after ∧ (∀ d ∈ before, p d = false) ∧ p c = true := by
  induction s with
  | nil => exact Or.inl (List.forall_mem_nil _)
  | cons c s ih =>
    cases hc : p c with
    | true => exact Or.inr ⟨[], c, s, rfl, List.forall_mem_nil _, hc⟩
    | false =>
      rcases ih with hnone | ⟨before, d, after, rfl, hbefore, hd⟩
      · exact Or.inl (List.forall_mem_cons.mpr ⟨hc, hnone⟩)
      · exact Or.inr ⟨c :: before, d, after, rfl, List.forall_mem_cons.mpr ⟨hc, hbefore⟩, hd⟩

lemma takeWhile_not_eq_self {p : Char → Bool} {s : Text} (h : ∀ c ∈ s, p c = false) :
    s.takeWhile (!p ·) = s ∧ s.dropWhile (!p ·) = [] := by
  induction s with
  | nil => exact ⟨rfl, rfl⟩
  | cons c s ih =>
    rw [List.forall_mem_cons] at h
    simp [h.1, ih h.2]

lemma takeWhile_not_append_cons {p : Char → Bool} {s : Text} (h : ∀ c ∈ s, p c = false) {c : Char}
    (hc : p c = true) (t : Text) :
    (s ++ c :: t).takeWhile (!p ·) = s ∧ (s ++ c :: t).dropWhile (!p ·) = c :: t := by
  induction s with
  | nil => simp [hc]
  | cons d s ih =>
    rw [List.forall_mem_cons] at h
    simp [h.1, ih h.2]

lemma rfindPos_eq_none {p : Char → Bool} {s : Text} (h : ∀ c ∈ s, p c = false) :
    rfindPos p s = none := by
  induction s with
  | nil => rfl
  | cons c s ih =>
    rw [List.forall_mem_cons] at h
    simp [rfindPos, h.1, ih h.2]

lemma rfindPos_append_cons {p : Char → Bool} {c : Char} (hc : p c = true) {t : Text}
    (h : ∀ d ∈ t, p d = false) (s : Text) : rfindPos p (s ++ c :: t) = some (utf8Len s) := by
  induction s with
  | nil => simp [rfindPos, rfindPos_eq_none h, hc, utf8Len]
  | cons d s ih => simp [rfindPos, ih, utf8Len]

/-- `&s[s.find(pat)?..]` -/
def findFrom (pat : Text) : Text → Option Text
  | [] => if pat.isPrefixOf [] then some [] else none
  | c :: s => if pat.isPrefixOf (c :: s) then some (c :: s) else findFrom pat s

/-- `str::contains` -/
def contains (s : Text) (pat : String) : Bool := (findFrom pat.toList s).isSome

/-- `str::starts_with` -/
def startsWith (s : Text) (pat : String) : Bool := pat.toList.isPrefixOf s

/-- `char::is_whitespace`: the Unicode property `White_Space`. -/
def isWhitespace (c : Char) : Bool :=
  let n := c.toNat
  (9 ≤ n && n ≤ 13) || n == 0x20 || n == 0x85 || n == 0xA0 || n == 0x1680 ||
    (0x2000 ≤ n && n ≤ 0x200A) || n == 0x2028 || n == 0x2029 || n == 0x202F || n == 0x205F ||
    n == 0x3000

/-- `str::trim` -/
def trim (s : Text) : Text :=
  ((s.dropWhile isWhitespace).reverse.dropWhile isWhitespace).reverse

/-- `str::trim_matches` -/
def trimMatches (p : Char → Bool) (s : Text) : Text :=
  ((s.dropWhile p).reverse.dropWhile p).reverse

/-- `str::trim_start` -/
def trimStart (s : Text) : Text := s.dropWhile isWhitespace

/-- `str::split_whitespace` -/
def splitWhitespace (s : Text) : List Text := (s.splitOnP isWhitespace).filter (· ≠ [])

/-- `str::to_ascii_uppercase` -/
def toAsciiUppercase (s : String) : String := String.ofList (s.toList.map Char.toUpper)

/-- `str::to_ascii_lowercase` -/
def toAsciiLowercase (s : String) : String := String.ofList (s.toList.map Char.toLower)

/-- `str::parse` of the unsigned integer type of `bits` bits. -/
def parseUnsigned (bits : ℕ) (s : Text) : Option ℕ :=
  let digits := match s with
    | '+' :: rest => rest
    | s => s
  if digits = [] then none
  else if digits.all Char.isDigit then
    let n := Nat.ofDigitChars 10 digits 0
    if n < 2 ^ bits then some n else none
  else none

/-- `str::strip_prefix` -/
def stripPrefix (s : Text) (pat : String) : Option Text :=
  if startsWith s pat then some (s.drop pat.toList.length) else none

/-- `str::split_once` at a character. -/
def splitOnce (sep : Char) : Text → Option (Text × Text)
  | [] => none
  | c :: s =>
    if c = sep then some ([], s)
    else (splitOnce sep s).map fun (before, after) => (c :: before, after)

/-- `str::replace` of a character. -/
def replaceChar (c : Char) (rep : String) (s : Text) : Text :=
  s.flatMap fun d => if d = c then rep.toList else [d]

/-- What is replaced after the characters that still belong to the last occurrence. -/
def replaceAfter (pat rep : Text) : ℕ → Text → Text
  | _, [] => []
  | skip + 1, _ :: s => replaceAfter pat rep skip s
  | 0, c :: s =>
    if pat.isPrefixOf (c :: s) then rep ++ replaceAfter pat rep (pat.length - 1) s
    else c :: replaceAfter pat rep 0 s

/-- `str::replace` of a text that is not empty. -/
def replace (pat rep : String) (s : Text) : Text := replaceAfter pat.toList rep.toList 0 s

/-- Whether a number is negative, and its text without the sign. -/
def splitSign : Text → Bool × Text
  | '-' :: rest => (true, rest)
  | '+' :: rest => (false, rest)
  | s => (false, s)

/-- `str::parse::<i64>` -/
def parseI64 (s : Text) : Option Int64 :=
  let (negative, digits) := splitSign s
  if digits = [] then none
  else if digits.all Char.isDigit then
    let n : ℤ := if negative then -Nat.ofDigitChars 10 digits 0 else Nat.ofDigitChars 10 digits 0
    if Int64.minValue.toInt ≤ n ∧ n ≤ Int64.maxValue.toInt then some (Int64.ofInt n) else none
  else none

/-- `format!("{}", n)` of an `i64` -/
def formatI64 (n : Int64) : Text :=
  if n.toInt < 0 then '-' :: Nat.toDigits 10 n.toInt.natAbs else Nat.toDigits 10 n.toInt.natAbs

/-- `Path::file_stem` of a file name. -/
def fileStem (name : Text) : Text :=
  let before := ((name.reverse.dropWhile (· != '.')).drop 1).reverse
  if before = [] then name else before

end Ulpf.Core
