import Mathlib.Data.List.Infix
import Ulpf.Core.LruCache

/-!
# The slices of the signature

`compute_signature_hash` cuts the line at byte 96 and the ASA tag sixteen bytes after its marker.
It panics exactly if a character lies across one of the two cuts.
-/

namespace Ulpf.Core

/-! ### Characters across an offset -/

/-- A character of the text begins before the byte offset and ends after it. -/
def CharAcross (s : Text) (n : ℕ) : Prop :=
  ∃ before c after, s = before ++ c :: after ∧ utf8Len before < n ∧
    n < utf8Len before + c.utf8Size

lemma CharAcross.lt_utf8Len {s : Text} {n : ℕ} (h : CharAcross s n) : n < utf8Len s := by
  obtain ⟨before, c, after, rfl, -, hend⟩ := h
  simp only [utf8Len_append, utf8Len]
  omega

lemma charAcross_cons {c : Char} {s : Text} {n : ℕ} :
    CharAcross (c :: s) n ↔
      (0 < n ∧ n < c.utf8Size) ∨ (c.utf8Size ≤ n ∧ CharAcross s (n - c.utf8Size)) := by
  constructor
  · rintro ⟨before, d, after, hsplit, hstart, hend⟩
    cases before with
    | nil =>
      cases hsplit
      left
      simpa [utf8Len] using And.intro hstart hend
    | cons c' before =>
      cases hsplit
      simp only [utf8Len] at hstart hend
      refine Or.inr ⟨by omega, before, d, after, rfl, by omega, by omega⟩
  · rintro (⟨hstart, hend⟩ | ⟨hfits, before, d, after, rfl, hstart, hend⟩)
    · exact ⟨[], c, s, rfl, hstart, by simpa [utf8Len] using hend⟩
    · refine ⟨c :: before, d, after, rfl, ?_, ?_⟩ <;> simp only [utf8Len] <;> omega

lemma isSome_sliceTo_min_iff {s : Text} {n : ℕ} :
    (sliceTo s (min (utf8Len s) n)).isSome ↔ ¬CharAcross s n := by
  induction s generalizing n with
  | nil =>
    have hnone : ¬CharAcross [] n := fun h => absurd h.lt_utf8Len (Nat.not_lt_zero n)
    simp [utf8Len, sliceTo, hnone]
  | cons c s ih =>
    have hpos := c.utf8Size_pos
    rw [charAcross_cons]
    cases n with
    | zero =>
      have hnone : ¬CharAcross s 0 := by
        rintro ⟨before, d, after, -, hstart, -⟩
        exact absurd hstart (Nat.not_lt_zero _)
      simp [sliceTo, hnone]
    | succ n =>
      have hmin : min (utf8Len (c :: s)) (n + 1) =
          min (c.utf8Size + utf8Len s - 1) n + 1 := by
        simp only [utf8Len]
        omega
      rw [hmin, sliceTo]
      by_cases hfits : c.utf8Size ≤ n + 1
      · have hrest : min (c.utf8Size + utf8Len s - 1) n + 1 - c.utf8Size =
            min (utf8Len s) (n + 1 - c.utf8Size) := by omega
        rw [if_pos (by omega), Option.isSome_map, hrest, ih]
        constructor
        · rintro h (⟨-, hend⟩ | ⟨-, hacross⟩)
          · omega
          · exact h hacross
        · exact fun h hacross => h (Or.inr ⟨hfits, hacross⟩)
      · rw [if_neg (by omega)]
        simp only [Option.isSome_none, Bool.false_eq_true, false_iff, not_not]
        exact Or.inl ⟨by omega, by omega⟩

lemma isCharBoundary_min_iff {s : Text} {n : ℕ} :
    IsCharBoundary s (min (utf8Len s) n) ↔ ¬CharAcross s n := by
  rw [← isSome_sliceTo_iff, isSome_sliceTo_min_iff]

lemma CharAcross.append_left {s : Text} {n : ℕ} (h : CharAcross s n) (t : Text) :
    CharAcross (t ++ s) (utf8Len t + n) := by
  obtain ⟨before, c, after, rfl, hstart, hend⟩ := h
  refine ⟨t ++ before, c, after, by rw [List.append_assoc], ?_, ?_⟩
  · rw [utf8Len_append]
    omega
  · rw [utf8Len_append]
    omega

lemma CharAcross.append_right {s : Text} {n : ℕ} (h : CharAcross s n) (t : Text) :
    CharAcross (s ++ t) n := by
  obtain ⟨before, c, after, rfl, hstart, hend⟩ := h
  exact ⟨before, c, after ++ t, by simp, hstart, hend⟩

lemma CharAcross.of_append_left {s t : Text} {n : ℕ} (h : CharAcross (t ++ s) (utf8Len t + n)) :
    CharAcross s n := by
  induction t with
  | nil => simpa [utf8Len] using h
  | cons c t ih =>
    simp only [List.cons_append, utf8Len, charAcross_cons] at h
    rcases h with ⟨-, hend⟩ | ⟨-, hacross⟩
    · omega
    · apply ih
      convert hacross using 1
      omega

lemma CharAcross.of_append_right {s t : Text} {n : ℕ} (h : CharAcross (s ++ t) n)
    (hlen : n ≤ utf8Len s) : CharAcross s n := by
  induction s generalizing n with
  | nil =>
    obtain ⟨before, c, after, -, hstart, -⟩ := h
    simp only [utf8Len] at hlen
    omega
  | cons c s ih =>
    rw [List.cons_append, charAcross_cons] at h
    rw [charAcross_cons]
    simp only [utf8Len] at hlen
    rcases h with hfirst | ⟨hfits, hacross⟩
    · exact Or.inl hfirst
    · exact Or.inr ⟨hfits, ih hacross (by omega)⟩

/-! ### Where a marker is found -/

lemma findFrom_of_isPrefix {pat s : Text} (h : pat <+: s) : findFrom pat s = some s := by
  cases s with
  | nil => rw [findFrom, if_pos (List.isPrefixOf_iff_prefix.mpr h)]
  | cons c s => rw [findFrom, if_pos (List.isPrefixOf_iff_prefix.mpr h)]

lemma findFrom_cons {pat s : Text} {c : Char} (h : ¬pat <+: c :: s) :
    findFrom pat (c :: s) = findFrom pat s := by
  rw [findFrom, if_neg (mt List.isPrefixOf_iff_prefix.mp h)]

lemma findFrom_spec {pat s rest : Text} (h : findFrom pat s = some rest) :
    (∃ before, before ++ rest = s) ∧ pat <+: rest := by
  induction s with
  | nil =>
    unfold findFrom at h
    split_ifs at h with hpat
    cases h
    exact ⟨⟨[], rfl⟩, List.isPrefixOf_iff_prefix.mp hpat⟩
  | cons c s ih =>
    unfold findFrom at h
    split_ifs at h with hpat
    · cases h
      exact ⟨⟨[], rfl⟩, List.isPrefixOf_iff_prefix.mp hpat⟩
    · obtain ⟨⟨before, rfl⟩, hstart⟩ := ih h
      exact ⟨⟨c :: before, rfl⟩, hstart⟩

lemma isSome_findFrom {pat before s : Text} (h : before ++ pat <+: s) :
    (findFrom pat s).isSome := by
  induction before generalizing s with
  | nil => exact Option.isSome_of_eq_some (findFrom_of_isPrefix h)
  | cons c before ih =>
    obtain ⟨after, rfl⟩ := h
    by_cases hpat : pat <+: c :: (before ++ pat ++ after)
    · exact Option.isSome_of_eq_some (findFrom_of_isPrefix hpat)
    · rw [List.cons_append, List.cons_append, findFrom_cons hpat]
      exact ih (List.prefix_append _ after)

lemma findFrom_append {pat s rest : Text} (h : findFrom pat s = some rest) (t : Text) :
    findFrom pat (s ++ t) = some (rest ++ t) := by
  obtain ⟨⟨before, rfl⟩, hstart⟩ := findFrom_spec h
  induction before with
  | nil => exact findFrom_of_isPrefix (hstart.trans (List.prefix_append rest t))
  | cons c before ih =>
    have hpat : ¬pat <+: c :: (before ++ rest) := by
      intro hpat
      have hsame := Option.some.inj (h.symm.trans (findFrom_of_isPrefix hpat))
      have hlen := congrArg List.length hsame
      simp only [List.length_cons, List.length_append] at hlen
      omega
    have hlen : pat.length ≤ (c :: (before ++ rest)).length := by
      have hle := hstart.length_le
      simp only [List.length_cons, List.length_append]
      omega
    have hpat' : ¬pat <+: c :: (before ++ rest ++ t) := fun hlong =>
      hpat (List.prefix_of_prefix_length_le hlong (List.prefix_append _ t) hlen)
    rw [List.cons_append, findFrom_cons hpat] at h
    rw [List.cons_append, List.cons_append, findFrom_cons hpat']
    exact ih h

lemma prefix_of_utf8Len_le {a b s : Text} (ha : a <+: s) (hb : b <+: s)
    (hlen : utf8Len a ≤ utf8Len b) : a <+: b := by
  rcases List.prefix_or_prefix_of_prefix ha hb with hab | ⟨rest, rfl⟩
  · exact hab
  · rw [utf8Len_append] at hlen
    rw [utf8Len_eq_zero (by omega : utf8Len rest = 0), List.append_nil]

lemma findFrom_of_append {pat before rest s t : Text} (h : findFrom pat (s ++ t) = some rest)
    (hsplit : before ++ rest = s ++ t) (hlen : utf8Len before + utf8Len pat ≤ utf8Len s) :
    ∃ rest', findFrom pat s = some rest' ∧ rest = rest' ++ t := by
  have hpat : before ++ pat <+: s ++ t := by
    rw [← hsplit]
    exact (List.prefix_append_right_inj before).mpr (findFrom_spec h).2
  have hin : before ++ pat <+: s :=
    prefix_of_utf8Len_le hpat (List.prefix_append s t) (by rwa [utf8Len_append])
  obtain ⟨rest', hrest'⟩ := Option.isSome_iff_exists.mp (isSome_findFrom hin)
  refine ⟨rest', hrest', ?_⟩
  have hboth := findFrom_append hrest' t
  rw [h] at hboth
  exact Option.some.inj hboth

/-! ### The two cuts -/

/-- No character lies across the end of the window or, for a marker within it, across the end of
the tag. -/
def CutsBetweenCharacters (raw : String) : Prop :=
  ¬CharAcross raw.toList 96 ∧
    ∀ before rest, before ++ rest = raw.toList →
      findFrom "%ASA-".toList raw.toList = some rest → utf8Len before < 80 →
        ¬CharAcross raw.toList (utf8Len before + 16)

lemma tag_cut_iff {raw window after : Text} (hsplit : window ++ after = raw)
    (hwindow : utf8Len window = min (utf8Len raw) 96) :
    (∀ rest, findFrom "%ASA-".toList window = some rest → ¬CharAcross rest 16) ↔
      ∀ before rest, before ++ rest = raw → findFrom "%ASA-".toList raw = some rest →
        utf8Len before < 80 → ¬CharAcross raw (utf8Len before + 16) := by
  subst hsplit
  rw [utf8Len_append] at hwindow
  constructor
  · rintro h before rest hrest hfind hnear hacross
    have hmarker : utf8Len "%ASA-".toList = 5 := by decide
    have hrest_len := congrArg utf8Len hrest
    rw [utf8Len_append, utf8Len_append] at hrest_len
    have htag : utf8Len before + 16 ≤ utf8Len window := by
      have hend := hacross.lt_utf8Len
      rw [utf8Len_append] at hend
      omega
    obtain ⟨rest', hrest', rfl⟩ := findFrom_of_append hfind hrest (by omega)
    refine h rest' hrest' ?_
    rw [← hrest] at hacross
    rw [utf8Len_append] at hrest_len
    exact hacross.of_append_left.of_append_right (by omega)
  · intro h rest hfind hacross
    obtain ⟨before, rfl⟩ := (findFrom_spec hfind).1
    have hend := hacross.lt_utf8Len
    rw [utf8Len_append] at hwindow
    refine h before (rest ++ after) (by rw [List.append_assoc]) (findFrom_append hfind after)
      (by omega) ?_
    exact (hacross.append_left before).append_right after

/-- The signature is computed exactly if both cuts fall between two characters. -/
theorem compute_signature_hash_returns_iff (raw : String) :
    (computeSignatureHash raw).isSome ↔ CutsBetweenCharacters raw := by
  rw [isSome_computeSignatureHash_iff, SignatureSliceable, CutsBetweenCharacters,
    isCharBoundary_min_iff]
  apply and_congr_right
  intro hcut
  obtain ⟨window, ⟨after, hsplit⟩, hlen⟩ := isCharBoundary_min_iff.mpr hcut
  rw [← tag_cut_iff hsplit hlen]
  constructor
  · intro h rest hfind
    exact isCharBoundary_min_iff.mp (h window rest ⟨after, hsplit⟩ hlen hfind)
  · intro h window' rest hstart hlen' hfind
    have hsame : sliceTo raw.toList (min (utf8Len raw.toList) 96) = some window :=
      sliceTo_eq_some_iff.mpr ⟨⟨after, hsplit⟩, hlen⟩
    rw [sliceTo_eq_some_iff.mpr ⟨hstart, hlen'⟩] at hsame
    cases hsame
    exact isCharBoundary_min_iff.mpr (h rest hfind)

/-- Byte 96 of the line lies inside its last character. -/
theorem two_byte_char_at_window_end :
    computeSignatureHash (String.ofList (List.replicate 95 'a' ++ ['é'])) = none := by
  rw [← Option.not_isSome_iff_eq_none, isSome_computeSignatureHash_iff]
  rintro ⟨hcut, -⟩
  apply isCharBoundary_min_iff.mp hcut
  rw [String.toList_ofList]
  exact ⟨List.replicate 95 'a', 'é', [], rfl, by decide, by decide⟩

end Ulpf.Core
