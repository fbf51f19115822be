import Ulpf.Ai.LogMasker
import Ulpf.Ai.Padding
import Ulpf.Library.Fillers

/-!
# The shortcuts of the masker

A guard is a necessary condition on the line for its expression to match what the earlier passes
have left. The replacements have marks on both sides, so what an expression needs was in the line
before. This carries all guards but three, and not the early return.
-/

namespace Ulpf.Ai.Drain
open Ulpf.Core Ulpf.Library Ulpf.Library.Regex

namespace LogMasker

variable (m : LogMasker) (raw : Text)

/-- The passes before a pass. -/
def before (p : MaskPass) : List MaskPass := MaskPass.all.takeWhile fun q => q ≠ p

/-- Neither the early return nor the guard skips the pass. -/
def taken (p : MaskPass) : Bool := (hasAsciiDigit raw || raw.contains '%') && p.guard raw

/-- The text that a pass is applied to. -/
def textBefore (p : MaskPass) : Text :=
  m.run (taken raw) (before p)
    (if raw.contains '%' then protectTags 0 (m.reSyslogTag raw) else (raw, [])).1

/-- The text that a pass is applied to where none is skipped. -/
def textBeforeAll (p : MaskPass) : Text :=
  m.run (fun _ => true) (before p) (protectTags 0 (m.reSyslogTag raw)).1

/-- The masked line does not depend on the shortcuts: what they skip matches nowhere. -/
structure Transparent : Prop where
  same : m.mask raw = m.maskAll raw
  tags : raw.contains '%' = false → Unmatched (m.reSyslogTag raw)
  passes : ∀ p, taken raw p = false → Unmatched (p.re m (m.textBefore raw p))

/-! ### Runs of the passes -/

lemma run_append (takes : MaskPass → Bool) (passes later : List MaskPass) (s : Text) :
    m.run takes (passes ++ later) s = m.run takes later (m.run takes passes s) := by
  induction passes generalizing s with
  | nil => rfl
  | cons p passes ih => exact ih _

lemma exists_split (p : MaskPass) : ∃ later, MaskPass.all = before p ++ p :: later := by
  cases p <;> exact ⟨_, rfl⟩

lemma before_of_split {p : MaskPass} {earlier later : List MaskPass}
    (h : MaskPass.all = earlier ++ p :: later) : before p = earlier := by
  have hnodup : MaskPass.all.Nodup := by decide
  rw [h] at hnodup
  have hnot : ∀ q ∈ earlier, decide (q ≠ p) = true := by
    intro q hq
    rw [decide_eq_true_eq]
    rintro rfl
    exact (List.nodup_append.mp hnodup).2.2 q hq q List.mem_cons_self rfl
  rw [before, h, List.takeWhile_append_of_pos hnot, List.takeWhile_cons_of_neg (by simp),
    List.append_nil]

variable {tables : CharTables}

/-- The expression matches somewhere in the text. -/
def Finds (tables : CharTables) (r : CharRegex) (s : Text) : Prop :=
  Occurs (Atom.accepts tables) tables.word r s

lemma re_ofTables (p : MaskPass) : p.re (ofTables tables) = matchesOf tables p.regex := by
  cases p <;> rfl

lemma nullable_regex (p : MaskPass) : nullable p.regex = false := by
  cases p <;> decide

lemma unmatched_iff (p : MaskPass) (s : Text) :
    Unmatched (p.re (ofTables tables) s) ↔ ¬Finds tables p.regex s := by
  rw [re_ofTables]
  exact unmatched_pieces_iff (nullable_regex p)

lemma replaceAll_of_unmatched {p : MaskPass} {s : Text}
    (h : Unmatched (p.re (ofTables tables) s)) (replacement : List (String × Text) → Text) :
    replaceAll (p.re (ofTables tables)) replacement s = s := by
  rw [re_ofTables] at h ⊢
  exact flatMap_pieces_of_unmatched (nullable_regex p) h fun _ => rfl

lemma run_eq_run_all {takes : MaskPass → Bool} {passes : List MaskPass} {s : Text}
    (h : ∀ earlier p later, passes = earlier ++ p :: later → takes p = false →
      Unmatched (p.re (ofTables tables) ((ofTables tables).run takes earlier s)) ∨
        Unmatched (p.re (ofTables tables) ((ofTables tables).run (fun _ => true) earlier s))) :
    (ofTables tables).run takes passes s = (ofTables tables).run (fun _ => true) passes s := by
  induction passes using List.reverseRecOn with
  | nil => rfl
  | append_singleton passes p ih =>
    have hrun := ih fun earlier q later hsplit => h earlier q (later ++ [p]) (by simp [hsplit])
    rw [run_append, run_append, ← hrun]
    cases htakes : takes p with
    | true => simp only [run, htakes]
    | false =>
      have hquiet : Unmatched (p.re (ofTables tables) ((ofTables tables).run takes passes s)) := by
        rcases h passes p [] rfl htakes with hskip | hall
        · exact hskip
        · rwa [hrun]
      simp only [run, htakes, Bool.false_eq_true, if_false, if_true, replaceAll_of_unmatched hquiet]

lemma run_before_eq (takes : MaskPass → Bool) (s : Text)
    (h : ∀ p, takes p = false →
      Unmatched (p.re (ofTables tables) ((ofTables tables).run takes (before p) s)) ∨
        Unmatched (p.re (ofTables tables) ((ofTables tables).run (fun _ => true) (before p) s))) :
    (∀ p, (ofTables tables).run takes (before p) s =
        (ofTables tables).run (fun _ => true) (before p) s) ∧
      (ofTables tables).run takes MaskPass.all s =
        (ofTables tables).run (fun _ => true) MaskPass.all s := by
  constructor
  · intro p
    apply run_eq_run_all
    intro earlier q later hsplit htakes
    obtain ⟨rest, hall⟩ := exists_split p
    rw [hsplit, List.append_assoc, List.cons_append] at hall
    rw [← before_of_split hall]
    exact h q htakes
  · apply run_eq_run_all
    intro earlier q later hsplit htakes
    rw [← before_of_split hsplit]
    exact h q htakes

/-! ### Tags -/

lemma protectTags_of_unmatched {pieces : List (Piece Char)} (h : Unmatched pieces) (idx : ℕ) :
    protectTags idx pieces = (pieces.flatMap Piece.text, []) := by
  induction pieces with
  | nil => rfl
  | cons piece pieces ih =>
    have hrest : Unmatched pieces := fun m gs hmem => h m gs (List.mem_cons_of_mem _ hmem)
    cases piece with
    | gap c =>
      rw [protectTags, ih hrest]
      rfl
    | found tag gs => exact absurd List.mem_cons_self (h tag gs)

/-- The characters of a kind that an atom names one by one. -/
def only (q : Char → Bool) : Atom → Bool
  | .char c => q c
  | .escaped c => q c
  | .set false items => items.all fun
    | .char c => q c
    | _ => false
  | _ => false

variable (tables) in
lemma of_only {q : Char → Bool} (a : Atom) (x : Char) (h : only q a = true)
    (hx : a.accepts tables x = true) : q x = true := by
  cases a with
  | char c =>
    rw [Atom.accepts, beq_iff_eq] at hx
    rwa [hx]
  | escaped c =>
    rw [Atom.accepts, beq_iff_eq] at hx
    rwa [hx]
  | set negated items =>
    cases negated with
    | true => cases h
    | false =>
      have hany : items.any (·.accepts tables x) = true := by simpa [Atom.accepts] using hx
      obtain ⟨item, hitem, haccepts⟩ := List.any_eq_true.mp hany
      have honly := List.all_eq_true.mp h item hitem
      cases item with
      | char c =>
        rw [SetItem.accepts, beq_iff_eq] at haccepts
        rwa [haccepts]
      | range lo hi => cases honly
      | space => cases honly
  | dot => cases h
  | digit => cases h
  | space => cases h
  | nonSpace => cases h
  | word => cases h

lemma exists_of_finds {r : CharRegex} {q : Char → Bool} {s : Text} (hr : needs (only q) q r = true)
    (h : Finds tables r s) : ∃ c ∈ s, q c = true := by
  obtain ⟨m, hm, hfound⟩ := h.exists_lang
  obtain ⟨c, hc, hq⟩ := exists_of_needs (of_only tables) hr hm
  exact ⟨c, hfound.subset hc, hq⟩

lemma unmatched_syslogTag {raw : Text} (h : raw.contains '%' = false) :
    Unmatched ((ofTables tables).reSyslogTag raw) := by
  refine (unmatched_pieces_iff (by decide)).mpr fun hfinds => ?_
  obtain ⟨c, hc, hpercent⟩ :=
    exists_of_finds (q := (· == '%')) (by decide) (r := syslogTag) hfinds
  rw [beq_iff_eq] at hpercent
  subst hpercent
  rw [List.contains_eq_mem, decide_eq_false_iff_not] at h
  exact h hc

lemma protectTags_of_no_percent {raw : Text} (h : raw.contains '%' = false) :
    protectTags 0 ((ofTables tables).reSyslogTag raw) = (raw, []) := by
  rw [protectTags_of_unmatched (unmatched_syslogTag h)]
  exact congrArg (·, []) (flatMap_text_pieces (by decide) 0 [] raw)

lemma opened_eq (raw : Text) :
    (if raw.contains '%' then protectTags 0 ((ofTables tables).reSyslogTag raw) else (raw, [])) =
      protectTags 0 ((ofTables tables).reSyslogTag raw) := by
  cases h : raw.contains '%' with
  | true => rfl
  | false => exact (protectTags_of_no_percent h).symm

/-! ### Replacements -/

/-- The characters at the ends of replacements. -/
def isMark (c : Char) : Bool := c == '_' || c == '<' || c == '>'

/-- The characters of replacements. -/
def isFillerChar (c : Char) : Bool := c.isDigit || "_SYLOGTA<*>".toList.contains c

def IsFiller (f : Text) : Prop := f = wildcard.toList ∨ ∃ idx, f = placeholder idx

lemma sealed_of_isFiller (f : Text) (h : IsFiller f) : Sealed isMark isFillerChar f := by
  rcases h with rfl | ⟨idx, rfl⟩
  · exact ⟨⟨'<', ['*', '>'], rfl, rfl⟩, ⟨['<', '*'], '>', rfl, rfl⟩,
      List.all_eq_true.mp (by decide)⟩
  · have hplaceholder : placeholder idx =
        "__SYSLOG_TAG_".toList ++ Nat.toDigits 10 idx ++ "__".toList := by
      rw [placeholder, String.toList_append, String.toList_append]
      exact congrArg (_ ++ · ++ _) Nat.toList_repr
    rw [hplaceholder]
    refine ⟨⟨'_', _, rfl, rfl⟩,
      ⟨"__SYSLOG_TAG_".toList ++ Nat.toDigits 10 idx ++ ['_'], '_', ?_, rfl⟩, ?_⟩
    · rw [List.append_assoc _ ['_'] ['_']]
      rfl
    · intro c hc
      rw [List.mem_append, List.mem_append] at hc
      rcases hc with (hc | hc) | hc
      · exact List.all_eq_true.mp (by decide : "__SYSLOG_TAG_".toList.all isFillerChar = true) c hc
      · rw [isFillerChar, Nat.isDigit_of_mem_toDigits (by decide) (by decide) hc, Bool.true_or]
      · exact List.all_eq_true.mp (by decide : "__".toList.all isFillerChar = true) c hc

lemma filled_replacement {replacement : List (String × Text) → Text}
    (h : ∀ gs, replacement gs = wildcard.toList) (pieces : List (Piece Char)) :
    Filled IsFiller (pieces.flatMap Piece.text) (pieces.flatMap fun
      | .gap c => [c]
      | .found _ gs => replacement gs) := by
  induction pieces with
  | nil => exact .nil
  | cons piece pieces ih =>
    rw [List.flatMap_cons, List.flatMap_cons]
    cases piece with
    | gap c => exact .keep c ih
    | found tag gs => exact .fill tag (Or.inl (h gs)) ih

lemma filled_protectTags (idx : ℕ) (pieces : List (Piece Char)) :
    Filled IsFiller (pieces.flatMap Piece.text) (protectTags idx pieces).1 := by
  induction pieces generalizing idx with
  | nil => exact .nil
  | cons piece pieces ih =>
    rw [List.flatMap_cons]
    cases piece with
    | gap c => exact .keep c (ih idx)
    | found tag gs => exact .fill tag (Or.inr ⟨idx, rfl⟩) (ih (idx + 1))

section Traces

variable {raw w : Text} (hw : Traceable isMark isFillerChar w)
include hw

lemma infix_of_run {passes : List MaskPass} (hpasses : .kvNum ∉ passes) {s : Text}
    (h : w <:+: (ofTables tables).run (fun _ => true) passes s) : w <:+: s := by
  induction passes generalizing s with
  | nil => exact h
  | cons p passes ih =>
    rw [List.mem_cons, not_or] at hpasses
    have hreplacement : ∀ gs, p.replacement gs = wildcard.toList := by
      intro gs
      cases p with
      | kvNum => exact absurd rfl hpasses.1
      | _ => rfl
    have hfilled := filled_replacement hreplacement (p.re (ofTables tables) s)
    have htext : (p.re (ofTables tables) s).flatMap Piece.text = s := by
      rw [re_ofTables]
      exact flatMap_text_pieces (nullable_regex p) 0 [] s
    rw [htext] at hfilled
    exact hfilled.trace sealed_of_isFiller hw (ih hpasses.2 h)

lemma infix_of_textBeforeAll {p : MaskPass} (hp : p ≠ .pureNum)
    (h : w <:+: (ofTables tables).textBeforeAll raw p) : w <:+: raw := by
  have hpasses : .kvNum ∉ before p := by
    cases p with
    | pureNum => exact absurd rfl hp
    | _ => decide
  have hfilled := filled_protectTags 0 ((ofTables tables).reSyslogTag raw)
  have htext : ((ofTables tables).reSyslogTag raw).flatMap Piece.text = raw :=
    flatMap_text_pieces (by decide) 0 [] raw
  rw [htext] at hfilled
  exact hfilled.trace sealed_of_isFiller hw (infix_of_run hw hpasses h)

end Traces

/-! ### What the guards look for -/

lemma traceable_of_mem {w : Text} {c : Char} (hw : w.all (fun x => !isMark x) = true) (hc : c ∈ w)
    (h : isFillerChar c = false) : Traceable isMark isFillerChar w where
  unmarked x hx := by simpa using List.all_eq_true.mp hw x hx
  outside := ⟨c, hc, h⟩

section Guards

variable {raw : Text}

lemma mem_of_finds {p : MaskPass} (hp : p ≠ .pureNum) {q : Char → Bool}
    (hq : ∀ c, q c = true → isMark c = false ∧ isFillerChar c = false)
    (hneeds : needs (only q) q p.regex = true)
    (h : Finds tables p.regex ((ofTables tables).textBeforeAll raw p)) : ∃ c ∈ raw, q c = true := by
  obtain ⟨c, hc, hqc⟩ := exists_of_finds hneeds h
  have hw : Traceable isMark isFillerChar [c] :=
    traceable_of_mem (by simp [(hq c hqc).1]) List.mem_cons_self (hq c hqc).2
  obtain ⟨before, after, hsplit⟩ := List.append_of_mem hc
  have hfound : [c] <:+: (ofTables tables).textBeforeAll raw p := ⟨before, after, by simp [hsplit]⟩
  exact ⟨c, (infix_of_textBeforeAll hw hp hfound).subset List.mem_cons_self, hqc⟩

lemma contains_of_finds {p : MaskPass} (hp : p ≠ .pureNum) {c : Char}
    (hc : isMark c = false ∧ isFillerChar c = false)
    (hneeds : needs (only (· == c)) (· == c) p.regex = true)
    (h : Finds tables p.regex ((ofTables tables).textBeforeAll raw p)) : raw.contains c = true := by
  have hq : ∀ d, (d == c) = true → isMark d = false ∧ isFillerChar d = false := by
    intro d hd
    rwa [beq_iff_eq.mp hd]
  obtain ⟨d, hd, heq⟩ := mem_of_finds hp hq hneeds h
  rw [beq_iff_eq.mp heq] at hd
  rwa [List.contains_iff_mem]

lemma contains_or_of_finds {p : MaskPass} (hp : p ≠ .pureNum) {c d : Char}
    (hc : isMark c = false ∧ isFillerChar c = false)
    (hd : isMark d = false ∧ isFillerChar d = false)
    (hneeds : needs (only fun x => x == c || x == d) (fun x => x == c || x == d) p.regex = true)
    (h : Finds tables p.regex ((ofTables tables).textBeforeAll raw p)) :
    (raw.contains c || raw.contains d) = true := by
  have hq : ∀ x, (x == c || x == d) = true → isMark x = false ∧ isFillerChar x = false := by
    intro x hx
    rw [Bool.or_eq_true, beq_iff_eq, beq_iff_eq] at hx
    rcases hx with rfl | rfl
    · exact hc
    · exact hd
  obtain ⟨x, hx, heq⟩ := mem_of_finds hp hq hneeds h
  rw [Bool.or_eq_true, beq_iff_eq, beq_iff_eq] at heq
  rw [Bool.or_eq_true, List.contains_iff_mem, List.contains_iff_mem]
  rcases heq with rfl | rfl
  · exact Or.inl hx
  · exact Or.inr hx

lemma http_of_finds
    (h : Finds tables (MaskPass.regex .url) ((ofTables tables).textBeforeAll raw .url)) :
    contains raw "http" = true := by
  obtain ⟨m, ⟨scheme, rest, rfl, hscheme, -⟩, hfound⟩ := h.exists_lang
  rw [lang_plain hscheme] at hfound
  have hw : Traceable isMark isFillerChar "http".toList :=
    traceable_of_mem (c := 'h') (by decide) (by decide) (by decide)
  rw [contains_eq_true_iff]
  exact infix_of_textBeforeAll hw (by decide) (List.infix_append_left.trans hfound)

lemma zero_x_of_finds (h : Finds tables hexNumber ((ofTables tables).textBeforeAll raw .hex)) :
    contains raw "0x" = true := by
  obtain ⟨m, ⟨bound, rest, rfl, rfl, ⟨zeroX, digits, rfl, hzeroX, -⟩⟩, hfound⟩ := h.exists_lang
  rw [lang_plain hzeroX, List.nil_append] at hfound
  have hw : Traceable isMark isFillerChar "0x".toList :=
    traceable_of_mem (c := 'x') (by decide) (by decide) (by decide)
  rw [contains_eq_true_iff]
  exact infix_of_textBeforeAll hw (by decide) (List.infix_append_left.trans hfound)

/-- The guards that are necessary conditions. -/
lemma guard_of_finds {p : MaskPass} (huuid : p ≠ .uuid) (hhex : p ≠ .hex) (hnum : p ≠ .pureNum)
    (h : Finds tables p.regex ((ofTables tables).textBeforeAll raw p)) : p.guard raw = true := by
  cases p with
  | url => exact http_of_finds h
  | uuid => exact absurd rfl huuid
  | hex => exact absurd rfl hhex
  | timestampIso =>
    rw [MaskPass.guard, contains_of_finds hnum (by decide) (by decide) h,
      contains_or_of_finds hnum (by decide) (by decide) (by decide) h, Bool.and_self]
  | timestampSyslog => exact contains_of_finds hnum (by decide) (by decide) h
  | ipPort =>
    rw [MaskPass.guard, contains_of_finds hnum (by decide) (by decide) h,
      contains_or_of_finds hnum (by decide) (by decide) (by decide) h, Bool.and_self]
  | ip => exact contains_of_finds hnum (by decide) (by decide) h
  | kvNum => exact contains_of_finds hnum (by decide) (by decide) h
  | pureNum => exact absurd rfl hnum

end Guards

/-! ### Lines that are a UUID -/

/-- The characters of an atom are none of these. -/
def avoids (bad : List Char) : Atom → Bool
  | .char c => !bad.contains c
  | .set false items => items.all fun
    | .char c => !bad.contains c
    | .range lo hi => bad.all fun c => c < lo || hi < c
    | .space => false
  | _ => false

lemma of_avoids {bad : List Char} (a : Atom) (x : Char) (h : avoids bad a = true)
    (hx : a.accepts tables x = true) : (!bad.contains x) = true := by
  cases a with
  | char c =>
    rw [Atom.accepts, beq_iff_eq] at hx
    rwa [hx]
  | set negated items =>
    cases negated with
    | true => cases h
    | false =>
      have hany : items.any (·.accepts tables x) = true := by simpa [Atom.accepts] using hx
      obtain ⟨item, hitem, haccepts⟩ := List.any_eq_true.mp hany
      have havoids := List.all_eq_true.mp h item hitem
      cases item with
      | char c =>
        rw [SetItem.accepts, beq_iff_eq] at haccepts
        rwa [haccepts]
      | range lo hi =>
        rw [SetItem.accepts, Bool.and_eq_true, decide_eq_true_eq, decide_eq_true_eq] at haccepts
        rw [Bool.not_eq_true', List.contains_eq_mem, decide_eq_false_iff_not]
        intro hmem
        have hside := List.all_eq_true.mp havoids x hmem
        rw [Bool.or_eq_true, decide_eq_true_eq, decide_eq_true_eq] at hside
        rcases hside with hlo | hhi
        · exact absurd haccepts.1 (Char.not_le.mpr hlo)
        · exact absurd haccepts.2 (Char.not_le.mpr hhi)
      | space => cases havoids
  | escaped c => cases h
  | dot => cases h
  | digit => cases h
  | space => cases h
  | nonSpace => cases h
  | word => cases h

/-- Characters that no UUID has. -/
def notInUuid : List Char := ['_', '<', '>', '%', 'h']

lemma exists_uuid {s : Text} (h : Finds tables uuidText s) : ∃ m, m <:+: s ∧ '-' ∈ m ∧
    36 ≤ m.length ∧ ∀ c ∈ m, (!notInUuid.contains c) = true := by
  obtain ⟨m, hm, hfound⟩ := h.exists_lang
  obtain ⟨c, hc, hdash⟩ := exists_of_needs (of_only tables (q := (· == '-'))) (by decide) hm
  rw [beq_iff_eq] at hdash
  subst hdash
  exact ⟨m, hfound, hc, minLength_le hm, forall_of_allIn of_avoids (by decide) hm⟩

lemma length_le_utf8Len (s : Text) : s.length ≤ utf8Len s := by
  induction s with
  | nil => exact Nat.le_refl 0
  | cons c s ih =>
    have hpos := c.utf8Size_pos
    rw [List.length_cons, utf8Len]
    omega

lemma eq_of_infix {m raw : Text} (h : m <:+: raw) (hlen : utf8Len raw ≤ m.length) : raw = m := by
  obtain ⟨a, b, rfl⟩ := h
  rw [utf8Len_append, utf8Len_append] at hlen
  have hm := length_le_utf8Len m
  have ha : a = [] := utf8Len_eq_zero (by omega)
  have hb : b = [] := utf8Len_eq_zero (by omega)
  rw [ha, hb, List.nil_append, List.append_nil]

lemma textBeforeAll_uuid {raw : Text} (h : ∀ c ∈ raw, (!notInUuid.contains c) = true) :
    (ofTables tables).textBeforeAll raw .uuid = raw := by
  have hpercent : raw.contains '%' = false := by
    rw [List.contains_eq_mem, decide_eq_false_iff_not]
    intro hmem
    cases h '%' hmem
  have hurl : ¬Finds tables (MaskPass.regex .url) raw := by
    intro hfinds
    obtain ⟨m, ⟨scheme, rest, rfl, hscheme, -⟩, hfound⟩ := hfinds.exists_lang
    rw [lang_plain hscheme] at hfound
    cases h 'h' (hfound.subset List.mem_cons_self)
  rw [textBeforeAll, protectTags_of_no_percent hpercent]
  exact replaceAll_of_unmatched ((unmatched_iff .url raw).mpr hurl) _

/-- The guard asks for one byte too many. -/
lemma guard_or_of_uuid {raw : Text}
    (h : Finds tables uuidText ((ofTables tables).textBeforeAll raw .uuid)) :
    MaskPass.guard raw .uuid = true ∨ utf8Len raw = 36 ∧ Finds tables uuidText raw := by
  obtain ⟨m, hfound, hdash, hlength, havoids⟩ := exists_uuid h
  have hw : Traceable isMark isFillerChar m := by
    refine traceable_of_mem (List.all_eq_true.mpr fun c hc => ?_) hdash (by decide)
    have hc := havoids c hc
    simp only [notInUuid, isMark, List.contains_cons, Bool.not_or, Bool.and_eq_true] at hc ⊢
    exact ⟨⟨hc.1, hc.2.1⟩, hc.2.2.1⟩
  have hraw := infix_of_textBeforeAll hw (by decide) hfound
  by_cases hlen : 36 < utf8Len raw
  · left
    rw [MaskPass.guard, Bool.and_eq_true, List.contains_iff_mem, decide_eq_true_eq]
    exact ⟨hraw.subset hdash, hlen⟩
  · right
    obtain rfl := eq_of_infix hraw (by omega)
    rw [textBeforeAll_uuid havoids] at h
    have hbytes := length_le_utf8Len raw
    exact ⟨by omega, h⟩

/-! ### Transparent lines -/

lemma new_eq {regex : String → Option CompiledMatches} (h : Compiles regex tables) :
    LogMasker.new regex = some (ofTables tables) := by
  have hpattern : ∀ r ∈ expressions, ∀ pattern, r.text id = pattern →
      regex pattern = some (matchesOf tables r) := by
    rintro r hr _ rfl
    exact h r hr
  have hpass : ∀ p : MaskPass, p.regex ∈ expressions := by
    intro p
    cases p <;> simp [expressions, MaskPass.all]
  unfold LogMasker.new
  rw [hpattern syslogTag List.mem_cons_self, hpattern _ (hpass .ipPort), hpattern _ (hpass .ip),
    hpattern _ (hpass .timestampIso), hpattern _ (hpass .timestampSyslog), hpattern _ (hpass .hex),
    hpattern _ (hpass .uuid), hpattern _ (hpass .url), hpattern _ (hpass .kvNum),
    hpattern _ (hpass .pureNum)]
  · rfl
  all_goals decide +kernel

/-- The lines that the shortcuts do not change. -/
def ShortcutsSafe (tables : CharTables) (raw : Text) : Prop :=
  if hasAsciiDigit raw || raw.contains '%' then
    ¬(utf8Len raw = 36 ∧ Finds tables uuidText raw) ∧
      (contains raw "0x" = false →
        ¬Finds tables bareHash ((ofTables tables).textBeforeAll raw .hex)) ∧
      (hasAsciiDigit raw = false →
        ¬Finds tables pureNum ((ofTables tables).textBeforeAll raw .pureNum))
  else ∀ p : MaskPass, ¬Finds tables p.regex raw

section Line

variable {raw : Text}

lemma run_false (m : LogMasker) (passes : List MaskPass) (s : Text) :
    m.run (fun _ => false) passes s = s := by
  induction passes with
  | nil => rfl
  | cons p passes ih => exact ih

lemma taken_of_open (h : (hasAsciiDigit raw || raw.contains '%') = true) :
    taken raw = MaskPass.guard raw := by
  funext p
  rw [taken, h, Bool.true_and]

lemma taken_of_closed (h : (hasAsciiDigit raw || raw.contains '%') = false) :
    taken raw = fun _ => false := by
  funext p
  rw [taken, h, Bool.false_and]

/-- The early return skips all passes. -/
lemma mask_eq : (ofTables tables).mask raw =
    let tagged := protectTags 0 ((ofTables tables).reSyslogTag raw)
    restoreTags tagged.2 ((ofTables tables).run (taken raw) MaskPass.all tagged.1) := by
  rw [mask, opened_eq, ← Bool.not_or]
  cases hopen : hasAsciiDigit raw || raw.contains '%' with
  | true =>
    rw [taken_of_open hopen]
    rfl
  | false =>
    have hpercent : raw.contains '%' = false := (Bool.or_eq_false_iff.mp hopen).2
    rw [taken_of_closed hopen, protectTags_of_no_percent hpercent]
    dsimp only
    rw [run_false]
    rfl

lemma transparent_of_not_finds
    (h : ∀ p, taken raw p = false → ¬Finds tables p.regex ((ofTables tables).textBeforeAll raw p)) :
    (ofTables tables).Transparent raw := by
  obtain ⟨hbefore, hall⟩ := run_before_eq (taken raw)
    (protectTags 0 ((ofTables tables).reSyslogTag raw)).1
    fun p hp => Or.inr ((unmatched_iff p _).mpr (h p hp))
  refine ⟨?_, unmatched_syslogTag, fun p hp => ?_⟩
  · rw [mask_eq]
    dsimp only
    rw [hall]
    rfl
  · rw [textBefore, opened_eq, hbefore]
    exact (unmatched_iff p _).mpr (h p hp)

lemma Transparent.not_finds (h : (ofTables tables).Transparent raw) {p : MaskPass}
    (hp : taken raw p = false) :
    ¬Finds tables p.regex ((ofTables tables).textBeforeAll raw p) := by
  have hpasses : ∀ q, taken raw q = false → Unmatched (q.re (ofTables tables)
      ((ofTables tables).run (taken raw) (before q)
        (protectTags 0 ((ofTables tables).reSyslogTag raw)).1)) := by
    intro q hq
    have hq := h.passes q hq
    rwa [textBefore, opened_eq] at hq
  obtain ⟨hbefore, -⟩ := run_before_eq _ _ fun q hq => Or.inl (hpasses q hq)
  rw [← unmatched_iff, textBeforeAll, ← hbefore]
  exact hpasses p hp

theorem transparent_ofTables_iff :
    (ofTables tables).Transparent raw ↔ ∀ p, taken raw p = false →
      ¬Finds tables p.regex ((ofTables tables).textBeforeAll raw p) :=
  ⟨fun h _ hp => h.not_finds hp, transparent_of_not_finds⟩

lemma uuid_skipped (hlen : utf8Len raw = 36) (h : Finds tables uuidText raw) :
    MaskPass.guard raw .uuid = false ∧
      Finds tables uuidText ((ofTables tables).textBeforeAll raw .uuid) := by
  obtain ⟨m, hfound, -, hlength, havoids⟩ := exists_uuid h
  obtain rfl := eq_of_infix hfound (by omega)
  constructor
  · rw [MaskPass.guard, hlen]
    exact Bool.and_false _
  · rwa [textBeforeAll_uuid havoids]

lemma shortcutsSafe_of_open (hopen : (hasAsciiDigit raw || raw.contains '%') = true) :
    ShortcutsSafe tables raw ↔ ∀ p, taken raw p = false →
      ¬Finds tables p.regex ((ofTables tables).textBeforeAll raw p) := by
  rw [ShortcutsSafe, if_pos hopen, taken_of_open hopen]
  constructor
  · rintro ⟨huuid, hhash, hnum⟩ p hp hfinds
    by_cases hpuuid : p = .uuid
    · subst hpuuid
      rcases guard_or_of_uuid hfinds with hguard | hline
      · rw [hguard] at hp
        cases hp
      · exact huuid hline
    by_cases hphex : p = .hex
    · subst hphex
      rcases occurs_alt.mp hfinds with hnumber | hbare
      · rw [MaskPass.guard, zero_x_of_finds hnumber] at hp
        cases hp
      · exact hhash hp hbare
    by_cases hpnum : p = .pureNum
    · subst hpnum
      exact hnum hp hfinds
    rw [guard_of_finds hpuuid hphex hpnum hfinds] at hp
    cases hp
  · intro h
    refine ⟨?_, ?_, h .pureNum⟩
    · rintro ⟨hlen, hfinds⟩
      obtain ⟨hguard, hskipped⟩ := uuid_skipped hlen hfinds
      exact h .uuid hguard hskipped
    · intro hzero hbare
      exact h .hex hzero (occurs_alt.mpr (Or.inr hbare))

lemma shortcutsSafe_of_closed (hclosed : (hasAsciiDigit raw || raw.contains '%') = false) :
    ShortcutsSafe tables raw ↔ ∀ p, taken raw p = false →
      ¬Finds tables p.regex ((ofTables tables).textBeforeAll raw p) := by
  have hpercent : raw.contains '%' = false := (Bool.or_eq_false_iff.mp hclosed).2
  have hsame : (∀ p : MaskPass, ¬Finds tables p.regex raw) ∨
      (∀ p : MaskPass, ¬Finds tables p.regex ((ofTables tables).textBeforeAll raw p)) →
      ∀ p, (ofTables tables).textBeforeAll raw p = raw := by
    intro h p
    have hquiet : ∀ q : MaskPass, Unmatched (q.re (ofTables tables)
          ((ofTables tables).run (fun _ => false) (before q) raw)) ∨
        Unmatched (q.re (ofTables tables)
          ((ofTables tables).run (fun _ => true) (before q) raw)) := by
      intro q
      rcases h with hraw | hall
      · left
        rw [run_false]
        exact (unmatched_iff q raw).mpr (hraw q)
      · right
        have hq := (unmatched_iff q _).mpr (hall q)
        rwa [textBeforeAll, protectTags_of_no_percent hpercent] at hq
    have hrun := (run_before_eq _ _ fun q _ => hquiet q).1 p
    rw [run_false] at hrun
    rw [textBeforeAll, protectTags_of_no_percent hpercent, ← hrun]
  rw [ShortcutsSafe, hclosed, if_neg Bool.false_ne_true, taken_of_closed hclosed]
  constructor
  · intro h p _
    rw [hsame (Or.inl h)]
    exact h p
  · intro h p
    have hp := h p rfl
    rwa [hsame (Or.inr fun q => h q rfl)] at hp

theorem shortcutsSafe_iff : ShortcutsSafe tables raw ↔ ∀ p, taken raw p = false →
    ¬Finds tables p.regex ((ofTables tables).textBeforeAll raw p) := by
  cases h : hasAsciiDigit raw || raw.contains '%' with
  | true => exact shortcutsSafe_of_open h
  | false => exact shortcutsSafe_of_closed h

end Line

/-- The shortcuts change nothing exactly on the lines without what three guards and the early
return overlook. -/
theorem transparent_iff {regex : String → Option CompiledMatches} (h : Compiles regex tables) :
    ∃ m, LogMasker.new regex = some m ∧ ∀ raw, m.Transparent raw ↔ ShortcutsSafe tables raw :=
  ⟨ofTables tables, new_eq h, fun _ => transparent_ofTables_iff.trans shortcutsSafe_iff.symm⟩

/-- A crate that knows the expressions of the masker. -/
def asciiMatches (pattern : String) : Option CompiledMatches :=
  (expressions.find? fun r => r.text id == pattern).map (matchesOf Onboarder.asciiClasses)

lemma compiles_asciiMatches : Compiles asciiMatches Onboarder.asciiClasses := by
  have hnodup : (expressions.map (Regex.text id)).Nodup := by decide +kernel
  intro r hr
  obtain ⟨earlier, later, hsplit⟩ := List.append_of_mem hr
  have hfind : (expressions.find? fun q => q.text id == r.text id) = some r := by
    refine List.find?_eq_some_iff_append.mpr ⟨beq_self_eq_true _, earlier, later, hsplit, ?_⟩
    intro q hq
    rw [hsplit, List.map_append, List.map_cons, List.nodup_append] at hnodup
    have hne := hnodup.2.2 (q.text id) (List.mem_map_of_mem hq) (r.text id) List.mem_cons_self
    rw [Bool.not_eq_true', beq_eq_false_iff_ne]
    exact hne
  rw [asciiMatches, hfind]
  rfl

theorem transparent_iff_ascii : ∃ m, LogMasker.new asciiMatches = some m ∧
    ∀ raw, m.Transparent raw ↔ ShortcutsSafe Onboarder.asciiClasses raw :=
  transparent_iff compiles_asciiMatches

/-- The hash is left in the line, because the guard asks for `0x`. -/
theorem hash_not_masked : ∃ m, LogMasker.new asciiMatches = some m ∧
    m.mask "file d41d8cd98f00b204e9800998ecf8427e ok".toList =
      "file d41d8cd98f00b204e9800998ecf8427e ok".toList ∧
    m.maskAll "file d41d8cd98f00b204e9800998ecf8427e ok".toList = "file <*> ok".toList ∧
    ¬m.Transparent "file d41d8cd98f00b204e9800998ecf8427e ok".toList := by
  have hmask : (ofTables Onboarder.asciiClasses).mask
      "file d41d8cd98f00b204e9800998ecf8427e ok".toList =
        "file d41d8cd98f00b204e9800998ecf8427e ok".toList := by decide +kernel
  have hall : (ofTables Onboarder.asciiClasses).maskAll
      "file d41d8cd98f00b204e9800998ecf8427e ok".toList = "file <*> ok".toList := by decide +kernel
  refine ⟨ofTables Onboarder.asciiClasses, new_eq compiles_asciiMatches, hmask, hall, fun h => ?_⟩
  have hsame := h.same
  rw [hmask, hall] at hsame
  exact absurd hsame (by decide)

end LogMasker

end Ulpf.Ai.Drain
