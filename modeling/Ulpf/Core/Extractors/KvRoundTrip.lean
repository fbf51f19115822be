import Ulpf.Core.Extractors.KvTotality
import Ulpf.Core.Words

/-!
# Printed pairs are read back

A line of `key=value` pairs with blanks and stray words between them. What `next` leaves behind
a pair is its stray words and the rest of the line, so the words end up before the next key and
are cut off there.
-/

namespace Ulpf.Core.KvTokenizer
open Ulpf.Library

/-! ### Printed lines -/

/-- A word over ASCII letters, digits and underscore. -/
structure Key where
  text : Text
  nonempty : text ≠ []
  wordChars : ∀ c ∈ text, c.isAlphanum = true ∨ c = '_'

inductive Value where
  | bare (text : Text) (spaceless : ∀ c ∈ text, isWhitespace c = false)
      (unquoted : text.head? ≠ some '"')
  | quoted (text : Text) (plain : ∀ c ∈ text, c ≠ '"' ∧ c ≠ '\\')

def Value.text : Value → Text
  | .bare text _ _ => text
  | .quoted text _ => text

def Value.print : Value → Text
  | .bare text _ _ => text
  | .quoted text _ => '"' :: (text ++ ['"'])

/-- A run of ASCII whitespace. -/
structure Blank where
  text : Text
  nonempty : text ≠ []
  asciiSpace : ∀ c ∈ text, isWhitespace c = true ∧ c.toNat < 128

/-- A word that is no part of a pair. -/
structure StrayWord where
  text : Text
  nonempty : text ≠ []
  spaceless : ∀ c ∈ text, isWhitespace c = false
  unsigned : '=' ∉ text

/-- A pair and the stray words behind it. -/
structure Entry where
  key : Key
  value : Value
  strays : List (Blank × StrayWord)

def printStrays (strays : List (Blank × StrayWord)) : Text :=
  strays.flatMap fun (blank, word) => blank.text ++ word.text

namespace Entry

variable (e : Entry)

def pair : Text × Text := (e.key.text, e.value.text)

def print : Text := e.key.text ++ '=' :: (e.value.print ++ printStrays e.strays)

end Entry

def printRest (entries : List (Blank × Entry)) : Text :=
  entries.flatMap fun (blank, e) => blank.text ++ e.print

/-- The entries with a blank before each but the first. -/
def printLine : List (Blank × Entry) → Text
  | [] => []
  | (_, e) :: entries => e.print ++ printRest entries

/-! ### Keys -/

/-- Text that a key may follow: nothing, or text without `=` that ends in a separator of one
byte. -/
structure Filler (s : Text) : Prop where
  unsigned : ∀ c ∈ s, (c == '=') = false
  closed : ∀ c ∈ s.getLast?, isWhitespace c = true ∧ c.utf8Size = 1

lemma Key.head_spec (key : Key) (isAlphanumeric : Char → Bool)
    (hascii : ∀ c, c.isAlphanum = true → isAlphanumeric c = true) :
    key.text.dropWhile (fun c => !isAlphanumeric c && c != '_') = key.text := by
  cases htext : key.text with
  | nil => exact absurd htext key.nonempty
  | cons c s =>
    apply List.dropWhile_cons_of_neg
    rcases key.wordChars c (htext ▸ List.mem_cons_self) with hc | rfl
    · simp [hascii c hc]
    · simp

lemma Key.not_separator (key : Key) : ∀ c ∈ key.text, isKeySeparator c = false := by
  intro c hc
  obtain ⟨hspace, hpipe, -⟩ := isWhitespace_of_wordChar (key.wordChars c hc)
  simp [isKeySeparator, hspace, hpipe]

lemma Key.unsigned (key : Key) : ∀ c ∈ key.text, (c == '=') = false := by
  intro c hc
  simpa using (isWhitespace_of_wordChar (key.wordChars c hc)).2.2

lemma Key.trimStart_text_append (key : Key) (s : Text) :
    trimStart (key.text ++ s) = key.text ++ s := by
  apply trimStart_eq_self
  intro c hc
  cases htext : key.text with
  | nil => exact absurd htext key.nonempty
  | cons d t =>
    rw [htext] at hc
    cases hc
    exact (isWhitespace_of_wordChar (key.wordChars c (htext ▸ List.mem_cons_self))).1

lemma Filler.trimStart_append {filler : Text} (h : Filler filler) (key : Key) (s : Text) :
    ∃ before, Filler before ∧
      trimStart (filler ++ (key.text ++ s)) = before ++ (key.text ++ s) := by
  refine ⟨filler.dropWhile isWhitespace, ⟨?_, ?_⟩, ?_⟩
  · intro c hc
    exact h.unsigned c ((List.dropWhile_sublist isWhitespace).subset hc)
  · intro c hc
    apply h.closed c
    obtain ⟨front, hfront⟩ := List.dropWhile_suffix (l := filler) isWhitespace
    rw [← hfront, Option.mem_def, List.getLast?_append, Option.mem_def.mp hc, Option.some_or]
  · rw [trimStart, List.dropWhile_append]
    cases hdrop : filler.dropWhile isWhitespace with
    | nil => exact key.trimStart_text_append s
    | cons c before => rfl

lemma Filler.keyOf_append {before : Text} (h : Filler before) (key : Key)
    {isAlphanumeric : Char → Bool}
    (hascii : ∀ c, c.isAlphanum = true → isAlphanumeric c = true) :
    keyOf isAlphanumeric (before ++ key.text) = some key.text := by
  rw [keyOf_eq, wordSlice]
  induction before using List.reverseRecOn with
  | nil =>
    rw [List.nil_append, rfindPos_eq_none key.not_separator]
    exact congrArg some (key.head_spec isAlphanumeric hascii)
  | append_singleton before c ih =>
    obtain ⟨hspace, hsize⟩ := h.closed c (by simp)
    have hsep : isKeySeparator c = true := by simp [isKeySeparator, hspace]
    have hslice : sliceFrom (before ++ c :: key.text) (utf8Len before + 1) = some key.text := by
      rw [sliceFrom_append_add, ← hsize]
      have hone := sliceFrom_append [c] key.text
      simpa [utf8Len] using hone
    rw [List.append_assoc, List.singleton_append, rfindPos_append_cons hsep key.not_separator]
    dsimp only
    rw [hslice]
    exact congrArg some (key.head_spec isAlphanumeric hascii)

/-! ### Values -/

lemma quoted_append {text : Text} (h : ∀ c ∈ text, c ≠ '"' ∧ c ≠ '\\') (rest : Text) :
    quoted false (text ++ '"' :: rest) = some (text, rest) := by
  induction text with
  | nil => rfl
  | cons c text ih =>
    rw [List.forall_mem_cons] at h
    have hbackslash : (c == '\\') = false := beq_eq_false_iff_ne.mpr h.1.2
    simp [quoted, h.1.1, hbackslash, ih h.2]

lemma value_print (v : Value) {rest : Text}
    (hrest : ∀ c ∈ rest.head?, isWhitespace c = true) :
    value (v.print ++ rest) = (v.text, rest) := by
  cases v with
  | quoted text plain =>
    have hquoted := quoted_append plain rest
    have hprint : (Value.quoted text plain).print ++ rest = '"' :: (text ++ '"' :: rest) := by
      simp [Value.print]
    rw [hprint, value, hquoted]
    rfl
  | bare text spaceless unquoted =>
    have hbare : ∀ inner, text ++ rest ≠ '"' :: inner := by
      intro inner heq
      cases text with
      | nil =>
        have hquote := hrest '"' (by rw [List.nil_append] at heq; rw [heq]; rfl)
        exact absurd hquote (by decide)
      | cons c text =>
        cases heq
        exact unquoted rfl
    have hvalue : value (text ++ rest) = ((text ++ rest).takeWhile (!isWhitespace ·),
        (text ++ rest).dropWhile (!isWhitespace ·)) := by
      unfold value
      split
      · next inner heq => exact absurd heq (hbare inner)
      · rfl
    have hcut : (text ++ rest).takeWhile (!isWhitespace ·) = text ∧
        (text ++ rest).dropWhile (!isWhitespace ·) = rest := by
      cases rest with
      | nil => simpa using takeWhile_not_eq_self spaceless
      | cons c rest => exact takeWhile_not_append_cons spaceless (hrest c rfl) rest
    rw [Value.print, hvalue, hcut.1, hcut.2]
    rfl

/-! ### Lines -/

lemma Blank.head_space (blank : Blank) (s : Text) :
    ∀ c ∈ (blank.text ++ s).head?, isWhitespace c = true := by
  intro c hc
  cases htext : blank.text with
  | nil => exact absurd htext blank.nonempty
  | cons d t =>
    rw [htext] at hc
    cases hc
    exact (blank.asciiSpace c (htext ▸ List.mem_cons_self)).1

lemma head_printStrays (strays : List (Blank × StrayWord)) (entries : List (Blank × Entry)) :
    ∀ c ∈ (printStrays strays ++ printRest entries).head?, isWhitespace c = true := by
  cases strays with
  | nil =>
    cases entries with
    | nil => simp [printStrays, printRest]
    | cons p entries =>
      simp only [printStrays, printRest, List.flatMap_nil, List.nil_append, List.flatMap_cons,
        List.append_assoc]
      exact p.1.head_space _
  | cons p strays =>
    simp only [printStrays, List.flatMap_cons, List.append_assoc]
    exact p.1.head_space _

lemma printStrays_unsigned (strays : List (Blank × StrayWord)) :
    ∀ c ∈ printStrays strays, (c == '=') = false := by
  intro c hc
  obtain ⟨⟨blank, word⟩, -, hc⟩ := List.mem_flatMap.mp hc
  rw [beq_eq_false_iff_ne]
  rcases List.mem_append.mp hc with hblank | hword
  · rintro rfl
    exact absurd (blank.asciiSpace _ hblank).1 (by decide)
  · rintro rfl
    exact word.unsigned hword

lemma filler_strays (strays : List (Blank × StrayWord)) (blank : Blank) :
    Filler (printStrays strays ++ blank.text) where
  unsigned := by
    rw [List.forall_mem_append]
    refine ⟨printStrays_unsigned strays, ?_⟩
    intro c hc
    rw [beq_eq_false_iff_ne]
    rintro rfl
    exact absurd (blank.asciiSpace _ hc).1 (by decide)
  closed := by
    intro c hc
    rw [Option.mem_def, List.getLast?_append_of_ne_nil _ blank.nonempty] at hc
    obtain ⟨hspace, hascii⟩ := blank.asciiSpace c (List.mem_of_getLast? hc)
    refine ⟨hspace, ?_⟩
    rw [Char.utf8Size_eq_one_iff]
    exact Nat.lt_succ_iff.mp hascii

/-- A call of `next` takes the first entry and leaves its stray words before the others. -/
lemma next_print {isAlphanumeric : Char → Bool}
    (hascii : ∀ c, c.isAlphanum = true → isAlphanumeric c = true) {filler : Text}
    (hfiller : Filler filler) (e : Entry) (entries : List (Blank × Entry)) :
    next isAlphanumeric (filler ++ (e.print ++ printRest entries)) =
      some (some e.pair, printStrays e.strays ++ printRest entries) := by
  have hprint : e.print ++ printRest entries = e.key.text ++
      '=' :: (e.value.print ++ (printStrays e.strays ++ printRest entries)) := by
    simp [Entry.print]
  obtain ⟨before, hbefore, htrim⟩ := hfiller.trimStart_append e.key
    ('=' :: (e.value.print ++ (printStrays e.strays ++ printRest entries)))
  have hunsigned : ∀ c ∈ before ++ e.key.text, (c == '=') = false :=
    List.forall_mem_append.mpr ⟨hbefore.unsigned, e.key.unsigned⟩
  have hcut := takeWhile_not_append_cons hunsigned (beq_self_eq_true '=')
    (e.value.print ++ (printStrays e.strays ++ printRest entries))
  have htake : (before ++ e.key.text ++ '=' :: (e.value.print ++
      (printStrays e.strays ++ printRest entries))).takeWhile (· != '=') = before ++ e.key.text :=
    hcut.1
  have hdrop : (before ++ e.key.text ++ '=' :: (e.value.print ++
      (printStrays e.strays ++ printRest entries))).dropWhile (· != '=') =
        '=' :: (e.value.print ++ (printStrays e.strays ++ printRest entries)) := hcut.2
  have hpair : splitPair (filler ++ (e.print ++ printRest entries)) = some
      ((before ++ e.key.text, e.value.text), printStrays e.strays ++ printRest entries) := by
    rw [splitPair, hprint, htrim, ← List.append_assoc, hdrop, htake]
    simp only [value_print e.value (head_printStrays e.strays entries)]
  rw [next_eq, hpair]
  simp only [hbefore.keyOf_append e.key hascii, Option.map_some]
  rfl

lemma yields_print {isAlphanumeric : Char → Bool}
    (hascii : ∀ c, c.isAlphanum = true → isAlphanumeric c = true) {filler : Text}
    (hfiller : Filler filler) (e : Entry) (entries : List (Blank × Entry)) :
    Yields isAlphanumeric (filler ++ (e.print ++ printRest entries))
      (e.pair :: entries.map fun p => p.2.pair) := by
  induction entries generalizing filler e with
  | nil =>
    refine .item (next_print hascii hfiller e []) ?_
    have hnone : splitPair (printStrays e.strays) = none := by
      have hunsigned : ∀ c ∈ trimStart (printStrays e.strays), (c == '=') = false := fun c hc =>
        printStrays_unsigned e.strays c ((List.dropWhile_sublist isWhitespace).subset hc)
      have hdrop : (trimStart (printStrays e.strays)).dropWhile (· != '=') = [] :=
        (takeWhile_not_eq_self hunsigned).2
      rw [splitPair, hdrop]
    apply @Yields.done _ _ (trimStart (printStrays e.strays))
    rw [printRest, List.flatMap_nil, List.append_nil, next_eq, hnone]
  | cons p entries ih =>
    refine .item (next_print hascii hfiller e (p :: entries)) ?_
    have hrest : printStrays e.strays ++ printRest (p :: entries) =
        (printStrays e.strays ++ p.1.text) ++ (p.2.print ++ printRest entries) := by
      simp [printRest]
    rw [hrest]
    exact ih (filler_strays e.strays p.1) p.2

/-! ### The ends of a line -/

/-- The text ends in a character that is not whitespace. -/
def EndsInWord (s : Text) : Prop := ∃ front c, s = front ++ [c] ∧ isWhitespace c = false

lemma EndsInWord.append_left {s : Text} (h : EndsInWord s) (t : Text) : EndsInWord (t ++ s) := by
  obtain ⟨front, c, rfl, hc⟩ := h
  exact ⟨t ++ front, c, by rw [List.append_assoc], hc⟩

lemma endsInWord_of_spaceless {s : Text} (hne : s ≠ []) (h : ∀ c ∈ s, isWhitespace c = false) :
    EndsInWord s :=
  ⟨s.dropLast, s.getLast hne, (List.dropLast_append_getLast hne).symm, h _ (List.getLast_mem hne)⟩

lemma Value.endsInWord_print (v : Value) : EndsInWord ('=' :: v.print) := by
  cases v with
  | bare text spaceless unquoted =>
    exact endsInWord_of_spaceless (List.cons_ne_nil _ _)
      (List.forall_mem_cons.mpr ⟨by decide, spaceless⟩)
  | quoted text plain => exact ⟨'=' :: '"' :: text, '"', rfl, by decide⟩

lemma endsInWord_printStrays {strays : List (Blank × StrayWord)} (hne : strays ≠ []) :
    EndsInWord (printStrays strays) := by
  induction strays using List.reverseRecOn with
  | nil => exact absurd rfl hne
  | append_singleton strays p =>
    have hprint : printStrays (strays ++ [p]) =
        (printStrays strays ++ p.1.text) ++ p.2.text := by simp [printStrays]
    rw [hprint]
    exact (endsInWord_of_spaceless p.2.nonempty p.2.spaceless).append_left _

lemma Entry.endsInWord_print (e : Entry) : EndsInWord e.print := by
  apply EndsInWord.append_left
  cases hstrays : e.strays with
  | nil =>
    have hprint : e.value.print ++ printStrays [] = e.value.print := List.append_nil _
    rw [hprint]
    exact e.value.endsInWord_print
  | cons p strays =>
    exact (endsInWord_printStrays (List.cons_ne_nil p strays)).append_left ('=' :: e.value.print)

lemma endsInWord_printLine (e : Entry) (entries : List (Blank × Entry)) :
    EndsInWord (e.print ++ printRest entries) := by
  induction entries using List.reverseRecOn with
  | nil =>
    rw [printRest, List.flatMap_nil, List.append_nil]
    exact e.endsInWord_print
  | append_singleton entries p =>
    have hprint : e.print ++ printRest (entries ++ [p]) =
        (e.print ++ printRest entries ++ p.1.text) ++ p.2.print := by simp [printRest]
    rw [hprint]
    exact p.2.endsInWord_print.append_left _

lemma trim_printLine (e : Entry) (entries : List (Blank × Entry)) :
    trim (e.print ++ printRest entries) = e.print ++ printRest entries := by
  apply strip_eq_self (p := isWhitespace)
  constructor
  · intro c hc
    cases htext : e.key.text with
    | nil => exact absurd htext e.key.nonempty
    | cons d t =>
      rw [Entry.print, htext] at hc
      cases hc
      exact (isWhitespace_of_wordChar (e.key.wordChars c (htext ▸ List.mem_cons_self))).1
  · obtain ⟨front, c, hsplit, hc⟩ := endsInWord_printLine e entries
    intro d hd
    rw [hsplit, List.getLast?_concat, Option.mem_def, Option.some.injEq] at hd
    rw [← hd]
    exact hc

lemma tokenizes_print {isAlphanumeric : Char → Bool}
    (hascii : ∀ c, c.isAlphanum = true → isAlphanumeric c = true) (entries : List (Blank × Entry)) :
    Tokenizes isAlphanumeric (printLine entries) (entries.map fun p => p.2.pair) := by
  cases entries with
  | nil => exact .done rfl
  | cons p entries =>
    rw [Tokenizes, printLine, trim_printLine, List.map_cons]
    have hnil : Filler [] := ⟨List.forall_mem_nil _, by simp⟩
    have hyields := yields_print hascii hnil p.2 entries
    rwa [List.nil_append] at hyields

/-- Reading a printed line gives its pairs back, in their order. -/
theorem tokenizes_printLine (isAlphanumeric : Char → Bool)
    (hascii : ∀ c, c.isAlphanum = true → isAlphanumeric c = true) (entries : List (Blank × Entry)) :
    Tokenizes isAlphanumeric (printLine entries) (entries.map fun p => p.2.pair) :=
  tokenizes_print hascii entries

def spaceBlank : Blank := ⟨[' '], by decide, by simp [isWhitespace]⟩

/-- `a="x = y" stray b=1=2` -/
def twoEntries : List (Blank × Entry) :=
  [(spaceBlank, ⟨⟨['a'], by decide, by simp⟩, .quoted "x = y".toList (by simp),
      [(spaceBlank, ⟨"stray".toList, by simp, by simp [isWhitespace], by simp⟩)]⟩),
    (spaceBlank, ⟨⟨['b'], by decide, by simp⟩,
      .bare "1=2".toList (by simp [isWhitespace]) (by simp), []⟩)]

theorem tokenizes_printLine_two :
    Tokenizes Char.isAlphanum "a=\"x = y\" stray b=1=2".toList
      [(['a'], "x = y".toList), (['b'], "1=2".toList)] := by
  have hline : printLine twoEntries = "a=\"x = y\" stray b=1=2".toList := by decide +kernel
  rw [← hline]
  exact tokenizes_printLine Char.isAlphanum (fun _ h => h) twoEntries

end Ulpf.Core.KvTokenizer
