import Ulpf.Library.Regex

/-!
# The concrete syntax of regular expressions

Expressions over characters with the classes of Perl and brackets, and the text that spells
them. The classes of all characters are tables, the laws of which are those of Unicode.
-/

namespace Ulpf.Library

structure CharTables where
  digit : Char → Bool
  space : Char → Bool
  word : Char → Bool

/-- An item of a bracket class. -/
inductive SetItem where
  | char (c : Char)
  | range (lo hi : Char)
  | space

inductive Atom where
  | char (c : Char)
  | escaped (c : Char)
  | dot
  | digit
  | space
  | nonSpace
  | word
  | set (negated : Bool) (items : List SetItem)

/-- An expression over characters. -/
abbrev CharRegex := Regex Char Atom

namespace SetItem

def accepts (tables : CharTables) : SetItem → Char → Bool
  | char c, x => x == c
  | range lo hi, x => lo ≤ x && x ≤ hi
  | space, x => tables.space x

def text : SetItem → String
  | char c => c.toString
  | range lo hi => lo.toString ++ "-" ++ hi.toString
  | space => "\\s"

end SetItem

namespace Atom

/-- The dot accepts all characters but the line feed. -/
def accepts (tables : CharTables) : Atom → Char → Bool
  | char c, x => x == c
  | escaped c, x => x == c
  | dot, x => x != '\n'
  | digit, x => tables.digit x
  | space, x => tables.space x
  | nonSpace, x => !tables.space x
  | word, x => tables.word x
  | set negated items, x => negated != items.any (·.accepts tables x)

def text : Atom → String
  | char c => c.toString
  | escaped c => "\\" ++ c.toString
  | dot => "."
  | digit => "\\d"
  | space => "\\s"
  | nonSpace => "\\S"
  | word => "\\w"
  | set negated items =>
    "[" ++ (if negated then "^" else "") ++ String.join (items.map SetItem.text) ++ "]"

end Atom

namespace Regex

def boundsText (min : ℕ) : Option ℕ → String
  | none => if min = 0 then "*" else if min = 1 then "+" else "\x7b" ++ toString min ++ ",\x7d"
  | some extra =>
    if extra = 0 then "\x7b" ++ toString min ++ "\x7d"
    else if min = 0 ∧ extra = 1 then "?"
    else "\x7b" ++ toString min ++ "," ++ toString (min + extra) ++ "\x7d"

/-- The spelling of an expression; `escape` spells a literal text. -/
def text (escape : String → String) : CharRegex → String
  | empty => ""
  | one a => a.text
  | literal s => escape (String.ofList s)
  | start => "^"
  | stop => "$"
  | boundary => "\\b"
  | seq r r' => text escape r ++ text escape r'
  | alt r r' => text escape r ++ "|" ++ text escape r'
  | group r => "(?:" ++ text escape r ++ ")"
  | capture label named r =>
    (if named then "(?P<" ++ label ++ ">" else "(") ++ text escape r ++ ")"
  | rep r min extra lazily =>
    text escape r ++ boundsText min extra ++ (if lazily then "?" else "")

/-- No text is spelt by `escape`. -/
def literalFree {α A : Type} : Regex α A → Bool
  | empty => true
  | one _ => true
  | literal _ => false
  | start => true
  | stop => true
  | boundary => true
  | seq r r' => literalFree r && literalFree r'
  | alt r r' => literalFree r && literalFree r'
  | group r => literalFree r
  | capture _ _ r => literalFree r
  | rep r _ _ _ => literalFree r

lemma text_of_literalFree {r : CharRegex} (h : literalFree r = true)
    (escape escape' : String → String) : text escape r = text escape' r := by
  induction r with
  | empty => rfl
  | one a => rfl
  | literal s => cases h
  | start => rfl
  | stop => rfl
  | boundary => rfl
  | seq r r' ih ih' =>
    rw [literalFree, Bool.and_eq_true] at h
    rw [text, text, ih h.1, ih' h.2]
  | alt r r' ih ih' =>
    rw [literalFree, Bool.and_eq_true] at h
    rw [text, text, ih h.1, ih' h.2]
  | group r ih => rw [text, text, ih h]
  | capture label named r ih => rw [text, text, ih h]
  | rep r min extra lazily ih => rw [text, text, ih h]

/-- The names of the groups that have one, in order. -/
def names {α A : Type} : Regex α A → List String
  | empty => []
  | one _ => []
  | literal _ => []
  | start => []
  | stop => []
  | boundary => []
  | seq r r' => names r ++ names r'
  | alt r r' => names r ++ names r'
  | group r => names r
  | capture label named r => (if named then [label] else []) ++ names r
  | rep r _ _ _ => names r

/-! ### Common expressions -/

/-- A sequence of expressions. -/
def cat {α A : Type} : List (Regex α A) → Regex α A
  | [] => empty
  | [r] => r
  | r :: r' :: rs => seq r (cat (r' :: rs))

/-- The characters of a text that need no escape. -/
def plain (s : String) : CharRegex := cat (s.toList.map fun c => one (.char c))

def star {α A : Type} (r : Regex α A) : Regex α A := rep r 0 none false
def plus {α A : Type} (r : Regex α A) : Regex α A := rep r 1 none false
def opt {α A : Type} (r : Regex α A) : Regex α A := rep r 0 (some 1) false
def exactly {α A : Type} (r : Regex α A) (n : ℕ) : Regex α A := rep r n (some 0) false
def upToMax {α A : Type} (r : Regex α A) (min max : ℕ) : Regex α A :=
  rep r min (some (max - min)) false
def lazyStar {α A : Type} (r : Regex α A) : Regex α A := rep r 0 none true

lemma lang_plain {tables : CharTables} {s : String} {m : List Char}
    (h : Lang (Atom.accepts tables) (plain s) m) : m = s.toList := by
  unfold plain at h
  generalize s.toList = chars at h ⊢
  have hone : ∀ {c : Char} {m : List Char},
      Lang (Atom.accepts tables) (one (.char c)) m → m = [c] := by
    rintro c m ⟨x, rfl, hx⟩
    rw [Atom.accepts, beq_iff_eq] at hx
    rw [hx]
  induction chars generalizing m with
  | nil => exact h
  | cons c chars ih =>
    cases chars with
    | nil => exact hone h
    | cons d chars =>
      obtain ⟨m₁, m₂, rfl, h₁, h₂⟩ := h
      rw [hone h₁, ih h₂]
      rfl

/-- `(?:a|b|c)`, or nothing for no words. -/
def anyOf : List String → CharRegex
  | [] => empty
  | [w] => plain w
  | w :: w' :: ws => alt (plain w) (anyOf (w' :: ws))

end Regex

end Ulpf.Library
