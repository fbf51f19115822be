import Mathlib.Data.List.Basic
import Mathlib.Data.Nat.Notation

/-!
# Texts of IP addresses

The dotted form of version 4 and the forms of version 6: eight words in groups of hexadecimal
digits, the last two of which may be a dotted address, and one run of zero words left out.
-/

namespace Ulpf.Library

def octetText (n : UInt8) : List Char := Nat.toDigits 10 n.toNat

def IsIpv4 (s : List Char) : Prop := ∃ a b c d : UInt8,
  s = octetText a ++ '.' :: (octetText b ++ '.' :: (octetText c ++ '.' :: octetText d))

def isHexDigit (c : Char) : Bool := c.isDigit || ('a' ≤ c && c ≤ 'f') || ('A' ≤ c && c ≤ 'F')

/-- One word: up to four hexadecimal digits. -/
structure IsGroup (s : List Char) : Prop where
  ne_nil : s ≠ []
  length_le : s.length ≤ 4
  digits : ∀ c ∈ s, isHexDigit c = true

/-- The parts of the end of an address, which stand for `n` words. -/
def AreLastParts (n : ℕ) (parts : List (List Char)) : Prop :=
  ((∀ part ∈ parts, IsGroup part) ∧ parts.length = n) ∨
    ∃ groups ipv4, parts = groups ++ [ipv4] ∧ (∀ part ∈ groups, IsGroup part) ∧ IsIpv4 ipv4 ∧
      groups.length + 2 = n

def colonJoined (parts : List (List Char)) : List Char := [':'].intercalate parts

inductive IsIpv6 : List Char → Prop
  | full {parts : List (List Char)} (last : AreLastParts 8 parts) : IsIpv6 (colonJoined parts)
  | compressed {n : ℕ} {parts right : List (List Char)} (left : ∀ part ∈ parts, IsGroup part)
      (last : AreLastParts n right) (short : parts.length + n ≤ 7) :
      IsIpv6 (colonJoined parts ++ ':' :: ':' :: colonJoined right)

/-! ### Characters of an address -/

lemma IsIpv4.digit_or_dot {s : List Char} (h : IsIpv4 s) : ∀ c ∈ s, c.isDigit = true ∨ c = '.' := by
  obtain ⟨a, b, c, d, rfl⟩ := h
  have hoctet : ∀ n : UInt8, ∀ x ∈ octetText n, x.isDigit = true :=
    fun n x hx => Nat.isDigit_of_mem_toDigits (by decide) (by decide) hx
  intro x hx
  simp only [List.mem_append, List.mem_cons] at hx
  rcases hx with hx | hx | hx | hx | hx | hx | hx
  · exact Or.inl (hoctet a x hx)
  · exact Or.inr hx
  · exact Or.inl (hoctet b x hx)
  · exact Or.inr hx
  · exact Or.inl (hoctet c x hx)
  · exact Or.inr hx
  · exact Or.inl (hoctet d x hx)

lemma mem_colonJoined {parts : List (List Char)} {c : Char} (h : c ∈ colonJoined parts) :
    c = ':' ∨ ∃ part ∈ parts, c ∈ part := by
  induction parts with
  | nil => cases h
  | cons part parts ih =>
    cases parts with
    | nil =>
      rw [colonJoined, List.intercalate_singleton] at h
      exact Or.inr ⟨part, List.mem_cons_self, h⟩
    | cons part' parts =>
      rw [colonJoined, List.intercalate_cons_cons, List.mem_append, List.mem_append,
        List.mem_singleton] at h
      rcases h with (hpart | hcolon) | hrest
      · exact Or.inr ⟨part, List.mem_cons_self, hpart⟩
      · exact Or.inl hcolon
      · rcases ih hrest with hcolon | ⟨part'', hmem, hc⟩
        · exact Or.inl hcolon
        · exact Or.inr ⟨part'', List.mem_cons_of_mem _ hmem, hc⟩

lemma colon_mem_colonJoined {parts : List (List Char)} (h : 2 ≤ parts.length) :
    ':' ∈ colonJoined parts := by
  match parts, h with
  | part :: part' :: parts, _ => simp [colonJoined]

lemma AreLastParts.chars {n : ℕ} {parts : List (List Char)} (h : AreLastParts n parts) :
    ∀ part ∈ parts, ∀ c ∈ part, isHexDigit c = true ∨ c = '.' := by
  rcases h with ⟨hgroups, -⟩ | ⟨groups, ipv4, rfl, hgroups, hipv4, -⟩
  · intro part hpart c hc
    exact Or.inl ((hgroups part hpart).digits c hc)
  · intro part hpart c hc
    rcases List.mem_append.mp hpart with hgroup | hlast
    · exact Or.inl ((hgroups part hgroup).digits c hc)
    · rw [List.mem_singleton.mp hlast] at hc
      rcases hipv4.digit_or_dot c hc with hdigit | hdot
      · exact Or.inl (by simp [isHexDigit, hdigit])
      · exact Or.inr hdot

lemma IsIpv6.chars {s : List Char} (h : IsIpv6 s) :
    ∀ c ∈ s, isHexDigit c = true ∨ c = '.' ∨ c = ':' := by
  have hjoined : ∀ {n parts}, AreLastParts n parts → ∀ c ∈ colonJoined parts,
      isHexDigit c = true ∨ c = '.' ∨ c = ':' := by
    intro n parts hparts c hc
    rcases mem_colonJoined hc with hcolon | ⟨part, hpart, hc⟩
    · exact Or.inr (Or.inr hcolon)
    · exact (hparts.chars part hpart c hc).imp_right Or.inl
  intro c hc
  cases h with
  | full last => exact hjoined last c hc
  | compressed left last short =>
    simp only [List.mem_append, List.mem_cons] at hc
    rcases hc with hc | hcolon | hcolon | hc
    · exact hjoined (Or.inl ⟨left, rfl⟩) c hc
    · exact Or.inr (Or.inr hcolon)
    · exact Or.inr (Or.inr hcolon)
    · exact hjoined last c hc

lemma IsIpv6.colon_mem {s : List Char} (h : IsIpv6 s) : ':' ∈ s := by
  cases h with
  | full last =>
    apply colon_mem_colonJoined
    rcases last with ⟨-, hlength⟩ | ⟨groups, ipv4, rfl, -, -, hlength⟩
    · omega
    · rw [List.length_append, List.length_singleton]
      omega
  | compressed left last short => simp

lemma IsIpv4.colon_not_mem {s : List Char} (h : IsIpv4 s) : ':' ∉ s := by
  intro hcolon
  rcases h.digit_or_dot ':' hcolon with hdigit | hdot
  · exact absurd hdigit (by decide)
  · exact absurd hdot (by decide)

end Ulpf.Library
