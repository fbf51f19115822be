import Ulpf.Core.Extractors.CiscoAsa
import Ulpf.Core.Words
import Ulpf.Library.IpAddress
import Ulpf.Library.Strip

/-!
# Cisco endpoint texts

The documented forms "interface:ip/port", "ip/port", "interface:ip" and "ip", printed from their
parts, and what `parse_endpoint_str` reads in them. It takes the first colon for the end of the
interface, also where that colon belongs to an address of version 6.
-/

namespace Ulpf.Core
open Ulpf.Library

namespace CiscoAsaExtractor

/-- A character of an interface name. -/
def isNameChar (c : Char) : Bool := c != ':' && c != '/' && !isBracket c && !isWhitespace c

/-- The parts of an endpoint text. -/
structure EndpointParts where
  interface : Option String
  ip : String
  port : Option UInt16
  plain : ∀ name ∈ interface, ∀ c ∈ name.toList, isNameChar c = true
  valid : IsIpv4 ip.toList ∨ IsIpv6 ip.toList

namespace EndpointParts

def printInterface (parts : EndpointParts) : Text :=
  match parts.interface with
  | some name => name.toList ++ [':']
  | none => []

def printPort (parts : EndpointParts) : Text :=
  match parts.port with
  | some port => '/' :: Nat.toDigits 10 port.toNat
  | none => []

def print (parts : EndpointParts) : Text :=
  parts.printInterface ++ (parts.ip.toList ++ parts.printPort)

end EndpointParts

/-- Address and port of what follows the interface. -/
def splitAddress (rest : Text) : Option String × Option UInt16 :=
  match rest.dropWhile (· != '/') with
  | _ :: port => (some (String.ofList (rest.takeWhile (· != '/'))), parseUInt16 port)
  | [] => (some (String.ofList rest), none)

/-! ### Reading -/

/-- A character that neither trimming removes. -/
def isSolid (c : Char) : Bool := !isBracket c && !isWhitespace c

lemma clean_eq_self {text : Text} (h : ∀ c ∈ text, isSolid c = true) :
    trimMatches isBracket (trim text) = text := by
  have hsolid : ∀ c ∈ text, isBracket c = false ∧ isWhitespace c = false := by
    intro c hc
    simpa [isSolid] using h c hc
  have htrim : trim text = text := strip_eq_self (bare_of_forall fun c hc => (hsolid c hc).2)
  rw [htrim]
  exact strip_eq_self (bare_of_forall fun c hc => (hsolid c hc).1)

lemma parseEndpointStr_of_colon {name rest : Text} (h : ∀ c ∈ name ++ ':' :: rest, isSolid c = true)
    (hname : ':' ∉ name) (defaultIntf : Option String) :
    parseEndpointStr (name ++ ':' :: rest) defaultIntf =
      ((splitAddress rest).1, (splitAddress rest).2, some (String.ofList name)) := by
  have hcut := takeWhile_not_append_cons (p := (· == ':')) (s := name) (c := ':')
    (fun c hc => beq_false_of_ne fun heq => hname (heq ▸ hc)) rfl rest
  have htake : (name ++ ':' :: rest).takeWhile (· != ':') = name := hcut.1
  have hdrop : (name ++ ':' :: rest).dropWhile (· != ':') = ':' :: rest := hcut.2
  unfold parseEndpointStr splitAddress
  simp only [clean_eq_self h, htake, hdrop]
  cases rest.dropWhile (· != '/') with
  | nil => rfl
  | cons c port => rfl

lemma parseEndpointStr_of_no_colon {text : Text} (h : ∀ c ∈ text, isSolid c = true)
    (hcolon : ':' ∉ text) (defaultIntf : Option String) :
    parseEndpointStr text defaultIntf =
      ((splitAddress text).1, (splitAddress text).2, defaultIntf) := by
  have hdrop : text.dropWhile (· != ':') = [] :=
    (takeWhile_not_eq_self (p := (· == ':'))
      fun c hc => beq_false_of_ne fun heq => hcolon (heq ▸ hc)).2
  unfold parseEndpointStr splitAddress
  simp only [clean_eq_self h, hdrop]
  cases text.dropWhile (· != '/') with
  | nil => rfl
  | cons c port => rfl

lemma splitAddress_fst (rest : Text) :
    (splitAddress rest).1 = some (String.ofList (rest.takeWhile (· != '/'))) := by
  unfold splitAddress
  cases hdrop : rest.dropWhile (· != '/') with
  | cons c port => rfl
  | nil =>
    have happend := List.takeWhile_append_dropWhile (p := (· != '/')) (l := rest)
    rw [hdrop, List.append_nil] at happend
    rw [happend]

namespace EndpointParts

variable (parts : EndpointParts)

lemma mem_printPort {c : Char} (h : c ∈ parts.printPort) : c = '/' ∨ c.isDigit = true := by
  unfold printPort at h
  cases hport : parts.port with
  | none =>
    rw [hport] at h
    cases h
  | some port =>
    rw [hport] at h
    rcases List.mem_cons.mp h with hslash | hdigit
    · exact Or.inl hslash
    · exact Or.inr (Nat.isDigit_of_mem_toDigits (by decide) (by decide) hdigit)

lemma mem_ip {c : Char} (h : c ∈ parts.ip.toList) : isHexDigit c = true ∨ c = '.' ∨ c = ':' := by
  rcases parts.valid with hipv4 | hipv6
  · rcases hipv4.digit_or_dot c h with hdigit | hdot
    · exact Or.inl (by simp [isHexDigit, hdigit])
    · exact Or.inr (Or.inl hdot)
  · exact hipv6.chars c h

lemma slash_notMem_ip : '/' ∉ parts.ip.toList := by
  intro h
  rcases parts.mem_ip h with hdigit | hdot | hcolon
  · exact absurd hdigit (by decide)
  · exact absurd hdot (by decide)
  · exact absurd hcolon (by decide)

lemma splitAddress_print : splitAddress (parts.ip.toList ++ parts.printPort) =
    (some parts.ip, parts.port) := by
  have hslash : ∀ c ∈ parts.ip.toList, (c == '/') = false :=
    fun c hc => beq_false_of_ne fun heq => parts.slash_notMem_ip (heq ▸ hc)
  unfold splitAddress printPort
  cases parts.port with
  | none =>
    have hdrop : parts.ip.toList.dropWhile (· != '/') = [] := (takeWhile_not_eq_self hslash).2
    rw [List.append_nil, hdrop, String.ofList_toList]
  | some port =>
    have hcut := takeWhile_not_append_cons hslash (c := '/') rfl (Nat.toDigits 10 port.toNat)
    have htake : (parts.ip.toList ++ '/' :: Nat.toDigits 10 port.toNat).takeWhile (· != '/') =
        parts.ip.toList := hcut.1
    have hdrop : (parts.ip.toList ++ '/' :: Nat.toDigits 10 port.toNat).dropWhile (· != '/') =
        '/' :: Nat.toDigits 10 port.toNat := hcut.2
    simp only [htake, hdrop, String.ofList_toList, parseUInt16_toDigits]

lemma isAlphanum_of_isHexDigit {c : Char} (h : isHexDigit c = true) : c.isAlphanum = true := by
  simp only [isHexDigit, Bool.or_eq_true, Bool.and_eq_true, decide_eq_true_eq] at h
  rcases h with (hdigit | hlower) | hupper
  · exact (Bool.or_eq_true _ _).mpr (Or.inr hdigit)
  · have hz : c ≤ 'z' := Char.le_trans hlower.2 (by decide)
    have hsmall : c.isLower = true :=
      (Bool.and_eq_true _ _).mpr ⟨decide_eq_true hlower.1, decide_eq_true hz⟩
    have halpha : c.isAlpha = true := (Bool.or_eq_true _ _).mpr (Or.inr hsmall)
    exact (Bool.or_eq_true _ _).mpr (Or.inl halpha)
  · have hz : c ≤ 'Z' := Char.le_trans hupper.2 (by decide)
    have hcapital : c.isUpper = true := decide_eq_true ⟨hupper.1, hz⟩
    have halpha : c.isAlpha = true := (Bool.or_eq_true _ _).mpr (Or.inl hcapital)
    exact (Bool.or_eq_true _ _).mpr (Or.inl halpha)

lemma isSolid_of_isHexDigit {c : Char} (h : isHexDigit c = true) : isSolid c = true := by
  have hword := isAlphanum_of_isHexDigit h
  have hbracket : isBracket c = false := by
    simp only [isBracket, Bool.or_eq_false_iff, beq_eq_false_iff_ne]
    refine ⟨⟨⟨?_, ?_⟩, ?_⟩, ?_⟩
    all_goals
      rintro rfl
      exact absurd h (by decide)
  simp only [isSolid, hbracket, (isWhitespace_of_wordChar (Or.inl hword)).1, Bool.not_false,
    Bool.and_self]

lemma solid_print : ∀ c ∈ parts.print, isSolid c = true := by
  intro c hc
  rw [print, List.mem_append, List.mem_append] at hc
  rcases hc with hinterface | hip | hport
  · unfold printInterface at hinterface
    cases hname : parts.interface with
    | none =>
      rw [hname] at hinterface
      cases hinterface
    | some name =>
      rw [hname, List.mem_append, List.mem_singleton] at hinterface
      rcases hinterface with hplain | rfl
      · have hchar := parts.plain name hname c hplain
        simp only [isNameChar, Bool.and_eq_true] at hchar
        simp only [isSolid, hchar.1.2, hchar.2, Bool.and_self]
      · rfl
  · rcases parts.mem_ip hip with hdigit | rfl | rfl
    · exact isSolid_of_isHexDigit hdigit
    · rfl
    · rfl
  · rcases parts.mem_printPort hport with rfl | hdigit
    · rfl
    · exact isSolid_of_isHexDigit (by simp [isHexDigit, hdigit])

/-- The parts come back exactly if an interface is named or the address is dotted. -/
theorem parseEndpointStr_print_iff (defaultIntf : Option String) :
    parseEndpointStr parts.print defaultIntf =
        (some parts.ip, parts.port, parts.interface.or defaultIntf) ↔
      parts.interface.isSome ∨ IsIpv4 parts.ip.toList := by
  have hsolid := parts.solid_print
  have hsplit := parts.splitAddress_print
  unfold print printInterface at hsolid ⊢
  cases hname : parts.interface with
  | some name =>
    refine iff_of_true ?_ (Or.inl rfl)
    have hcolon : ':' ∉ name.toList := by
      intro hmem
      exact absurd (parts.plain name hname ':' hmem) (by decide)
    simp only [hname, List.append_assoc, List.singleton_append] at hsolid ⊢
    rw [parseEndpointStr_of_colon hsolid hcolon, hsplit, String.ofList_toList]
    rfl
  | none =>
    simp only [hname, List.nil_append] at hsolid ⊢
    rw [Option.isSome_none, Option.none_or]
    rcases parts.valid with hipv4 | hipv6
    · refine iff_of_true ?_ (Or.inr hipv4)
      have hcolon : ':' ∉ parts.ip.toList ++ parts.printPort := by
        intro hmem
        rcases List.mem_append.mp hmem with hip | hport
        · exact hipv4.colon_not_mem hip
        · rcases parts.mem_printPort hport with hslash | hdigit
          · exact absurd hslash (by decide)
          · exact absurd hdigit (by decide)
      rw [parseEndpointStr_of_no_colon hsolid hcolon, hsplit]
    · have hipv4 : ¬IsIpv4 parts.ip.toList := fun hipv4 => hipv4.colon_not_mem hipv6.colon_mem
      refine iff_of_false ?_ (by simpa using hipv4)
      -- The text before the first colon of the address goes to the interface.
      obtain ⟨before, after, hip, hbefore⟩ := List.eq_append_cons_of_mem hipv6.colon_mem
      have hslash : ∀ c ∈ after, (c == '/') = false := by
        intro c hc
        have hmem : c ∈ parts.ip.toList := hip ▸ List.mem_append_right _ (List.mem_cons_of_mem _ hc)
        exact beq_false_of_ne fun heq => parts.slash_notMem_ip (heq ▸ hmem)
      have htake : (after ++ parts.printPort).takeWhile (· != '/') = after := by
        unfold printPort
        cases parts.port with
        | none =>
          rw [List.append_nil]
          exact (takeWhile_not_eq_self hslash).1
        | some port => exact (takeWhile_not_append_cons hslash rfl _).1
      intro h
      rw [hip, List.append_assoc, List.cons_append] at hsolid h
      rw [parseEndpointStr_of_colon hsolid hbefore, splitAddress_fst, htake] at h
      have heq : after = parts.ip.toList := by
        rw [← Option.some.inj (congrArg Prod.fst h), String.toList_ofList]
      have hlength := congrArg List.length hip
      rw [heq, List.length_append, List.length_cons] at hlength
      omega

lemma isIpv6_documentation : IsIpv6 "2001:db8::1".toList := by
  have hipv6 : IsIpv6 (colonJoined [['2', '0', '0', '1'], ['d', 'b', '8']] ++
      ':' :: ':' :: colonJoined [['1']]) := by
    apply IsIpv6.compressed
    · intro part hpart
      rcases List.mem_cons.mp hpart with rfl | hpart
      · exact ⟨by decide, by decide, List.all_eq_true.mp (by decide)⟩
      · rw [List.mem_singleton.mp hpart]
        exact ⟨by decide, by decide, List.all_eq_true.mp (by decide)⟩
    · refine Or.inl ⟨?_, rfl⟩
      intro part hpart
      rw [List.mem_singleton.mp hpart]
      exact ⟨by decide, by decide, List.all_eq_true.mp (by decide)⟩
    · decide
  exact hipv6

/-- The first word of a bare address of version 6 becomes the interface. -/
theorem bare_ipv6_misread :
    ∃ parts : EndpointParts, parts.print = "2001:db8::1".toList ∧
      parts.interface = none ∧ parts.ip = "2001:db8::1" ∧ parts.port = none ∧
      parseEndpointStr parts.print none = (some "db8::1", none, some "2001") := by
  have hname : ∀ name ∈ (none : Option String), ∀ c ∈ name.toList, isNameChar c = true := nofun
  have hprint : print ⟨none, "2001:db8::1", none, hname, Or.inr isIpv6_documentation⟩ =
      "2001:db8::1".toList := by
    simp only [print, printInterface, printPort, List.nil_append, List.append_nil]
  refine ⟨_, hprint, rfl, rfl, rfl, ?_⟩
  rw [hprint]
  decide +kernel

end EndpointParts

end CiscoAsaExtractor

end Ulpf.Core
