import Ulpf.Core.Ocsf
import Ulpf.Core.Text

/-!
# What the extractors share

Protocol tables, the CSV splitter and the readings of dates. The date parsers of `chrono` are
parameters: the milliseconds they read in a text, if any.
-/

namespace Ulpf.Core

def parseUInt8 (s : Text) : Option UInt8 := (parseUnsigned 8 s).map UInt8.ofNat
def parseUInt16 (s : Text) : Option UInt16 := (parseUnsigned 16 s).map UInt16.ofNat
def parseUInt64 (s : Text) : Option UInt64 := (parseUnsigned 64 s).map UInt64.ofNat

/-! ### Numbers -/

/-- The text is the decimal number `n`, perhaps after a plus sign. -/
def Denotes (s : Text) (n : ℕ) : Prop :=
  ∃ digits, (s = digits ∨ s = '+' :: digits) ∧ digits ≠ [] ∧ (∀ c ∈ digits, c.isDigit = true) ∧
    Nat.ofDigitChars 10 digits 0 = n

lemma denotes_toDigits (n : ℕ) : Denotes (Nat.toDigits 10 n) n :=
  ⟨Nat.toDigits 10 n, Or.inl rfl, Nat.toDigits_ne_nil,
    fun _ hc => Nat.isDigit_of_mem_toDigits (by decide) (by decide) hc,
    Nat.ofDigitChars_ten_toDigits⟩

/-- The digits of an unsigned number. -/
def unsignedDigits : Text → Text
  | '+' :: rest => rest
  | s => s

lemma parseUnsigned_eq_some_iff {bits : ℕ} {s : Text} {n : ℕ} :
    parseUnsigned bits s = some n ↔ Denotes s n ∧ n < 2 ^ bits := by
  have hparse : parseUnsigned bits s = some n ↔ (unsignedDigits s ≠ [] ∧
      (∀ c ∈ unsignedDigits s, c.isDigit = true) ∧
      Nat.ofDigitChars 10 (unsignedDigits s) 0 = n) ∧ n < 2 ^ bits := by
    have hdef : parseUnsigned bits s = if unsignedDigits s = [] then none
        else if (unsignedDigits s).all Char.isDigit then
          if Nat.ofDigitChars 10 (unsignedDigits s) 0 < 2 ^ bits then
            some (Nat.ofDigitChars 10 (unsignedDigits s) 0) else none
        else none := rfl
    rw [hdef, ← List.all_eq_true]
    split_ifs with hnil hall hlt
    · simp [hnil]
    · simp only [Option.some.injEq, hnil, hall, ne_eq, not_false_eq_true, true_and]
      constructor
      · rintro rfl
        exact ⟨rfl, hlt⟩
      · exact And.left
    · simp only [hnil, hall, ne_eq, not_false_eq_true, true_and, false_iff]
      rintro ⟨rfl, hlt'⟩
      exact hlt hlt'
    · simp [hall]
  rw [hparse]
  refine and_congr_left fun _ => ?_
  constructor
  · rintro ⟨hne, hdigits, hvalue⟩
    refine ⟨unsignedDigits s, ?_, hne, hdigits, hvalue⟩
    unfold unsignedDigits
    split
    · exact Or.inr rfl
    · exact Or.inl rfl
  · rintro ⟨digits, hs, hne, hdigits, hvalue⟩
    have heq : unsignedDigits s = digits := by
      rcases hs with rfl | rfl
      · unfold unsignedDigits
        split
        · exact absurd (hdigits '+' List.mem_cons_self) (by decide)
        · rfl
      · rfl
    rw [heq]
    exact ⟨hne, hdigits, hvalue⟩

lemma parseUInt16_eq_some_iff {s : Text} {n : UInt16} :
    parseUInt16 s = some n ↔ Denotes s n.toNat := by
  rw [parseUInt16, Option.map_eq_some_iff]
  constructor
  · rintro ⟨m, hm, rfl⟩
    obtain ⟨hdenotes, hlt⟩ := parseUnsigned_eq_some_iff.mp hm
    rwa [UInt16.toNat_ofNat_of_lt' hlt]
  · intro h
    exact ⟨n.toNat, parseUnsigned_eq_some_iff.mpr ⟨h, n.toNat_lt⟩, UInt16.ofNat_toNat⟩

lemma parseUInt16_toDigits (n : UInt16) : parseUInt16 (Nat.toDigits 10 n.toNat) = some n :=
  parseUInt16_eq_some_iff.mpr (denotes_toDigits n.toNat)

lemma parseUInt8_toDigits (n : UInt8) : parseUInt8 (Nat.toDigits 10 n.toNat) = some n :=
  Option.map_eq_some_iff.mpr ⟨n.toNat,
    parseUnsigned_eq_some_iff.mpr ⟨denotes_toDigits n.toNat, n.toNat_lt⟩, UInt8.ofNat_toNat⟩

lemma parseUInt64_toDigits (n : UInt64) : parseUInt64 (Nat.toDigits 10 n.toNat) = some n :=
  Option.map_eq_some_iff.mpr ⟨n.toNat,
    parseUnsigned_eq_some_iff.mpr ⟨denotes_toDigits n.toNat, n.toNat_lt⟩, UInt64.ofNat_toNat⟩

/-! ### Protocols -/

/-- IANA protocol number of a protocol name. -/
def protocolNumFromName (name : String) : Option UInt8 :=
  match toAsciiUppercase name with
  | "ICMP" => some 1
  | "IGMP" => some 2
  | "TCP" => some 6
  | "UDP" => some 17
  | "GRE" => some 47
  | "ESP" => some 50
  | "AH" => some 51
  | "ICMPV6" | "ICMP6" => some 58
  | "OSPF" => some 89
  | "SCTP" => some 132
  | _ => none

def protocolNameFromNum (num : UInt8) : String :=
  match num with
  | 1 => "ICMP"
  | 2 => "IGMP"
  | 6 => "TCP"
  | 17 => "UDP"
  | 47 => "GRE"
  | 50 => "ESP"
  | 51 => "AH"
  | 58 => "ICMPv6"
  | 89 => "OSPF"
  | 132 => "SCTP"
  | _ => "UNKNOWN"

/-! ### Comma-separated fields -/

/-- The pieces between the commas outside double quotes. -/
def csvCuts (inQuotes : Bool) : Text → List Text
  | [] => [[]]
  | c :: s =>
    if c == '"' then (csvCuts (!inQuotes) s).modifyHead (c :: ·)
    else if c == ',' && !inQuotes then [] :: csvCuts inQuotes s
    else (csvCuts inQuotes s).modifyHead (c :: ·)

/-- CSV field tokenizer handling optional double quotes. -/
def splitCsv (input : Text) : List Text :=
  (csvCuts false input).map fun field => trim (trimMatches (· == '"') field)

/-! ### Dates -/

/-- The parsers of `chrono`: `NaiveDateTime::parse_from_str` with a format, and
`DateTime::parse_from_rfc3339`, each followed by `timestamp_millis`. -/
structure Chrono where
  parseFromStr : String → String → Option Int64
  parseFromRfc3339 : String → Option Int64

namespace Chrono

variable (chrono : Chrono)

/-- Date "YYYY-MM-DD" and time "HH:MM:SS" in epoch millis. -/
def parseDateTimeOrFallback (date time : Text) (fallback : Int64) : Int64 :=
  let combined := String.ofList (trim date ++ ' ' :: trim time)
  (chrono.parseFromStr combined "%Y-%m-%d %H:%M:%S").getD fallback

/-- Palo Alto date-time "YYYY/MM/DD HH:MM:SS" in epoch millis. -/
def parsePaloAltoTimeOrFallback (dtStr : Text) (fallback : Int64) : Int64 :=
  (chrono.parseFromStr (String.ofList (trim dtStr)) "%Y/%m/%d %H:%M:%S").getD fallback

/-- RFC3339 / ISO8601 text in epoch millis. -/
def parseRfc3339OrFallback (tsStr : String) (fallback : Int64) : Int64 :=
  (chrono.parseFromRfc3339 (String.ofList (trim tsStr.toList))).getD fallback

end Chrono

/-! ### Failures -/

/-- The extractor gives the line up with an error. -/
def Fails {α : Type*} (result : Except String α) : Prop := ∃ err, result = .error err

section Failures

variable {α β : Type*}

lemma fails_error (err : String) : Fails (.error err : Except String α) := ⟨err, rfl⟩

lemma not_fails_ok (a : α) : ¬Fails (.ok a : Except String α) := by
  rintro ⟨err, h⟩
  cases h

lemma fails_ite_iff {p : Prop} [Decidable p] {err : String} {a : α} :
    Fails (if p then .error err else .ok a : Except String α) ↔ p := by
  split_ifs with h
  · exact iff_of_true (fails_error err) h
  · exact iff_of_false (not_fails_ok a) h

lemma fails_map_iff {f : α → β} {result : Except String α} :
    Fails (result.map f) ↔ Fails result := by
  cases result with
  | error err => exact iff_of_true (fails_error err) (fails_error err)
  | ok a => exact iff_of_false (not_fails_ok (f a)) (not_fails_ok a)

end Failures

end Ulpf.Core
