import Ulpf.Core.Extractors.CsvRoundTrip
import Ulpf.Core.Extractors.PaloAlto
import Ulpf.Core.NetworkEvents
import Ulpf.Core.SignatureSlices
import Ulpf.Core.Words

/-!
# The header of a PAN-OS line

A `TRAFFIC` record behind a syslog header, and the columns that the extractor reads after it has
stripped the header. Only the marker " 1,20" saves the record: the last blank before the type
column is the one inside the receive time.
-/

namespace Ulpf.Core
open Ulpf.Library

/-! ### The search for a marker -/

lemma append_comma_prefix_iff {a b p rest : Text} (ha : ',' ∉ a) (hp : ',' ∉ p) :
    a ++ ',' :: b <+: p ++ ',' :: rest ↔ a = p ∧ b <+: rest := by
  induction a generalizing p with
  | nil =>
    cases p with
    | nil => simp
    | cons c p =>
      have hne : ',' ≠ c := fun heq => hp (heq ▸ List.mem_cons_self)
      simp [hne]
  | cons d a ih =>
    rw [List.mem_cons, not_or] at ha
    cases p with
    | nil =>
      have hne : d ≠ ',' := Ne.symm ha.1
      simp [hne]
    | cons c p =>
      rw [List.mem_cons, not_or] at hp
      rw [List.cons_append, List.cons_append, List.cons_prefix_cons, ih ha.2 hp.2,
        List.cons.injEq, and_assoc]

lemma findFrom_first_comma {a b p rest : Text} (ha : ',' ∉ a) (hp : ',' ∉ p) :
    findFrom (a ++ ',' :: b) (p ++ ',' :: rest) =
      if a <:+ p ∧ b <+: rest then some (a ++ ',' :: rest)
      else findFrom (a ++ ',' :: b) rest := by
  induction p with
  | nil =>
    by_cases hhere : a ++ ',' :: b <+: [] ++ ',' :: rest
    · rw [findFrom_of_isPrefix hhere]
      obtain ⟨rfl, hb⟩ := (append_comma_prefix_iff ha hp).mp hhere
      rw [if_pos ⟨List.suffix_refl _, hb⟩]
    · rw [List.nil_append] at hhere ⊢
      have hnot : ¬(a <:+ [] ∧ b <+: rest) := by
        rintro ⟨hsuffix, hb⟩
        rw [List.suffix_nil] at hsuffix
        exact hhere ((append_comma_prefix_iff ha hp).mpr ⟨hsuffix, hb⟩)
      rw [findFrom_cons hhere, if_neg hnot]
  | cons c p ih =>
    have hp' : ',' ∉ p := fun h => hp (List.mem_cons_of_mem c h)
    by_cases hhere : a ++ ',' :: b <+: c :: p ++ ',' :: rest
    · rw [findFrom_of_isPrefix hhere]
      obtain ⟨rfl, hb⟩ := (append_comma_prefix_iff ha hp).mp hhere
      rw [if_pos ⟨List.suffix_refl _, hb⟩]
    · have hlater : a <:+ c :: p ∧ b <+: rest ↔ a <:+ p ∧ b <+: rest := by
        refine and_congr_left fun hb => ?_
        rw [List.suffix_cons_iff, or_iff_right]
        rintro rfl
        exact hhere ((append_comma_prefix_iff ha hp).mpr ⟨rfl, hb⟩)
      rw [List.cons_append] at hhere ⊢
      rw [findFrom_cons hhere, ih hp']
      simp only [hlater]

/-! ### Columns -/

lemma bare_of_all {field : Text} (h : (field.all fun c => !isWhitespace c) = true) :
    Bare isWhitespace field := by
  apply bare_of_forall
  intro c hc
  simpa using List.all_eq_true.mp h c hc

lemma splitCsv_plain {field : Text} (hcomma : ',' ∉ field) (hquote : '"' ∉ field) (rest : Text) :
    splitCsv (field ++ ',' :: rest) = trim (trimMatches (· == '"') field) :: splitCsv rest := by
  have hrest : csvCuts false (',' :: rest) = [] :: csvCuts false rest := rfl
  rw [splitCsv, csvCuts_bare hquote hcomma, hrest, List.modifyHead_cons, List.append_nil,
    List.map_cons]
  rfl

lemma splitCsv_cons {field : Text} (hcomma : ',' ∉ field) (hquote : '"' ∉ field)
    (hbare : Bare isWhitespace field) (rest : Text) :
    splitCsv (field ++ ',' :: rest) = field :: splitCsv rest := by
  have htrim : trim (trimMatches (· == '"') field) = field :=
    trim_print (.bare field hquote hbare hcomma)
  rw [splitCsv_plain hcomma hquote, htrim]

lemma length_csvCuts_concat {c : Char} (hcomma : c ≠ ',') (hquote : c ≠ '"') (inQuotes : Bool)
    (s : Text) : (csvCuts inQuotes (s ++ [c])).length = (csvCuts inQuotes s).length := by
  induction s generalizing inQuotes with
  | nil => simp [csvCuts, hcomma, hquote]
  | cons d s ih =>
    rw [List.cons_append, csvCuts, csvCuts]
    split_ifs
    · rw [List.length_modifyHead, List.length_modifyHead, ih]
    · rw [List.length_cons, List.length_cons, ih]
    · rw [List.length_modifyHead, List.length_modifyHead, ih]

lemma length_splitCsv_rdropWhile (s : Text) :
    (splitCsv (s.rdropWhile isWhitespace)).length = (splitCsv s).length := by
  unfold splitCsv
  rw [List.length_map, List.length_map]
  induction s using List.reverseRecOn with
  | nil => rfl
  | append_singleton s c ih =>
    cases hc : isWhitespace c with
    | false => rw [List.rdropWhile_concat_neg _ _ _ (by simp [hc])]
    | true =>
      have hcomma : c ≠ ',' := by
        rintro rfl
        exact absurd hc (by decide)
      have hquote : c ≠ '"' := by
        rintro rfl
        exact absurd hc (by decide)
      rw [List.rdropWhile_concat_pos _ _ _ hc, ih, length_csvCuts_concat hcomma hquote]

namespace PaloAltoExtractor

/-! ### Records -/

/-- A text of the shape "YYYY/MM/DD HH:MM:SS". -/
structure ReceiveTime where
  year : Text
  month : Text
  day : Text
  hour : Text
  minute : Text
  second : Text
  lengths : [year, month, day, hour, minute, second].map List.length = [4, 2, 2, 2, 2, 2]
  digits : ∀ part ∈ [year, month, day, hour, minute, second], ∀ c ∈ part, c.isDigit = true

lemma digits_of_all {parts : List Text}
    (h : (parts.all fun part => part.all Char.isDigit) = true) :
    ∀ part ∈ parts, ∀ c ∈ part, c.isDigit = true := by
  intro part hpart
  exact List.all_eq_true.mp (List.all_eq_true.mp h part hpart)

namespace ReceiveTime

def date (rt : ReceiveTime) : Text := rt.year ++ '/' :: (rt.month ++ '/' :: rt.day)

def clock (rt : ReceiveTime) : Text := rt.hour ++ ':' :: (rt.minute ++ ':' :: rt.second)

def text (rt : ReceiveTime) : Text := rt.date ++ ' ' :: rt.clock

end ReceiveTime

/-- A line with a `TRAFFIC` record of at least ten columns: an optional header, the first column,
the receive time, the serial, the type and the remaining columns. -/
structure TrafficLine where
  header : Text
  first : Text
  receiveTime : ReceiveTime
  serial : Text
  rest : Text
  header_plain : header = [] ∨ ',' ∉ header ∧ header.getLast? = some ' '
  first_ne : first ≠ []
  first_plain : ∀ c ∈ first, c ≠ ',' ∧ c ≠ '"' ∧ isWhitespace c = false
  serial_ne : serial ≠ []
  serial_plain : ',' ∉ serial ∧ '"' ∉ serial
  serial_bare : Bare isWhitespace serial
  columns : 6 ≤ (splitCsv rest).length

namespace TrafficLine

/-- What follows the first column. -/
def afterFirst (line : TrafficLine) : Text :=
  line.receiveTime.text ++ ',' :: (line.serial ++ ',' :: ("TRAFFIC".toList ++ ',' :: line.rest))

def body (line : TrafficLine) : Text := line.first ++ ',' :: line.afterFirst

def text (line : TrafficLine) : Text := line.header ++ line.body

/-- The line without the blanks around it. -/
def trimmed (line : TrafficLine) : TrafficLine where
  header := line.header.dropWhile isWhitespace
  first := line.first
  receiveTime := line.receiveTime
  serial := line.serial
  rest := line.rest.rdropWhile isWhitespace
  header_plain := by
    rcases line.header_plain with hempty | ⟨hcomma, hlast⟩
    · rw [hempty]
      exact Or.inl rfl
    · rcases hdrop : line.header.dropWhile isWhitespace with - | ⟨c, header⟩
      · exact Or.inl rfl
      · have hsuffix : c :: header <:+ line.header := hdrop ▸ List.dropWhile_suffix isWhitespace
        obtain ⟨before, hbefore⟩ := hsuffix
        refine Or.inr ⟨fun h => hcomma (hbefore ▸ List.mem_append_right before h), ?_⟩
        rw [← hbefore, List.getLast?_append_of_ne_nil _ (List.cons_ne_nil c header)] at hlast
        exact hlast
  first_ne := line.first_ne
  first_plain := line.first_plain
  serial_ne := line.serial_ne
  serial_plain := line.serial_plain
  serial_bare := line.serial_bare
  columns := by
    rw [length_splitCsv_rdropWhile]
    exact line.columns

lemma comma_notMem_header (line : TrafficLine) : ',' ∉ line.header := by
  rcases line.header_plain with hempty | hplain
  · rw [hempty]
    exact List.not_mem_nil
  · exact hplain.1

lemma trim_text (line : TrafficLine) : trim line.text = line.trimmed.text := by
  have hbefore : ∀ header rest : Text, header ++ (line.first ++ ',' :: (line.receiveTime.text ++
      ',' :: (line.serial ++ ',' :: ("TRAFFIC".toList ++ ',' :: rest)))) =
      (header ++ line.first ++ ',' :: (line.receiveTime.text ++ ',' :: (line.serial ++
        ',' :: "TRAFFIC".toList))) ++ ',' :: rest := by
    intro header rest
    simp only [List.append_assoc, List.cons_append]
  have hstrip : trim line.text = strip isWhitespace line.text := rfl
  obtain ⟨c, first, hfirst⟩ := List.exists_cons_of_ne_nil line.first_ne
  have hc : isWhitespace c = false := (line.first_plain c (hfirst ▸ List.mem_cons_self)).2.2
  rw [hstrip, text, body, afterFirst, hbefore, strip_append_cons (by decide), hfirst,
    List.append_assoc, List.cons_append, dropWhile_append_cons hc]
  unfold text body afterFirst trimmed
  dsimp only
  rw [hbefore, hfirst]
  simp only [List.append_assoc, List.cons_append]

end TrafficLine

/-! ### Characters of the receive time -/

namespace ReceiveTime

variable (rt : ReceiveTime)

lemma date_chars : ∀ c ∈ rt.date, c.isDigit = true ∨ c = '/' := by
  intro c hc
  have hdigits := rt.digits
  simp only [List.forall_mem_cons] at hdigits
  obtain ⟨hyear, hmonth, hday, -⟩ := hdigits
  simp only [date, List.mem_append, List.mem_cons] at hc
  rcases hc with hc | hc | hc | hc | hc
  · exact Or.inl (hyear c hc)
  · exact Or.inr hc
  · exact Or.inl (hmonth c hc)
  · exact Or.inr hc
  · exact Or.inl (hday c hc)

lemma clock_chars : ∀ c ∈ rt.clock, c.isDigit = true ∨ c = ':' := by
  intro c hc
  have hdigits := rt.digits
  simp only [List.forall_mem_cons] at hdigits
  obtain ⟨-, -, -, hhour, hminute, hsecond, -⟩ := hdigits
  simp only [clock, List.mem_append, List.mem_cons] at hc
  rcases hc with hc | hc | hc | hc | hc
  · exact Or.inl (hhour c hc)
  · exact Or.inr hc
  · exact Or.inl (hminute c hc)
  · exact Or.inr hc
  · exact Or.inl (hsecond c hc)

lemma part_plain {part : Text} (h : part = rt.date ∨ part = rt.clock) :
    ',' ∉ part ∧ '"' ∉ part ∧ ' ' ∉ part := by
  have hchars : ∀ c ∈ part, c.isDigit = true ∨ c = '/' ∨ c = ':' := by
    intro c hc
    rcases h with rfl | rfl
    · rcases rt.date_chars c hc with hdigit | hslash
      · exact Or.inl hdigit
      · exact Or.inr (Or.inl hslash)
    · rcases rt.clock_chars c hc with hdigit | hcolon
      · exact Or.inl hdigit
      · exact Or.inr (Or.inr hcolon)
  refine ⟨?_, ?_, ?_⟩
  all_goals
    intro hmem
    exact absurd (hchars _ hmem) (by decide)

lemma text_plain : ',' ∉ rt.text ∧ '"' ∉ rt.text := by
  have hdate := rt.part_plain (Or.inl rfl)
  have hclock := rt.part_plain (Or.inr rfl)
  simp [text, hdate.1, hdate.2.1, hclock.1, hclock.2.1]

lemma bare_text : Bare isWhitespace rt.text := by
  have hdigits := rt.digits
  have hlengths := rt.lengths
  simp only [List.forall_mem_cons] at hdigits
  simp only [List.map_cons, List.map_nil, List.cons.injEq] at hlengths
  have htext : rt.text = rt.year ++ (('/' :: (rt.month ++ '/' :: (rt.day ++ ' ' :: (rt.hour ++
      ':' :: (rt.minute ++ [':']))))) ++ rt.second) := by
    simp [text, date, clock]
  rw [htext]
  apply bare_of_ends
  · rw [← List.length_pos_iff]
    omega
  · rw [← List.length_pos_iff]
    omega
  · exact fun c hc => isWhitespace_of_isDigit (hdigits.1 c hc)
  · exact fun c hc => isWhitespace_of_isDigit (hdigits.2.2.2.2.2.1 c hc)

lemma bare_clock : Bare isWhitespace rt.clock := by
  apply bare_of_forall
  intro c hc
  rcases rt.clock_chars c hc with hdigit | rfl
  · exact isWhitespace_of_isDigit hdigit
  · decide

lemma length_clock : rt.clock.length = 8 := by
  have hlengths := rt.lengths
  simp only [List.map_cons, List.map_nil, List.cons.injEq] at hlengths
  simp only [clock, List.length_append, List.length_cons]
  omega

lemma length_text : rt.text.length = 19 := by
  have hlengths := rt.lengths
  have hclock := rt.length_clock
  simp only [List.map_cons, List.map_nil, List.cons.injEq] at hlengths
  simp only [text, date, List.length_append, List.length_cons]
  omega

end ReceiveTime

/-! ### The type column -/

/-- The field is the type token, in any case. -/
def isTraffic (field : Text) : Bool := toAsciiLowercase (String.ofList field) == "traffic"

lemma length_of_isTraffic {field : Text} (h : isTraffic field = true) : field.length = 7 := by
  have hlower : toAsciiLowercase (String.ofList field) = "traffic" := by
    simpa [isTraffic] using h
  have hlength := congrArg (fun s => s.toList.length) hlower
  simpa [toAsciiLowercase] using hlength

lemma isTraffic_traffic : isTraffic "TRAFFIC".toList = true := by decide +kernel

lemma base_of_findIdx? {fields : List Text} {n : ℕ} (h : fields.findIdx? isTraffic = some n) :
    base fields = (n : ℤ) - 3 := by
  have hbase : base fields = ((fields.findIdx? isTraffic).getD 3 : ℕ) - 3 := rfl
  rw [hbase, h, Option.getD_some]

lemma column_one_of_early {first second : Text} {fields : List Text}
    (h : isTraffic second = true) : column (first :: second :: fields) 1 = none := by
  have hbase : base (first :: second :: fields) ≤ -2 := by
    cases hfirst : isTraffic first with
    | true =>
      rw [base_of_findIdx? (n := 0) (by simp [List.findIdx?_cons, hfirst])]
      omega
    | false =>
      rw [base_of_findIdx? (n := 1) (by simp [List.findIdx?_cons, hfirst, h])]
      omega
  unfold column
  dsimp only
  rw [if_neg (by omega)]

/-- With the type token in the third column the first one is taken for column 1. -/
lemma column_one_of_shifted {first second third : Text} {fields : List Text}
    (hfirst : isTraffic first = false) (hthird : isTraffic third = true) :
    ∀ field ∈ column (first :: second :: third :: fields) 1, field = trim first := by
  cases hsecond : isTraffic second with
  | true =>
    rw [column_one_of_early hsecond]
    exact nofun
  | false =>
    have hbase : base (first :: second :: third :: fields) = -1 := by
      rw [base_of_findIdx? (n := 2) (by simp [List.findIdx?_cons, hfirst, hsecond, hthird])]
      omega
    intro field hfield
    have hactual : ((1 : ℕ) : ℤ) + base (first :: second :: third :: fields) = 0 := by
      rw [hbase]
      rfl
    unfold column at hfield
    simp only [hactual, le_refl, if_true, Int.toNat_zero, List.getElem?_cons_zero] at hfield
    split_ifs at hfield
    · cases hfield
    · exact (Option.some.inj hfield).symm

lemma column_of_aligned {first second third fourth field : Text} {fields : List Text}
    (hfirst : isTraffic first = false) (hsecond : isTraffic second = false)
    (hthird : isTraffic third = false) (hfourth : isTraffic fourth = true) {idx : ℕ}
    (hfield : (first :: second :: third :: fourth :: fields)[idx]? = some field)
    (hne : trim field ≠ []) :
    column (first :: second :: third :: fourth :: fields) idx = some (trim field) := by
  have hbase : base (first :: second :: third :: fourth :: fields) = 0 := by
    rw [base_of_findIdx? (n := 3)
      (by simp [List.findIdx?_cons, hfirst, hsecond, hthird, hfourth])]
    omega
  unfold column
  simp only [hbase, add_zero, Int.natCast_nonneg, if_true, Int.toNat_natCast, hfield, hne, if_false]

/-! ### What an event shows -/

/-- The columns of a record with this receive time and serial. -/
def Shows (chrono : Chrono) (time : Int64) (serial : Text) (fields : List Text) : Prop :=
  10 ≤ fields.length ∧
    ((column fields 1).bind fun rt =>
      chrono.parseFromStr (String.ofList (trim rt)) "%Y/%m/%d %H:%M:%S") = some time ∧
    column fields 2 = some serial

/-- At any time of day the line gives an event with this time and this serial. -/
def Keeps (chrono : Chrono) (time : Int64) (serial raw : String) : Prop :=
  ∀ nowMs, ∃ activity, parse chrono nowMs raw = .ok activity ∧ activity.time = time ∧
    activity.unmapped.bind (Finmap.lookup "serial") = some serial

lemma time_withUnmapped (activity : NetworkActivity) (unmapped : FieldMap) :
    (activity.withUnmapped unmapped).time = activity.time := by
  unfold NetworkActivity.withUnmapped
  split_ifs
  · rfl
  · rfl

lemma lookup_withUnmapped {activity : NetworkActivity} (h : activity.unmapped = none)
    (unmapped : FieldMap) (key : String) :
    (activity.withUnmapped unmapped).unmapped.bind (Finmap.lookup key) = unmapped.lookup key := by
  unfold NetworkActivity.withUnmapped
  split_ifs with hempty
  · rfl
  · rw [h, not_not.mp hempty]
    rfl

lemma lookup_insertSome_of_ne {key key' : String} (h : key' ≠ key) (map : FieldMap)
    (value : Option String) : (map.insertSome key value).lookup key' = map.lookup key' := by
  cases value with
  | none => rfl
  | some v => exact Finmap.lookup_insert_of_ne map h

lemma lookup_insertSome_self {key : String} {map : FieldMap} (h : map.lookup key = none)
    (value : Option String) : (map.insertSome key value).lookup key = value := by
  cases value with
  | none => exact h
  | some v => exact Finmap.lookup_insert map

lemma lookup_serial (fields : List Text) (subtype : String) :
    (unmapped fields subtype).lookup "serial" = textColumn fields 2 := by
  unfold unmapped
  dsimp only
  have hserial : (((((∅ : FieldMap).insertSome "rule" (textColumn fields 11)).insertSome
      "application" (textColumn fields 14)).insertSome "serial" (textColumn fields 2)).insertSome
      "session_id" (textColumn fields 22)).lookup "serial" = textColumn fields 2 := by
    rw [lookup_insertSome_of_ne (by decide), lookup_insertSome_self]
    rw [lookup_insertSome_of_ne (by decide), lookup_insertSome_of_ne (by decide),
      Finmap.lookup_empty]
  split_ifs
  · rw [Finmap.lookup_insert_of_ne _ (by decide)]
    exact hserial
  · exact hserial

lemma time_build (chrono : Chrono) (nowMs : Int64) (raw : String) (fields : List Text) :
    (build chrono nowMs raw fields).time = ((column fields 1).bind fun rt =>
      chrono.parseFromStr (String.ofList (trim rt)) "%Y/%m/%d %H:%M:%S").getD nowMs := by
  unfold build
  rw [time_withUnmapped]
  cases column fields 1 with
  | none => rfl
  | some rt => rfl

lemma serial_build (chrono : Chrono) (nowMs : Int64) (raw : String) (fields : List Text) :
    (build chrono nowMs raw fields).unmapped.bind (Finmap.lookup "serial") =
      textColumn fields 2 := by
  unfold build
  rw [lookup_withUnmapped rfl, lookup_serial]

lemma keeps_iff_shows {chrono : Chrono} {time : Int64} {serial : Text} {raw : String} :
    Keeps chrono time (String.ofList serial) raw ↔
      Shows chrono time serial (splitCsv (stripSyslogPrefix raw.toList)) := by
  have hparse : ∀ nowMs activity, parse chrono nowMs raw = .ok activity ↔
      10 ≤ (splitCsv (stripSyslogPrefix raw.toList)).length ∧
        build chrono nowMs raw (splitCsv (stripSyslogPrefix raw.toList)) = activity := by
    intro nowMs activity
    unfold parse
    dsimp only
    split_ifs with hfew
    · exact iff_of_false nofun fun h => absurd h.1 (by omega)
    · simp [Nat.le_of_not_lt hfew]
  unfold Keeps Shows
  constructor
  · intro h
    obtain ⟨otherMs, hother⟩ : ∃ ms : Int64, ms ≠ time := by
      by_cases hzero : time = 0
      · exact ⟨1, by rw [hzero]; decide⟩
      · exact ⟨0, Ne.symm hzero⟩
    obtain ⟨activity, hactivity, htime, hserial⟩ := h otherMs
    obtain ⟨hcolumns, rfl⟩ := (hparse otherMs activity).mp hactivity
    rw [time_build] at htime
    rw [serial_build] at hserial
    refine ⟨hcolumns, ?_, ?_⟩
    · cases hread : (column (splitCsv (stripSyslogPrefix raw.toList)) 1).bind fun rt =>
          chrono.parseFromStr (String.ofList (trim rt)) "%Y/%m/%d %H:%M:%S" with
      | none =>
        rw [hread] at htime
        exact absurd htime hother
      | some t =>
        rw [hread] at htime
        exact congrArg some htime
    · obtain ⟨field, hfield, heq⟩ := Option.map_eq_some_iff.mp hserial
      rw [hfield, String.ofList_injective heq]
  · rintro ⟨hcolumns, htime, hserial⟩ nowMs
    refine ⟨_, (hparse nowMs _).mpr ⟨hcolumns, rfl⟩, ?_, ?_⟩
    · rw [time_build, htime]
      rfl
    · rw [serial_build, textColumn, hserial]
      rfl

/-! ### Stripping -/

namespace TrafficLine

variable (line : TrafficLine)

/-- The record starts with the marker "1,20". -/
def Marked : Prop := line.first = ['1'] ∧ ['2', '0'] <+: line.receiveTime.year

lemma text_eq : line.text = (line.header ++ line.first) ++ ',' :: line.afterFirst := by
  rw [text, body, List.append_assoc]

lemma comma_notMem_front : ',' ∉ line.header ++ line.first := by
  rw [List.mem_append, not_or]
  exact ⟨line.comma_notMem_header, fun h => (line.first_plain ',' h).1 rfl⟩

lemma century_prefix_iff :
    ['2', '0'] <+: line.afterFirst ↔ ['2', '0'] <+: line.receiveTime.year := by
  have hlengths := line.receiveTime.lengths
  simp only [List.map_cons, List.map_nil, List.cons.injEq] at hlengths
  have hyear : line.receiveTime.year <+: line.afterFirst := by
    unfold afterFirst ReceiveTime.text ReceiveTime.date
    simp only [List.append_assoc]
    exact List.prefix_append _ _
  constructor
  · intro h
    apply List.prefix_of_prefix_length_le h hyear
    rw [List.length_cons, List.length_singleton]
    omega
  · exact fun h => h.trans hyear

lemma startsWith_marker_iff :
    startsWith line.text "1,20" = true ↔ line.header = [] ∧ line.Marked := by
  have hmarker : startsWith line.text "1,20" = true ↔ ['1'] ++ ',' :: ['2', '0'] <+: line.text :=
    List.isPrefixOf_iff_prefix
  rw [hmarker, text_eq, append_comma_prefix_iff (by decide) line.comma_notMem_front,
    century_prefix_iff, Marked, ← and_assoc]
  refine and_congr_left fun _ => ?_
  constructor
  · intro h
    obtain ⟨c, first, hfirst⟩ := List.exists_cons_of_ne_nil line.first_ne
    cases hheader : line.header with
    | nil =>
      rw [hheader, List.nil_append] at h
      exact ⟨rfl, h.symm⟩
    | cons d header =>
      have hlength := congrArg List.length h
      rw [hheader, hfirst] at hlength
      simp at hlength
  · rintro ⟨hheader, hfirst⟩
    rw [hheader, hfirst]
    rfl

lemma findAfter_marker (hmarked : line.Marked) (hheader : line.header ≠ []) :
    findAfter " 1,20" 1 line.text = some line.body := by
  have hlast : line.header.getLast? = some ' ' := by
    rcases line.header_plain with hempty | hplain
    · exact absurd hempty hheader
    · exact hplain.2
  obtain ⟨before, hbefore⟩ := List.getLast?_eq_some_iff.mp hlast
  have hsuffix : [' ', '1'] <:+ line.header ++ line.first := by
    rw [hbefore, hmarked.1, List.append_assoc]
    exact List.suffix_append before _
  have hfind : findFrom ([' ', '1'] ++ ',' :: ['2', '0'])
      ((line.header ++ line.first) ++ ',' :: line.afterFirst) =
      some ([' ', '1'] ++ ',' :: line.afterFirst) := by
    rw [findFrom_first_comma (by decide) line.comma_notMem_front,
      if_pos ⟨hsuffix, line.century_prefix_iff.mpr hmarked.2⟩]
  have hbody : line.body = ['1'] ++ ',' :: line.afterFirst := by
    rw [body, hmarked.1]
  rw [findAfter, text_eq, hbody]
  exact congrArg (Option.map (List.drop 1)) hfind

lemma strip_of_marked (hmarked : line.Marked) :
    stripSyslogPrefix line.text = line.trimmed.body := by
  have hmarked' : line.trimmed.Marked := hmarked
  unfold stripSyslogPrefix
  rw [trim_text]
  dsimp only
  by_cases hheader : line.trimmed.header = []
  · rw [if_pos (line.trimmed.startsWith_marker_iff.mpr ⟨hheader, hmarked'⟩), text, hheader]
    rfl
  · rw [if_neg fun h => hheader (line.trimmed.startsWith_marker_iff.mp h).1,
      line.trimmed.findAfter_marker hmarked' hheader]

/-- The marker ": 1,20" contains the one that is searched for before it. -/
lemma findAfter_colon_eq_none {s : Text} (h : findAfter " 1,20" 1 s = none) :
    findAfter ": 1,20" 2 s = none := by
  have hnone : ∀ {pat : String} {n : ℕ}, findAfter pat n s = none ↔ ¬pat.toList <:+: s := by
    intro pat n
    rw [findAfter, Option.map_eq_none_iff, ← contains_eq_true_iff, contains, Bool.not_eq_true,
      Option.isSome_eq_false_iff, Option.isNone_iff_eq_none]
  rw [hnone] at h ⊢
  have hinside : " 1,20".toList <:+: ": 1,20".toList := by decide
  exact fun hcolon => h (hinside.trans hcolon)

lemma strip_of_not_marked (hmarked : ¬line.Marked) : stripSyslogPrefix line.text =
    (findAfter " 1,20" 1 line.trimmed.text).getD
      (((before ",TRAFFIC," line.trimmed.text).map (lastWordFrom line.trimmed.text)).getD
        line.trimmed.text) := by
  unfold stripSyslogPrefix
  rw [trim_text]
  dsimp only
  rw [if_neg fun h => hmarked (line.trimmed.startsWith_marker_iff.mp h).2]
  cases hfind : findAfter " 1,20" 1 line.trimmed.text with
  | some body => rfl
  | none =>
    rw [findAfter_colon_eq_none hfind]
    cases before ",TRAFFIC," line.trimmed.text <;> rfl

/-! ### The last blank -/

/-- The last blank before the type column is the one inside the receive time, or a later one. -/
lemma lastWordFrom_eq {x y : Text} (h : ' ' ∉ y) (after : Text) :
    lastWordFrom (x ++ ' ' :: y ++ after) (x ++ ' ' :: y) = y ++ after := by
  have hword : (x ++ ' ' :: y).reverse.takeWhile (· != ' ') = y.reverse := by
    have hy : ∀ c ∈ y.reverse, (c == ' ') = false := by
      intro c hc
      exact beq_false_of_ne fun heq => h (heq ▸ List.mem_reverse.mp hc)
    rw [List.reverse_append, List.reverse_cons, List.append_assoc, List.singleton_append]
    exact (takeWhile_not_append_cons hy rfl x.reverse).1
  have hblank : ' ' ∈ x ++ ' ' :: y := List.mem_append_right x List.mem_cons_self
  have hlength : (x ++ ' ' :: y).length - y.length = (x ++ [' ']).length := by
    simp only [List.length_append, List.length_cons, List.length_nil]
    omega
  unfold lastWordFrom
  dsimp only
  rw [hword, List.reverse_reverse, if_pos hblank, hlength]
  have hsplit : x ++ ' ' :: y ++ after = (x ++ [' ']) ++ (y ++ after) := by simp
  rw [hsplit, List.drop_left]

lemma findFrom_traffic {p field rest : Text} (hp : ',' ∉ p) (hfield : ',' ∉ field) :
    findFrom ",TRAFFIC,".toList (p ++ ',' :: (field ++ ',' :: rest)) =
      if field = "TRAFFIC".toList then some (',' :: (field ++ ',' :: rest))
      else findFrom ",TRAFFIC,".toList (field ++ ',' :: rest) := by
  have hmarker : ",TRAFFIC,".toList = [] ++ ',' :: ("TRAFFIC".toList ++ ',' :: []) := by decide
  have hiff : ([] <:+ p ∧ "TRAFFIC".toList ++ ',' :: [] <+: field ++ ',' :: rest) ↔
      field = "TRAFFIC".toList := by
    rw [append_comma_prefix_iff (by decide) hfield]
    simp only [List.nil_suffix, List.nil_prefix, true_and, and_true, eq_comm]
  rw [hmarker, findFrom_first_comma (by decide) hp]
  simp only [hiff, List.nil_append]

lemma before_eq {s rest : Text} (h : findFrom ",TRAFFIC,".toList (s ++ rest) = some rest) :
    before ",TRAFFIC," (s ++ rest) = some s := by
  rw [before, h, Option.map_some]
  simp

lemma before_traffic : ∃ tail after,
    before ",TRAFFIC," line.text =
      some ((line.header ++ line.first) ++ ',' :: (line.receiveTime.text ++ tail)) ∧
    line.text = (line.header ++ line.first) ++ ',' :: (line.receiveTime.text ++ tail) ++
      ',' :: ("TRAFFIC".toList ++ ',' :: after) ∧ (tail = [] ∨ tail = ',' :: line.serial) := by
  have htime : line.receiveTime.text ≠ "TRAFFIC".toList := by
    intro h
    have hlength := line.receiveTime.length_text
    rw [h] at hlength
    exact absurd hlength (by decide)
  have hfind : findFrom ",TRAFFIC,".toList line.text =
      if line.serial = "TRAFFIC".toList then
        some (',' :: (line.serial ++ ',' :: ("TRAFFIC".toList ++ ',' :: line.rest)))
      else some (',' :: ("TRAFFIC".toList ++ ',' :: line.rest)) := by
    rw [text_eq, afterFirst, findFrom_traffic line.comma_notMem_front line.receiveTime.text_plain.1,
      if_neg htime, findFrom_traffic line.receiveTime.text_plain.1 line.serial_plain.1,
      findFrom_traffic line.serial_plain.1 (by decide), if_pos rfl]
  by_cases hserial : line.serial = "TRAFFIC".toList
  · rw [if_pos hserial] at hfind
    have htext : line.text = (line.header ++ line.first) ++ ',' :: (line.receiveTime.text ++ []) ++
        ',' :: (line.serial ++ ',' :: ("TRAFFIC".toList ++ ',' :: line.rest)) := by
      rw [text_eq, afterFirst]
      simp only [List.append_assoc, List.cons_append, List.append_nil]
    refine ⟨[], "TRAFFIC".toList ++ ',' :: line.rest, ?_, ?_, Or.inl rfl⟩
    · rw [htext] at hfind ⊢
      exact before_eq hfind
    · rw [htext, hserial]
  · rw [if_neg hserial] at hfind
    have htext : line.text = (line.header ++ line.first) ++ ',' :: (line.receiveTime.text ++
        ',' :: line.serial) ++ ',' :: ("TRAFFIC".toList ++ ',' :: line.rest) := by
      rw [text_eq, afterFirst]
      simp only [List.append_assoc, List.cons_append]
    refine ⟨',' :: line.serial, line.rest, ?_, htext, Or.inr rfl⟩
    rw [htext] at hfind ⊢
    exact before_eq hfind

lemma column_one_of_lastWord {body : Text}
    (h : (before ",TRAFFIC," line.text).map (lastWordFrom line.text) = some body) :
    ∀ field ∈ column (splitCsv body) 1, '/' ∉ field := by
  obtain ⟨tail, after, hbefore, htext, htail⟩ := line.before_traffic
  have hclock := line.receiveTime.part_plain (Or.inr rfl)
  have hfields : ∀ word rest : Text, ',' ∉ word → '"' ∉ word →
      splitCsv (word ++ ',' :: ("TRAFFIC".toList ++ ',' :: rest)) =
        trim (trimMatches (· == '"') word) :: "TRAFFIC".toList :: splitCsv rest := by
    intro word rest hcomma hquote
    rw [splitCsv_plain hcomma hquote,
      splitCsv_cons (by decide) (by decide) (bare_of_all (by decide))]
  have hcut : ∀ x y : Text, (line.header ++ line.first) ++ ',' :: (line.receiveTime.text ++ tail) =
      x ++ ' ' :: y → ' ' ∉ y → body = y ++ ',' :: ("TRAFFIC".toList ++ ',' :: after) := by
    intro x y hxy hy
    rw [hbefore, Option.map_some, htext, hxy, lastWordFrom_eq hy] at h
    exact (Option.some.inj h).symm
  have hfront : (line.header ++ line.first) ++ ',' :: (line.receiveTime.text ++ tail) =
      ((line.header ++ line.first) ++ ',' :: line.receiveTime.date) ++
        ' ' :: (line.receiveTime.clock ++ tail) := by
    rw [ReceiveTime.text]
    simp only [List.append_assoc, List.cons_append]
  rcases htail with rfl | rfl
  · -- The serial is the word TRAFFIC itself.
    rw [hcut _ _ hfront (by simpa using hclock.2.2), List.append_nil,
      hfields _ _ hclock.1 hclock.2.1, column_one_of_early isTraffic_traffic]
    exact nofun
  · by_cases hblank : ' ' ∈ line.serial
    · obtain ⟨late, early, hserial, hlate⟩ :=
        List.eq_append_cons_of_mem (List.mem_reverse.mpr hblank)
      have hsplit : line.serial = early.reverse ++ ' ' :: late.reverse := by
        rw [← List.reverse_reverse line.serial, hserial]
        simp
      have hplain : ',' ∉ late.reverse ∧ '"' ∉ late.reverse := by
        have hserial_plain := line.serial_plain
        rw [hsplit] at hserial_plain
        simp only [List.mem_append, List.mem_cons, not_or] at hserial_plain
        exact ⟨hserial_plain.1.2.2, hserial_plain.2.2.2⟩
      have hlast : (line.header ++ line.first) ++ ',' :: (line.receiveTime.text ++
          ',' :: line.serial) = ((line.header ++ line.first) ++ ',' :: (line.receiveTime.text ++
            ',' :: early.reverse)) ++ ' ' :: late.reverse := by
        rw [hsplit]
        simp only [List.append_assoc, List.cons_append]
      rw [hcut _ _ hlast (by simpa using hlate), hfields _ _ hplain.1 hplain.2,
        column_one_of_early isTraffic_traffic]
      exact nofun
    · have hword : ' ' ∉ line.receiveTime.clock ++ ',' :: line.serial := by
        simp [hclock.2.2, hblank]
      have hfirst : isTraffic line.receiveTime.clock = false := by
        rw [← Bool.not_eq_true]
        intro htraffic
        have hlength := length_of_isTraffic htraffic
        rw [line.receiveTime.length_clock] at hlength
        omega
      have htrim : trim line.receiveTime.clock = line.receiveTime.clock :=
        strip_eq_self line.receiveTime.bare_clock
      rw [hcut _ _ hfront hword, List.append_assoc, List.cons_append,
        splitCsv_cons hclock.1 hclock.2.1 line.receiveTime.bare_clock,
        hfields _ _ line.serial_plain.1 line.serial_plain.2]
      intro field hfield hslash
      rw [column_one_of_shifted hfirst isTraffic_traffic field hfield, htrim] at hslash
      rcases line.receiveTime.clock_chars '/' hslash with hdigit | hcolon
      · exact absurd hdigit (by decide)
      · exact absurd hcolon (by decide)

/-! ### The columns of the record -/

lemma splitCsv_body : splitCsv line.body = line.first :: line.receiveTime.text :: line.serial ::
    "TRAFFIC".toList :: splitCsv line.rest := by
  have hfirst : Bare isWhitespace line.first :=
    bare_of_forall fun c hc => (line.first_plain c hc).2.2
  rw [body, afterFirst,
    splitCsv_cons (fun h => (line.first_plain ',' h).1 rfl)
      (fun h => (line.first_plain '"' h).2.1 rfl) hfirst,
    splitCsv_cons line.receiveTime.text_plain.1 line.receiveTime.text_plain.2
      line.receiveTime.bare_text,
    splitCsv_cons line.serial_plain.1 line.serial_plain.2 line.serial_bare,
    splitCsv_cons (by decide) (by decide) (bare_of_all (by decide))]

lemma isTraffic_receiveTime : isTraffic line.receiveTime.text = false := by
  rw [← Bool.not_eq_true]
  intro htraffic
  have hlength := length_of_isTraffic htraffic
  rw [line.receiveTime.length_text] at hlength
  omega

/-- The marker leads to the record, or to a later record with the same receive time and serial. -/
def MarkerLeads (chrono : Chrono) (time : Int64) : Prop :=
  (line.Marked ∧ isTraffic line.serial = false) ∨
    (¬line.Marked ∧ ∃ later, findAfter " 1,20" 1 (trim line.text) = some later ∧
      Shows chrono time line.serial (splitCsv later))

variable {line} {chrono : Chrono} {time : Int64}

lemma not_shows
    (hslash : ∀ s t, chrono.parseFromStr s "%Y/%m/%d %H:%M:%S" = some t → '/' ∈ s.toList)
    {serial : Text} {fields : List Text} (h : ∀ field ∈ column fields 1, '/' ∉ field) :
    ¬Shows chrono time serial fields := by
  rintro ⟨-, htime, -⟩
  obtain ⟨field, hfield, hparse⟩ := Option.bind_eq_some_iff.mp htime
  have hmem := hslash _ _ hparse
  rw [String.toList_ofList] at hmem
  exact h field hfield (strip_subset field hmem)

lemma shows_body_iff (hmarked : line.Marked)
    (hread : chrono.parseFromStr (String.ofList line.receiveTime.text) "%Y/%m/%d %H:%M:%S" =
      some time)
    (hslash : ∀ s t, chrono.parseFromStr s "%Y/%m/%d %H:%M:%S" = some t → '/' ∈ s.toList) :
    Shows chrono time line.serial (splitCsv line.body) ↔ isTraffic line.serial = false := by
  have hfirst : isTraffic line.first = false := by
    rw [hmarked.1]
    decide +kernel
  rw [splitCsv_body]
  cases hserial : isTraffic line.serial with
  | true =>
    refine iff_of_false (not_shows hslash ?_) Bool.noConfusion
    intro field hfield
    rw [column_one_of_shifted hfirst hserial field hfield, hmarked.1]
    decide
  | false =>
    refine iff_of_true ?_ rfl
    have hcolumns := line.columns
    have htime : trim line.receiveTime.text = line.receiveTime.text :=
      strip_eq_self line.receiveTime.bare_text
    have htrim : trim line.serial = line.serial := strip_eq_self line.serial_bare
    have hne : line.receiveTime.text ≠ [] := by
      rw [← List.length_pos_iff, line.receiveTime.length_text]
      omega
    refine ⟨?_, ?_, ?_⟩
    · simp only [List.length_cons]
      omega
    · rw [column_of_aligned hfirst line.isTraffic_receiveTime hserial isTraffic_traffic rfl
        (htime.symm ▸ hne), Option.bind_some, htime, htime]
      exact hread
    · rw [column_of_aligned hfirst line.isTraffic_receiveTime hserial isTraffic_traffic rfl
        (htrim.symm ▸ line.serial_ne), htrim]

/-- The record keeps its receive time and serial exactly if the marker leads to it; else the cut
goes through the receive time. -/
theorem keeps_iff (line : TrafficLine) (time : Int64)
    (hread : chrono.parseFromStr (String.ofList line.receiveTime.text) "%Y/%m/%d %H:%M:%S" =
      some time)
    (hslash : ∀ s t, chrono.parseFromStr s "%Y/%m/%d %H:%M:%S" = some t → '/' ∈ s.toList) :
    Keeps chrono time (String.ofList line.serial) (String.ofList line.text) ↔
      line.MarkerLeads chrono time := by
  rw [keeps_iff_shows, String.toList_ofList, MarkerLeads, trim_text]
  by_cases hmarked : line.Marked
  · have hmarked' : line.trimmed.Marked := hmarked
    have hserial : line.trimmed.serial = line.serial := rfl
    have hbody := shows_body_iff hmarked' hread hslash
    rw [hserial] at hbody
    rw [strip_of_marked line hmarked, hbody]
    simp [hmarked]
  · rw [strip_of_not_marked line hmarked]
    cases hfind : findAfter " 1,20" 1 line.trimmed.text with
    | some later => simp [hmarked]
    | none =>
      refine iff_of_false ?_ (by simp [hmarked])
      obtain ⟨tail, after, hbefore, -⟩ := line.trimmed.before_traffic
      rw [Option.getD_none, hbefore, Option.map_some, Option.getD_some]
      apply not_shows hslash
      apply line.trimmed.column_one_of_lastWord
      rw [hbefore, Option.map_some]

/-- A record of ten columns behind a header; the first column is a parameter. -/
def sampleLine (c : Char) (hplain : c ≠ ',' ∧ c ≠ '"' ∧ isWhitespace c = false) : TrafficLine where
  header := "Oct 15 10:20:30 my-pan-fw ".toList
  first := [c]
  receiveTime := ⟨['2', '0', '2', '3'], ['1', '0'], ['1', '5'], ['1', '0'], ['2', '0'], ['3', '0'],
    by decide, digits_of_all (by decide)⟩
  serial := "001801000000".toList
  rest := "drop,0,2023/10/15 10:20:30,10.0.0.5,1.1.1.1,10.0.0.5".toList
  header_plain := Or.inr (by decide)
  first_ne := List.cons_ne_nil c []
  first_plain d hd := by
    rw [List.mem_singleton.mp hd]
    exact hplain
  serial_ne := by decide
  serial_plain := by decide
  serial_bare := bare_of_all (by decide)
  columns := by decide +kernel

/-- `chrono` on the receive time of that record. -/
def sampleChrono : Chrono where
  parseFromStr s _ := if s = "2023/10/15 10:20:30" then some 1697365230000 else none
  parseFromRfc3339 _ := none

lemma sampleChrono_slash (s : String) (t : Int64)
    (h : sampleChrono.parseFromStr s "%Y/%m/%d %H:%M:%S" = some t) : '/' ∈ s.toList := by
  unfold sampleChrono at h
  dsimp only at h
  split_ifs at h with heq
  rw [heq]
  decide

theorem keeps_iff_marked : Keeps sampleChrono 1697365230000 "001801000000"
    (String.ofList (sampleLine '1' (by decide)).text) := by
  have hmarked : (sampleLine '1' (by decide)).Marked := ⟨rfl, by decide⟩
  have hkeeps := (keeps_iff (sampleLine '1' (by decide)) 1697365230000 (by decide +kernel)
    sampleChrono_slash).mpr (Or.inl ⟨hmarked, by decide +kernel⟩)
  exact hkeeps

/-- With another first column the receive time is cut at its blank. -/
theorem unmarked_record_cut : ¬Keeps sampleChrono 1697365230000 "001801000000"
    (String.ofList (sampleLine '0' (by decide)).text) := by
  have hcolumn : column (splitCsv (stripSyslogPrefix (sampleLine '0' (by decide)).text)) 1 =
      some "10:20:30".toList := by
    decide +kernel
  intro h
  have hshows : Shows sampleChrono 1697365230000 "001801000000".toList
      (splitCsv (stripSyslogPrefix (sampleLine '0' (by decide)).text)) := by
    rw [← String.toList_ofList (l := (sampleLine '0' (by decide)).text)]
    exact keeps_iff_shows.mp h
  refine not_shows sampleChrono_slash ?_ hshows
  rw [hcolumn]
  decide

end TrafficLine

end PaloAltoExtractor

end Ulpf.Core
