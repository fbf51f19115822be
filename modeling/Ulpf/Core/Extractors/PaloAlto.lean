import Ulpf.Core.Extractors.Common

/-!
# The Palo Alto extractor

The syslog header is cut off where the CSV body seems to start, and the columns are read
relative to the column that says `TRAFFIC`.
-/

namespace Ulpf.Core.PaloAltoExtractor

/-- `&s[s.find(pat)? + n..]` -/
def findAfter (pat : String) (n : ℕ) (s : Text) : Option Text :=
  (findFrom pat.toList s).map (List.drop n)

/-- The text before the first occurrence of `pat`. -/
def before (pat : String) (s : Text) : Option Text :=
  (findFrom pat.toList s).map fun rest => s.take (s.length - rest.length)

/-- `&trimmed[space_pos + 1..]` for the last blank before `,TRAFFIC,`. -/
def lastWordFrom (trimmed beforeTraffic : Text) : Text :=
  let word := (beforeTraffic.reverse.takeWhile (· != ' ')).reverse
  if ' ' ∈ beforeTraffic then trimmed.drop (beforeTraffic.length - word.length) else trimmed

def stripSyslogPrefix (raw : Text) : Text :=
  let trimmed := trim raw
  if startsWith trimmed "1,20" then trimmed
  else
    match findAfter " 1,20" 1 trimmed with
    | some body => body
    | none =>
      match findAfter ": 1,20" 2 trimmed with
      | some body => body
      | none =>
        match before ",TRAFFIC," trimmed with
        | some beforeTraffic => lastWordFrom trimmed beforeTraffic
        | none => trimmed

/-- Column of the `TRAFFIC` type token, relative to its place in the PAN-OS layout. -/
def base (fields : List Text) : ℤ :=
  ((fields.findIdx? fun f => toAsciiLowercase (String.ofList f) == "traffic").getD 3 : ℕ) - 3

/-- The column `idx` of the layout, unless it is empty. -/
def column (fields : List Text) (idx : ℕ) : Option Text :=
  let actual := idx + base fields
  if 0 ≤ actual then
    match fields[actual.toNat]? with
    | some field => if trim field = [] then none else some (trim field)
    | none => none
  else none

def textColumn (fields : List Text) (idx : ℕ) : Option String :=
  (column fields idx).map String.ofList

def dispositionOf (actionStr : String) : String :=
  match toAsciiLowercase actionStr with
  | "allow" => dispositionAllowed
  | "deny" => dispositionBlocked
  | "drop" => dispositionDropped
  | "reset-client" | "reset-server" | "reset-both" => dispositionBlocked
  | _ => dispositionUnknown

def activityIdOf (subtype disp : String) : UInt8 :=
  match toAsciiLowercase subtype with
  | "start" => activityIdOpen
  | "end" => activityIdClose
  | "drop" | "deny" => activityIdOther
  | _ => if disp = dispositionAllowed then activityIdTrafficFlow else activityIdOther

def traffic (bytesSent bytesRcvd packets : Option UInt64) : Option Traffic :=
  if bytesSent.isSome || bytesRcvd.isSome || packets.isSome then
    some ⟨bytesRcvd, bytesSent, none, packets⟩
  else none

def unmapped (fields : List Text) (subtype : String) : FieldMap :=
  let map := FieldMap.insertSome ∅ "rule" (textColumn fields 11)
  let map := map.insertSome "application" (textColumn fields 14)
  let map := map.insertSome "serial" (textColumn fields 2)
  let map := map.insertSome "session_id" (textColumn fields 22)
  if subtype ≠ "" then map.insert "subtype" subtype else map

def build (chrono : Chrono) (nowMs : Int64) (raw : String) (fields : List Text) :
    NetworkActivity :=
  let get := textColumn fields
  let getU16 := fun idx => (column fields idx).bind parseUInt16
  let getU64 := fun idx => (column fields idx).bind parseUInt64
  let subtype := (get 4).getD ""
  let protoStr := (get 29).getD ""
  let eventTime := ((column fields 1).map fun rt =>
    chrono.parsePaloAltoTimeOrFallback rt nowMs).getD nowMs
  let protoName := if protoStr ≠ "" then some (toAsciiUppercase protoStr) else none
  let disp := dispositionOf ((get 30).getD "")
  let product := ⟨"Palo Alto Networks", "PAN-OS", none⟩
  (NetworkActivity.new (activityIdOf subtype disp) eventTime disp
    ⟨get 7, getU16 24, get 18, get 16⟩ ⟨get 8, getU16 25, get 19, get 17⟩
    ⟨protoName.bind protocolNumFromName, protoName, none⟩
    (traffic (getU64 32) (getU64 33) (getU64 34)) ⟨product, raw, "", "", nowMs⟩).withUnmapped
      (unmapped fields subtype)

def parse (chrono : Chrono) (nowMs : Int64) (raw : String) : Except String NetworkActivity :=
  let fields := splitCsv (stripSyslogPrefix raw.toList)
  if fields.length < 10 then
    .error ("Palo Alto log does not have enough CSV fields (found " ++ toString fields.length ++
      "): " ++ raw)
  else .ok (build chrono nowMs raw fields)

lemma activityIdOf_defined (subtype disp : String) :
    activityIdOf subtype disp ∈ definedActivityIds := by
  unfold activityIdOf
  split
  case h_5 => split_ifs <;> decide
  all_goals decide

lemma wellClassed_build (chrono : Chrono) (nowMs : Int64) (raw : String) (fields : List Text) :
    (build chrono nowMs raw fields).WellClassed := by
  unfold build
  apply NetworkActivity.WellClassed.withUnmapped
  apply NetworkActivity.wellClassed_new
  apply activityIdOf_defined

lemma wellClassed_parse {chrono : Chrono} {nowMs : Int64} {raw : String}
    {activity : NetworkActivity} (h : parse chrono nowMs raw = .ok activity) :
    activity.WellClassed := by
  unfold parse at h
  dsimp only at h
  split_ifs at h with hfew
  rw [← Except.ok.inj h]
  exact wellClassed_build chrono nowMs raw _

lemma fails_parse_iff {chrono : Chrono} {nowMs : Int64} {raw : String} :
    Fails (parse chrono nowMs raw) ↔ (splitCsv (stripSyslogPrefix raw.toList)).length < 10 :=
  fails_ite_iff

end Ulpf.Core.PaloAltoExtractor
