import Ulpf.Core.Extractors.Common

/-!
# The pfSense extractor

The CSV part of a `filterlog` line has one layout for IPv4 and one for IPv6; the columns that
are missing leave their values unset.
-/

namespace Ulpf.Core.PfSenseExtractor

/-- What follows the colon after `filterlog`, or the whole line. -/
def csvPart (raw : Text) : Text :=
  match findFrom "filterlog".toList raw with
  | some sub =>
    match sub.dropWhile (· != ':') with
    | _ :: rest => trim rest
    | [] => trim raw
  | none => trim raw

/-- The values that depend on the IP version. -/
structure Flow where
  srcIp : Option String := none
  dstIp : Option String := none
  srcPort : Option UInt16 := none
  dstPort : Option UInt16 := none
  protoNum : Option UInt8 := none
  protoName : Option String := none

/-- The number in column 15 takes precedence over the name in column 16. -/
def flowV4 (fields : List Text) : Flow where
  srcIp := fields[18]?.map String.ofList
  dstIp := fields[19]?.map String.ofList
  srcPort := fields[20]?.bind parseUInt16
  dstPort := fields[21]?.bind parseUInt16
  protoNum := (fields[15]?.bind parseUInt8).or
    (fields[16]?.bind fun name => protocolNumFromName (toAsciiUppercase (String.ofList name)))
  protoName := fields[16]?.map fun name => toAsciiUppercase (String.ofList name)

/-- The name in column 12 takes precedence over the number in column 13. -/
def flowV6 (fields : List Text) : Flow where
  srcIp := fields[15]?.map String.ofList
  dstIp := fields[16]?.map String.ofList
  srcPort := fields[17]?.bind parseUInt16
  dstPort := fields[18]?.bind parseUInt16
  protoNum := (fields[12]?.bind fun name =>
    protocolNumFromName (toAsciiUppercase (String.ofList name))).or (fields[13]?.bind parseUInt8)
  protoName := fields[12]?.map fun name => toAsciiUppercase (String.ofList name)

def flow (ipVersion : String) (fields : List Text) : Flow :=
  if ipVersion = "4" then flowV4 fields else if ipVersion = "6" then flowV6 fields else {}

def dispositionOf (action : String) : String :=
  match toAsciiLowercase action with
  | "pass" => dispositionAllowed
  | "block" | "reject" => dispositionBlocked
  | "drop" => dispositionDropped
  | _ => dispositionUnknown

def activityIdOf (disp : String) : UInt8 :=
  if disp = dispositionAllowed then activityIdTrafficFlow else activityIdOther

def directionOf (direction : String) : Option String :=
  match toAsciiLowercase direction with
  | "in" => some "Inbound"
  | "out" => some "Outbound"
  | _ => none

/-- The text unless it is empty. -/
def nonEmpty (s : String) : Option String := if s ≠ "" then some s else none

def build (nowMs : Int64) (raw : String) (fields : List Text) : NetworkActivity :=
  let get := fun idx default => (fields[idx]?.map String.ofList).getD default
  let ipVersion := get 8 "4"
  let f := flow ipVersion fields
  let disp := dispositionOf (get 6 "")
  let unmapped := FieldMap.insertSome ∅ "rule_number" (nonEmpty (get 0 ""))
  let unmapped := unmapped.insertSome "tracker" (nonEmpty (get 3 ""))
  let unmapped := unmapped.insertSome "reason" (nonEmpty (get 5 ""))
  let unmapped := unmapped.insert "ip_version" ipVersion
  let product := ⟨"Netgate", "pfSense filterlog", none⟩
  (NetworkActivity.new (activityIdOf disp) nowMs disp
    ⟨f.srcIp, f.srcPort, nonEmpty (get 4 ""), none⟩ ⟨f.dstIp, f.dstPort, none, none⟩
    ⟨f.protoNum, f.protoName, directionOf (get 7 "")⟩ none
    ⟨product, raw, "", "", nowMs⟩).withUnmapped unmapped

def parse (nowMs : Int64) (raw : String) : Except String NetworkActivity :=
  let fields := splitCsv (csvPart raw.toList)
  if fields.length < 9 then
    .error ("pfSense filterlog has insufficient fields (found " ++ toString fields.length ++
      "): " ++ raw)
  else .ok (build nowMs raw fields)

lemma activityIdOf_defined (disp : String) : activityIdOf disp ∈ definedActivityIds := by
  unfold activityIdOf
  split_ifs <;> decide

lemma wellClassed_build (nowMs : Int64) (raw : String) (fields : List Text) :
    (build nowMs raw fields).WellClassed := by
  unfold build
  apply NetworkActivity.WellClassed.withUnmapped
  apply NetworkActivity.wellClassed_new
  apply activityIdOf_defined

lemma wellClassed_parse {nowMs : Int64} {raw : String} {activity : NetworkActivity}
    (h : parse nowMs raw = .ok activity) : activity.WellClassed := by
  unfold parse at h
  dsimp only at h
  split_ifs at h with hfew
  rw [← Except.ok.inj h]
  exact wellClassed_build nowMs raw _

lemma fails_parse_iff {nowMs : Int64} {raw : String} :
    Fails (parse nowMs raw) ↔ (splitCsv (csvPart raw.toList)).length < 9 :=
  fails_ite_iff

end Ulpf.Core.PfSenseExtractor
