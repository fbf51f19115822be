import Ulpf.Core.Extractors.Common

/-!
# The Suricata extractor

An EVE JSON record; its `flow` and `alert` objects decide disposition and activity. The JSON
parser and printer of `serde_json` are parameters, its `Value` is not.
-/

namespace Ulpf.Core

/-- `serde_json::Number`; a float by its bits. -/
inductive JsonNumber where
  | posInt (n : UInt64)
  | negInt (n : Int64)
  | float (bits : UInt64)

/-- `serde_json::Value`; the keys of an object are distinct. -/
inductive JsonValue where
  | null
  | bool (b : Bool)
  | number (n : JsonNumber)
  | string (s : String)
  | array (items : List JsonValue)
  | object (fields : List (String × JsonValue))

structure SerdeJson where
  fromStr : String → Except String JsonValue
  toString : JsonValue → String

namespace JsonValue

def asStr : JsonValue → Option String
  | string s => some s
  | _ => none

def asU64 : JsonValue → Option UInt64
  | number (.posInt n) => some n
  | _ => none

/-- `as_object`, kept as a value. -/
def asObject : JsonValue → Option JsonValue
  | object fields => some (object fields)
  | _ => none

def get (key : String) : JsonValue → Option JsonValue
  | object fields => fields.lookup key
  | _ => none

def getStr (key : String) (val : JsonValue) : Option String := (val.get key).bind asStr
def getU64 (key : String) (val : JsonValue) : Option UInt64 := (val.get key).bind asU64
def getObject (key : String) (val : JsonValue) : Option JsonValue := (val.get key).bind asObject

end JsonValue

namespace SuricataExtractor

def jsonSlice (raw : Text) : Text := (findFrom ['\x7b'] raw).getD (trim raw)

/-- The variables that the `flow` and `alert` objects change. -/
structure Verdict where
  traffic : Option Traffic
  disp : String
  actId : UInt8
  unmapped : FieldMap

def flowTraffic (flowObj : JsonValue) : Option Traffic :=
  let bytesToserver := flowObj.getU64 "bytes_toserver"
  let bytesToclient := flowObj.getU64 "bytes_toclient"
  let pktsToserver := flowObj.getU64 "pkts_toserver"
  let pktsToclient := flowObj.getU64 "pkts_toclient"
  if bytesToserver.isSome || bytesToclient.isSome || pktsToserver.isSome || pktsToclient.isSome
  then some ⟨bytesToclient, bytesToserver, pktsToclient, pktsToserver⟩
  else none

def stateActivityId (state : String) (actId : UInt8) : UInt8 :=
  match toAsciiLowercase state with
  | "closed" => activityIdClose
  | "new" => activityIdOpen
  | _ => actId

def Verdict.applyFlow (v : Verdict) (flowObj : JsonValue) : Verdict :=
  let flowAction := flowObj.getStr "action"
  let state := flowObj.getStr "state"
  { traffic := flowTraffic flowObj
    disp := if flowAction.any (toAsciiLowercase · == "drop") then dispositionDropped else v.disp
    actId := (state.map (stateActivityId · v.actId)).getD v.actId
    unmapped := v.unmapped.insertSome "flow_state" state }

def alertDisposition (action : String) : String :=
  match toAsciiLowercase action with
  | "blocked" | "reject" => dispositionBlocked
  | "drop" | "dropped" => dispositionDropped
  | "allowed" | "pass" => dispositionAllowed
  | _ => dispositionBlocked

def Verdict.applyAlert (json : SerdeJson) (v : Verdict) (alertObj : JsonValue) : Verdict :=
  let action := alertObj.getStr "action"
  let unmapped := v.unmapped.insertSome "alert_action" action
  let unmapped := unmapped.insertSome "alert_signature" (alertObj.getStr "signature")
  let unmapped := unmapped.insertSome "alert_category" (alertObj.getStr "category")
  let unmapped := unmapped.insertSome "alert_severity"
    ((alertObj.get "severity").map json.toString)
  { traffic := v.traffic
    disp := (action.map alertDisposition).getD dispositionBlocked
    actId := activityIdOther
    unmapped }

def verdict (json : SerdeJson) (val : JsonValue) : Verdict :=
  let eventType := (val.getStr "event_type").getD "unknown"
  let unmapped : FieldMap := Finmap.insert "event_type" eventType ∅
  let unmapped := unmapped.insertSome "flow_id" ((val.get "flow_id").map json.toString)
  let v := ⟨none, dispositionAllowed, activityIdTrafficFlow, unmapped⟩
  let v := ((val.getObject "flow").map v.applyFlow).getD v
  ((val.getObject "alert").map (v.applyAlert json)).getD v

def build (json : SerdeJson) (chrono : Chrono) (nowMs : Int64) (raw : String)
    (val : JsonValue) : NetworkActivity :=
  let eventTime := ((val.getStr "timestamp").map fun ts =>
    chrono.parseRfc3339OrFallback ts nowMs).getD nowMs
  let protoName := (val.getStr "proto").map toAsciiUppercase
  let v := verdict json val
  let product := ⟨"OISF", "Suricata", none⟩
  -- `as u16` keeps the low sixteen bits of a port
  (NetworkActivity.new v.actId eventTime v.disp
    ⟨val.getStr "src_ip", (val.getU64 "src_port").map UInt64.toUInt16, val.getStr "in_iface", none⟩
    ⟨val.getStr "dest_ip", (val.getU64 "dest_port").map UInt64.toUInt16, none, none⟩
    ⟨protoName.bind protocolNumFromName, protoName, none⟩ v.traffic
    ⟨product, raw, "", "", nowMs⟩).withUnmapped v.unmapped

def parse (json : SerdeJson) (chrono : Chrono) (nowMs : Int64) (raw : String) :
    Except String NetworkActivity :=
  match json.fromStr (String.ofList (jsonSlice raw.toList)) with
  | .error e => .error ("Failed to parse Suricata JSON: " ++ e ++ " in " ++ raw)
  | .ok val => .ok (build json chrono nowMs raw val)

lemma stateActivityId_defined {actId : UInt8} (h : actId ∈ definedActivityIds)
    (state : String) : stateActivityId state actId ∈ definedActivityIds := by
  unfold stateActivityId
  split
  case h_3 => exact h
  all_goals decide

lemma applyFlow_defined {v : Verdict} (h : v.actId ∈ definedActivityIds) (flowObj : JsonValue) :
    (v.applyFlow flowObj).actId ∈ definedActivityIds := by
  unfold Verdict.applyFlow
  cases flowObj.getStr "state" with
  | none => exact h
  | some state => exact stateActivityId_defined h state

lemma verdict_defined (json : SerdeJson) (val : JsonValue) :
    (verdict json val).actId ∈ definedActivityIds := by
  have hflow : activityIdTrafficFlow ∈ definedActivityIds := by decide
  have hother : activityIdOther ∈ definedActivityIds := by decide
  unfold verdict
  cases val.getObject "alert" with
  | some alertObj => exact hother
  | none =>
    cases val.getObject "flow" with
    | some flowObj =>
      apply applyFlow_defined
      exact hflow
    | none => exact hflow

lemma wellClassed_build (json : SerdeJson) (chrono : Chrono) (nowMs : Int64) (raw : String)
    (val : JsonValue) : (build json chrono nowMs raw val).WellClassed := by
  unfold build
  apply NetworkActivity.WellClassed.withUnmapped
  apply NetworkActivity.wellClassed_new
  apply verdict_defined

lemma wellClassed_parse {json : SerdeJson} {chrono : Chrono} {nowMs : Int64} {raw : String}
    {activity : NetworkActivity} (h : parse json chrono nowMs raw = .ok activity) :
    activity.WellClassed := by
  unfold parse at h
  split at h
  · cases h
  · rw [← Except.ok.inj h]
    exact wellClassed_build json chrono nowMs raw _

lemma fails_parse_iff {json : SerdeJson} {chrono : Chrono} {nowMs : Int64} {raw : String} :
    Fails (parse json chrono nowMs raw) ↔
      Fails (json.fromStr (String.ofList (jsonSlice raw.toList))) := by
  unfold parse
  cases json.fromStr (String.ofList (jsonSlice raw.toList)) with
  | error e => exact iff_of_true (fails_error _) (fails_error e)
  | ok val => exact iff_of_false (not_fails_ok _) (not_fails_ok val)

end SuricataExtractor

end Ulpf.Core
