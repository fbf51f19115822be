import Ulpf.Core.Extractors.Common

/-!
# The Cisco ASA extractor

The header gives severity, message code and body; the code selects the expression for the body,
and a body that does not match it falls back to a search for key words. The matcher of the
`regex` crate is a parameter: the capture groups of the first match, if there is one.
-/

namespace Ulpf.Core

abbrev Captures := ℕ → Option String

abbrev RegexEngine := (pattern haystack : String) → Option Captures

namespace CiscoAsaExtractor

def regexAsaHeader : String := r"%ASA-(\d+)-(\d+):\s*(.*)"

def regexBuilt : String :=
  r"Built\s+(inbound|outbound)?\s*([A-Za-z0-9]+)\s+connection\s+(\d+)\s+for\s+([^\s]+)(?:\s+\([^\)]+\))?\s+to\s+([^\s]+)(?:\s+\([^\)]+\))?"

def regexTeardown : String :=
  r"Teardown\s+([A-Za-z0-9]+)\s+connection\s+(\d+)\s+for\s+([^\s]+)(?:\s+\([^\)]+\))?\s+to\s+([^\s]+)(?:\s+\([^\)]+\))?(?:.*?duration\s+([^\s]+))?(?:.*?bytes\s+(\d+))?"

def regexDeny : String :=
  r"Deny\s+([A-Za-z0-9]+)\s+src\s+([^\s]+)\s+dst\s+([^\s]+)(?:.*?by\s+access-group\s+([^\s\[]+))?"

def regexDeniedConn : String :=
  r"(?:(Inbound|Outbound)\s+)?([A-Za-z0-9]+)\s+connection\s+denied\s+from\s+([^\s]+)\s+to\s+([^\s]+)(?:.*?interface\s+([^\s]+))?"

def regexVpnDisconnect : String :=
  r"Group\s*=\s*([^,]+),\s*Username\s*=\s*([^,]+),\s*IP\s*=\s*([0-9a-fA-F\.:]+).*?Bytes\s+xmt:\s*(\d+),\s*Bytes\s+rcv:\s*(\d+)(?:,\s*Reason:\s*(.*))?"

def normalizeDirection (dir : String) : String :=
  match toAsciiLowercase dir with
  | "inbound" | "in" => "Inbound"
  | "outbound" | "out" => "Outbound"
  | _ => "Unknown"

def isBracket (c : Char) : Bool := c == '(' || c == ')' || c == '[' || c == ']'

/-- Parses an endpoint of the form "interface:ip/port", "ip/port", "interface:ip", or "ip" into
address, port and interface. -/
def parseEndpointStr (text : Text) (defaultIntf : Option String) :
    Option String × Option UInt16 × Option String :=
  let clean := trimMatches isBracket (trim text)
  let (intf, rest) := match clean.dropWhile (· != ':') with
    | _ :: r => (some (String.ofList (clean.takeWhile (· != ':'))), r)
    | [] => (defaultIntf, clean)
  match rest.dropWhile (· != '/') with
  | _ :: port => (some (String.ofList (rest.takeWhile (· != '/'))), parseUInt16 port, intf)
  | [] => (some (String.ofList rest), none, intf)

def endpoint (group : Option String) (defaultIntf : Option String) : Endpoint :=
  let (ip, port, intf) := parseEndpointStr (group.getD "").toList defaultIntf
  ⟨ip, port, intf, none⟩

def connectionInfo (group : Option String) (direction : Option String) : ConnectionInfo :=
  let protoName := toAsciiUppercase (group.getD "TCP")
  ⟨protocolNumFromName protoName, some protoName, direction⟩

def captureUInt64 (group : Option String) : Option UInt64 := group.bind (parseUInt64 ·.toList)

def trimmed (s : String) : String := String.ofList (trim s.toList)

section Messages

variable (nowMs : Int64) (raw : String) (unmapped : FieldMap) (caps : Captures)

def event (actId : UInt8) (disp : String) (src dst : Endpoint) (info : ConnectionInfo)
    (traffic : Option Traffic) (unmapped : FieldMap) : NetworkActivity :=
  (NetworkActivity.new actId nowMs disp src dst info traffic
    ⟨⟨"Cisco", "ASA", none⟩, raw, "", "", nowMs⟩).withUnmapped unmapped

/-- Built connection -/
def built : NetworkActivity :=
  let direction := normalizeDirection ((caps 1).getD "Unknown")
  event nowMs raw activityIdOpen dispositionAllowed (endpoint (caps 4) none)
    (endpoint (caps 5) none) (connectionInfo (caps 2) (some direction)) none
    (unmapped.insert "connection_id" ((caps 3).getD ""))

/-- Teardown connection -/
def teardown : NetworkActivity :=
  let traffic := (captureUInt64 (caps 6)).map fun b => ⟨none, some b, none, none⟩
  let unmapped : FieldMap := unmapped.insert "connection_id" ((caps 2).getD "")
  event nowMs raw activityIdClose dispositionAllowed (endpoint (caps 3) none)
    (endpoint (caps 4) none) (connectionInfo (caps 1) none) traffic
    (FieldMap.insertSome unmapped "duration" (caps 5))

/-- Deny packet / access-group -/
def deny : NetworkActivity :=
  let acl := (caps 4).map fun a => String.ofList (trimMatches (· == '"') a.toList)
  event nowMs raw activityIdOther dispositionBlocked (endpoint (caps 2) none)
    (endpoint (caps 3) none) (connectionInfo (caps 1) none) none
    (FieldMap.insertSome unmapped "access_group" acl)

/-- Inbound connection denied -/
def deniedConn : NetworkActivity :=
  let direction := normalizeDirection ((caps 1).getD "Inbound")
  event nowMs raw activityIdOther dispositionDropped (endpoint (caps 3) (caps 5))
    (endpoint (caps 4) none) (connectionInfo (caps 2) (some direction)) none unmapped

/-- VPN session disconnected -/
def vpnDisconnect : NetworkActivity :=
  let bytesXmt := captureUInt64 (caps 4)
  let bytesRcv := captureUInt64 (caps 5)
  let traffic : Option Traffic :=
    if bytesXmt.isSome || bytesRcv.isSome then some ⟨bytesRcv, bytesXmt, none, none⟩ else none
  let unmapped : FieldMap := unmapped.insert "vpn_group" (trimmed ((caps 1).getD ""))
  let unmapped : FieldMap := unmapped.insert "vpn_username" (trimmed ((caps 2).getD ""))
  event nowMs raw activityIdClose dispositionAllowed
    ⟨some (trimmed ((caps 3).getD "")), none, none, none⟩
    ⟨some "10.0.0.1", some 443, some "outside", none⟩ ⟨some 6, some "SSL", none⟩ traffic
    (FieldMap.insertSome unmapped "disconnect_reason" ((caps 6).map trimmed))

def fallbackDisposition (body : Text) : String :=
  if contains body "Built" || contains body "Teardown" then dispositionAllowed
  else if contains body "Deny" || contains body "denied" then dispositionBlocked
  else if contains body "drop" || contains body "dropped" then dispositionDropped
  else dispositionUnknown

def fallbackActivityId (body : Text) : UInt8 :=
  if contains body "Built" then activityIdOpen
  else if contains body "Teardown" then activityIdClose
  else activityIdOther

def fallbackParse (body : String) : NetworkActivity :=
  event nowMs raw (fallbackActivityId body.toList) (fallbackDisposition body.toList) {} {} {} none
    unmapped

end Messages

/-- The event of a body that matches the expression for its message code. -/
def parseBody (captures : RegexEngine) (nowMs : Int64) (raw : String) (unmapped : FieldMap)
    (messageCode body : String) : Option NetworkActivity :=
  match messageCode with
  | "302013" | "302015" | "302020" => (captures regexBuilt body).map (built nowMs raw unmapped)
  | "302014" | "302016" | "302021" =>
    (captures regexTeardown body).map (teardown nowMs raw unmapped)
  | "106023" => (captures regexDeny body).map (deny nowMs raw unmapped)
  | "106001" | "106006" | "106007" =>
    (captures regexDeniedConn body).map (deniedConn nowMs raw unmapped)
  | "113019" => (captures regexVpnDisconnect body).map (vpnDisconnect nowMs raw unmapped)
  | _ => none

def headerFields (caps : Captures) : FieldMap :=
  let severity := ((caps 1).bind (parseUInt8 ·.toList)).getD 6
  let unmapped : FieldMap := Finmap.insert "cisco_severity" (toString severity.toNat) ∅
  unmapped.insert "cisco_message_code" ((caps 2).getD "")

def parse (captures : RegexEngine) (nowMs : Int64) (raw : String) :
    Except String NetworkActivity :=
  match captures regexAsaHeader raw with
  | none => .error ("Raw log does not contain valid %ASA- header: " ++ raw)
  | some caps =>
    let body := (caps 3).getD ""
    let unmapped := headerFields caps
    .ok ((parseBody captures nowMs raw unmapped ((caps 2).getD "") body).getD
      (fallbackParse nowMs raw unmapped body))

/-! ### Classification -/

lemma wellClassed_event {nowMs : Int64} {raw : String} {actId : UInt8} {disp : String}
    {src dst : Endpoint} {info : ConnectionInfo} {traffic : Option Traffic}
    {unmapped : FieldMap} (h : actId ∈ definedActivityIds) :
    (event nowMs raw actId disp src dst info traffic unmapped).WellClassed :=
  (NetworkActivity.wellClassed_new h).withUnmapped unmapped

lemma fallbackActivityId_defined (body : Text) :
    fallbackActivityId body ∈ definedActivityIds := by
  unfold fallbackActivityId
  split_ifs <;> decide

lemma wellClassed_parseBody {captures : RegexEngine} {nowMs : Int64} {raw : String}
    {unmapped : FieldMap} {messageCode body : String} {activity : NetworkActivity}
    (h : parseBody captures nowMs raw unmapped messageCode body = some activity) :
    activity.WellClassed := by
  unfold parseBody at h
  split at h
  case h_12 => cases h
  all_goals
    obtain ⟨caps, -, rfl⟩ := Option.map_eq_some_iff.mp h
    apply wellClassed_event
    decide

lemma wellClassed_parse {captures : RegexEngine} {nowMs : Int64} {raw : String}
    {activity : NetworkActivity} (h : parse captures nowMs raw = .ok activity) :
    activity.WellClassed := by
  unfold parse at h
  split at h
  · cases h
  · rename_i caps hcaps
    rw [← Except.ok.inj h]
    cases hbody : parseBody captures nowMs raw (headerFields caps) ((caps 2).getD "")
        ((caps 3).getD "") with
    | some activity => exact wellClassed_parseBody hbody
    | none =>
      rw [Option.getD_none]
      unfold fallbackParse
      exact wellClassed_event (fallbackActivityId_defined _)

lemma fails_parse_iff {captures : RegexEngine} {nowMs : Int64} {raw : String} :
    Fails (parse captures nowMs raw) ↔ captures regexAsaHeader raw = none := by
  unfold parse
  cases captures regexAsaHeader raw with
  | none => exact iff_of_true (fails_error _) rfl
  | some caps => exact iff_of_false (not_fails_ok _) nofun

end CiscoAsaExtractor

end Ulpf.Core
