import Ulpf.Core.Extractors.Common

/-!
# The Kaggle extractor

A header row, a syslog line of `key=value` words or a CSV row of twelve columns; the addresses
are synthetic and depend on the ports.
-/

namespace Ulpf.Core.KaggleExtractor

/-- The variables that both branches read. -/
structure Columns where
  srcPort : Option UInt16 := none
  dstPort : Option UInt16 := none
  natSrcPort : Option UInt16 := none
  natDstPort : Option UInt16 := none
  action : Option String := none
  bytes : Option UInt64 := none
  sentBytes : Option UInt64 := none
  rcvdBytes : Option UInt64 := none
  packets : Option UInt64 := none
  elapsed : Option UInt64 := none
  pktsSent : Option UInt64 := none
  pktsRcvd : Option UInt64 := none
  unmapped : FieldMap := ∅

/-! ### The syslog branch -/

/-- A word cut at its first `=` sign, the value without its quotes. -/
def keyValue (part : Text) : Option (Text × Text) :=
  match part.dropWhile (· != '=') with
  | [] => none
  | _ :: v => some (part.takeWhile (· != '='), trimMatches (· == '"') v)

def Columns.assign (c : Columns) (pair : Text × Text) : Columns :=
  let v := pair.2
  match String.ofList pair.1 with
  | "src_port" => { c with srcPort := parseUInt16 v }
  | "dst_port" => { c with dstPort := parseUInt16 v }
  | "nat_src_port" => { c with natSrcPort := parseUInt16 v }
  | "nat_dst_port" => { c with natDstPort := parseUInt16 v }
  | "action" => { c with action := some (String.ofList v) }
  | "bytes" => { c with bytes := parseUInt64 v }
  | "sent_bytes" => { c with sentBytes := parseUInt64 v }
  | "rcvd_bytes" => { c with rcvdBytes := parseUInt64 v }
  | "packets" => { c with packets := parseUInt64 v }
  | "elapsed_sec" => { c with elapsed := parseUInt64 v }
  | "pkts_sent" => { c with pktsSent := parseUInt64 v }
  | "pkts_rcvd" => { c with pktsRcvd := parseUInt64 v }
  | k => { c with unmapped := c.unmapped.insert k (String.ofList v) }

def parseSyslog (trimmed : Text) : Columns :=
  ((splitWhitespace trimmed).filterMap keyValue).foldl Columns.assign {}

/-! ### The CSV branch -/

def parseCsv (trimmed : Text) : Except String Columns :=
  let parts := (trimmed.splitOn ',').map trim
  if parts.length < 5 then .error ("Invalid Kaggle CSV line: " ++ String.ofList trimmed)
  else .ok {
    srcPort := parts[0]?.bind parseUInt16
    dstPort := parts[1]?.bind parseUInt16
    natSrcPort := parts[2]?.bind parseUInt16
    natDstPort := parts[3]?.bind parseUInt16
    action := parts[4]?.map String.ofList
    bytes := parts[5]?.bind parseUInt64
    sentBytes := parts[6]?.bind parseUInt64
    rcvdBytes := parts[7]?.bind parseUInt64
    packets := parts[8]?.bind parseUInt64
    elapsed := parts[9]?.bind parseUInt64
    pktsSent := parts[10]?.bind parseUInt64
    pktsRcvd := parts[11]?.bind parseUInt64 }

/-! ### The event -/

/-- A private address derived from a port: its two bytes after the prefix. -/
def syntheticIp (network : String) (port : UInt16) : String :=
  network ++ "." ++ toString ((port >>> 8) &&& 0xff).toNat ++ "." ++
    toString (port &&& 0xff).toNat

def dispositionAndActivity (action : Option String) : String × UInt8 :=
  match action.map toAsciiLowercase with
  | some "allow" | some "accept" | some "permit" => (dispositionAllowed, activityIdTrafficFlow)
  | some "deny" | some "block" => (dispositionBlocked, activityIdOther)
  | some "drop" => (dispositionDropped, activityIdOther)
  | some "reset-both" | some "close" => (dispositionAllowed, activityIdClose)
  | _ => (dispositionUnknown, activityIdTrafficFlow)

def traffic (c : Columns) : Option Traffic :=
  if c.sentBytes.isSome || c.rcvdBytes.isSome || c.pktsSent.isSome || c.pktsRcvd.isSome then
    some ⟨c.rcvdBytes, c.sentBytes, c.pktsRcvd, c.pktsSent⟩
  else none

def buildOcsf (nowMs : Int64) (raw : String) (c : Columns) : NetworkActivity :=
  let sPort := c.srcPort.getD 0
  let dPort := c.dstPort.getD 0
  let unmapped := c.unmapped.insertSome "nat_src_port" (c.natSrcPort.map (toString ·.toNat))
  let unmapped := unmapped.insertSome "nat_dst_port" (c.natDstPort.map (toString ·.toNat))
  let unmapped := unmapped.insertSome "elapsed_sec" (c.elapsed.map (toString ·.toNat))
  let (disp, actId) := dispositionAndActivity c.action
  -- Port 53 is UDP, otherwise default to TCP
  let protocol : ConnectionInfo :=
    if dPort = 53 ∨ sPort = 53 then ⟨some 17, some "UDP", none⟩ else ⟨some 6, some "TCP", none⟩
  let product := ⟨"Kaggle", "Firewall-Simulator", none⟩
  (NetworkActivity.new actId nowMs disp ⟨some (syntheticIp "10.10" sPort), c.srcPort, none, none⟩
    ⟨some (syntheticIp "10.20" dPort), c.dstPort, none, none⟩ protocol (traffic c)
    ⟨product, raw, "", "", nowMs⟩).withUnmapped unmapped

/-- The event of the CSV header row. -/
def headerEvent (nowMs : Int64) (raw : String) : NetworkActivity :=
  let product := ⟨"Kaggle", "Firewall-Simulator", none⟩
  NetworkActivity.new activityIdOther nowMs dispositionUnknown {} {} {} none
    ⟨product, raw, "", "", nowMs⟩

def parse (nowMs : Int64) (raw : String) : Except String NetworkActivity :=
  let trimmed := trim raw.toList
  if startsWith trimmed "Source Port" || startsWith trimmed "source port" then
    .ok (headerEvent nowMs raw)
  else if contains trimmed "%KAGGLE-FW-" then .ok (buildOcsf nowMs raw (parseSyslog trimmed))
  else (parseCsv trimmed).map (buildOcsf nowMs raw)

lemma dispositionAndActivity_defined (action : Option String) :
    (dispositionAndActivity action).2 ∈ definedActivityIds := by
  unfold dispositionAndActivity
  split <;> decide

lemma wellClassed_buildOcsf (nowMs : Int64) (raw : String) (c : Columns) :
    (buildOcsf nowMs raw c).WellClassed := by
  unfold buildOcsf
  apply NetworkActivity.WellClassed.withUnmapped
  apply NetworkActivity.wellClassed_new
  apply dispositionAndActivity_defined

lemma wellClassed_parse {nowMs : Int64} {raw : String} {activity : NetworkActivity}
    (h : parse nowMs raw = .ok activity) : activity.WellClassed := by
  unfold parse at h
  dsimp only at h
  split_ifs at h with hheader hsyslog
  · rw [← Except.ok.inj h]
    exact NetworkActivity.wellClassed_new (by decide)
  · rw [← Except.ok.inj h]
    exact wellClassed_buildOcsf nowMs raw _
  · cases hcsv : parseCsv (trim raw.toList) with
    | error err =>
      rw [hcsv] at h
      cases h
    | ok columns =>
      rw [hcsv] at h
      rw [← Except.ok.inj h]
      exact wellClassed_buildOcsf nowMs raw columns

/-- The line is read as a CSV row, and is too short for one. -/
def ShortRow (trimmed : Text) : Prop :=
  ¬(startsWith trimmed "Source Port" || startsWith trimmed "source port") ∧
    ¬contains trimmed "%KAGGLE-FW-" ∧ (trimmed.splitOn ',').length < 5

lemma fails_parseCsv_iff {trimmed : Text} :
    Fails (parseCsv trimmed) ↔ (trimmed.splitOn ',').length < 5 := by
  unfold parseCsv
  dsimp only
  rw [fails_ite_iff, List.length_map]

lemma fails_parse_iff {nowMs : Int64} {raw : String} :
    Fails (parse nowMs raw) ↔ ShortRow (trim raw.toList) := by
  unfold parse ShortRow
  dsimp only
  split_ifs with hheader hsyslog
  · exact iff_of_false (not_fails_ok _) fun h => h.1 hheader
  · exact iff_of_false (not_fails_ok _) fun h => h.2.1 hsyslog
  · rw [fails_map_iff, fails_parseCsv_iff]
    exact ⟨fun h => ⟨hheader, hsyslog, h⟩, fun h => h.2.2⟩

end Ulpf.Core.KaggleExtractor
