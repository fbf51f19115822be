import Ulpf.Core.NetworkEvents

/-!
# Ports

The field of the line that each extractor reads a port from, and whether the port of the event
is the number that this field denotes.
-/

namespace Ulpf.Core

/-- The field of a line that a port is read from. -/
inductive LogField where
  | text (s : Text)
  | json (val : JsonValue)

def LogField.Denotes : LogField → ℕ → Prop
  | text s, n => Core.Denotes s n
  | json val, n => ∃ m, val = .number (.posInt m) ∧ m.toNat = n

structure PortFields where
  src : Option LogField := none
  dst : Option LogField := none

/-- A port of the event is the number its field denotes, and a number above the type's range
gives no port. -/
structure PortDenoted (field : Option LogField) (port : Option UInt16) : Prop where
  denotes : ∀ p, port = some p → ∃ f ∈ field, f.Denotes p.toNat
  large : ∀ f ∈ field, ∀ n, f.Denotes n → 65535 < n → port = none

def PortsDenoted (fields : PortFields) (activity : NetworkActivity) : Prop :=
  PortDenoted fields.src activity.srcEndpoint.port ∧
    PortDenoted fields.dst activity.dstEndpoint.port

/-- The value of the last pair with one of these keys. -/
def lastValue (keys : List String) (pairs : List (Text × Text)) : Option Text :=
  (pairs.reverse.find? fun pair => String.ofList pair.1 ∈ keys).map Prod.snd

/-! ### The fields -/

namespace FortigateExtractor

def portFields (isAlphanumeric : Char → Bool) (raw : String) : PortFields :=
  match KvTokenizer.collect isAlphanumeric raw.toList with
  | none => {}
  | some pairs =>
    { src := (lastValue ["srcport", "spt"] pairs).map .text
      dst := (lastValue ["dstport", "dpt"] pairs).map .text }

end FortigateExtractor

def PaloAltoExtractor.portFields (raw : String) : PortFields :=
  let fields := splitCsv (stripSyslogPrefix raw.toList)
  { src := (column fields 24).map .text
    dst := (column fields 25).map .text }

def PfSenseExtractor.portFields (raw : String) : PortFields :=
  let fields := splitCsv (csvPart raw.toList)
  let ipVersion := (fields[8]?.map String.ofList).getD "4"
  if ipVersion = "4" then { src := fields[20]?.map .text, dst := fields[21]?.map .text }
  else if ipVersion = "6" then { src := fields[17]?.map .text, dst := fields[18]?.map .text }
  else {}

def KaggleExtractor.portFields (raw : String) : PortFields :=
  let trimmed := trim raw.toList
  if startsWith trimmed "Source Port" || startsWith trimmed "source port" then {}
  else if contains trimmed "%KAGGLE-FW-" then
    let pairs := (splitWhitespace trimmed).filterMap keyValue
    { src := (lastValue ["src_port"] pairs).map .text
      dst := (lastValue ["dst_port"] pairs).map .text }
  else
    let parts := (trimmed.splitOn ',').map trim
    { src := parts[0]?.map .text, dst := parts[1]?.map .text }

def SuricataExtractor.portFields (json : SerdeJson) (raw : String) : PortFields :=
  match json.fromStr (String.ofList (jsonSlice raw.toList)) with
  | .error _ => {}
  | .ok val => { src := (val.get "src_port").map .json, dst := (val.get "dest_port").map .json }

namespace CiscoAsaExtractor

/-- The suffix after the slash of an endpoint text. -/
def portSuffix (text : Text) : Option Text :=
  let clean := trimMatches isBracket (trim text)
  let rest := match clean.dropWhile (· != ':') with
    | _ :: r => r
    | [] => clean
  match rest.dropWhile (· != '/') with
  | _ :: port => some port
  | [] => none

/-- The capture groups of the two endpoints. -/
def endpointGroups (captures : RegexEngine) (messageCode body : String) :
    Option (Option String × Option String) :=
  match messageCode with
  | "302013" | "302015" | "302020" => (captures regexBuilt body).map fun caps => (caps 4, caps 5)
  | "302014" | "302016" | "302021" =>
    (captures regexTeardown body).map fun caps => (caps 3, caps 4)
  | "106023" => (captures regexDeny body).map fun caps => (caps 2, caps 3)
  | "106001" | "106006" | "106007" =>
    (captures regexDeniedConn body).map fun caps => (caps 3, caps 4)
  | _ => none

def portFields (captures : RegexEngine) (raw : String) : PortFields :=
  match captures regexAsaHeader raw with
  | none => {}
  | some caps =>
    match endpointGroups captures ((caps 2).getD "") ((caps 3).getD "") with
    | none => {}
    | some (src, dst) =>
      { src := (portSuffix (src.getD "").toList).map .text
        dst := (portSuffix (dst.getD "").toList).map .text }

/-- The line tells of a VPN session that was disconnected, and has no ports. -/
def IsVpnDisconnect (captures : RegexEngine) (raw : String) : Prop :=
  ∃ caps, captures regexAsaHeader raw = some caps ∧ (caps 2).getD "" = "113019" ∧
    (captures regexVpnDisconnect ((caps 3).getD "")).isSome

end CiscoAsaExtractor

/-! ### The law -/

section Law

variable (rt : Runtime) (r : Readings)

def portFields (raw : String) : VendorFormat → PortFields
  | .ciscoAsa => CiscoAsaExtractor.portFields rt.captures raw
  | .fortinet => FortigateExtractor.portFields rt.isAlphanumeric raw
  | .paloAlto => PaloAltoExtractor.portFields raw
  | .suricata => SuricataExtractor.portFields rt.json raw
  | .pfSense => PfSenseExtractor.portFields raw
  | .kaggleFirewall => KaggleExtractor.portFields raw
  | .unknown => {}

/-- The extractor of the format fabricates no port on the line. -/
def FabricatesNoPort (format : VendorFormat) (raw : String) : Prop :=
  ∀ activity, (universalParser rt r).extract format raw = .ok (some activity) →
    PortsDenoted (portFields rt raw format) activity

/-- No port of the record exceeds sixteen bits. -/
def PortsInRange (val : JsonValue) : Prop :=
  ∀ key ∈ ["src_port", "dest_port"], ∀ n, val.getU64 key = some n → n.toNat ≤ 65535

/-- The lines whose ports an extractor does not have to make up or to wrap. -/
def PortsReadable (raw : String) : VendorFormat → Prop
  | .suricata => ∀ val,
      rt.json.fromStr (String.ofList (SuricataExtractor.jsonSlice raw.toList)) = .ok val →
        PortsInRange val
  | .ciscoAsa => ¬CiscoAsaExtractor.IsVpnDisconnect rt.captures raw
  | _ => True

end Law

/-! ### Fields and ports -/

lemma Denotes.eq {s : Text} {m n : ℕ} (hm : Denotes s m) (hn : Denotes s n) : m = n := by
  have hlt : m < 2 ^ (m + n + 1) ∧ n < 2 ^ (m + n + 1) :=
    ⟨lt_of_lt_of_le (by omega) Nat.lt_two_pow_self.le,
      lt_of_lt_of_le (by omega) Nat.lt_two_pow_self.le⟩
  have hparse := parseUnsigned_eq_some_iff.mpr ⟨hm, hlt.1⟩
  rw [parseUnsigned_eq_some_iff.mpr ⟨hn, hlt.2⟩] at hparse
  exact (Option.some.inj hparse).symm

lemma portDenoted_text (field : Option Text) :
    PortDenoted (field.map .text) (field.bind parseUInt16) where
  denotes := by
    intro p hp
    obtain ⟨s, rfl, hs⟩ := Option.bind_eq_some_iff.mp hp
    exact ⟨.text s, rfl, parseUInt16_eq_some_iff.mp hs⟩
  large := by
    intro f hf n hn hlarge
    obtain ⟨s, rfl, rfl⟩ := Option.map_eq_some_iff.mp hf
    cases hparse : parseUInt16 s with
    | none => rw [Option.bind_some, hparse]
    | some p =>
      have heq : p.toNat = n := (parseUInt16_eq_some_iff.mp hparse).eq hn
      have hlt := p.toNat_lt
      omega

lemma portDenoted_none (field : Option LogField) : PortDenoted field none where
  denotes := nofun
  large _ _ _ _ _ := rfl

lemma portDenoted_json_iff {val : JsonValue} {key : String} :
    PortDenoted ((val.get key).map .json) ((val.getU64 key).map UInt64.toUInt16) ↔
      ∀ n, val.getU64 key = some n → n.toNat ≤ 65535 := by
  have hnumber : ∀ n, val.getU64 key = some n ↔ val.get key = some (.number (.posInt n)) := by
    intro n
    rw [JsonValue.getU64, Option.bind_eq_some_iff]
    constructor
    · rintro ⟨v, hv, hn⟩
      unfold JsonValue.asU64 at hn
      split at hn
      · cases hn
        exact hv
      · cases hn
    · intro hv
      exact ⟨_, hv, rfl⟩
  constructor
  · intro h n hn
    by_contra hlarge
    have hfield : LogField.json (.number (.posInt n)) ∈ (val.get key).map .json := by
      rw [(hnumber n).mp hn]
      rfl
    have hnone := h.large _ hfield n.toNat ⟨n, rfl, rfl⟩ (by omega)
    rw [hn] at hnone
    cases hnone
  · intro h
    constructor
    · intro p hp
      obtain ⟨n, hn, rfl⟩ := Option.map_eq_some_iff.mp hp
      refine ⟨.json (.number (.posInt n)), ?_, n, rfl, ?_⟩
      · rw [(hnumber n).mp hn]
        rfl
      · have hle := h n hn
        rw [UInt64.toNat_toUInt16]
        omega
    · intro f hf n hn hlarge
      obtain ⟨v, hv, rfl⟩ := Option.map_eq_some_iff.mp hf
      obtain ⟨m, rfl, rfl⟩ := hn
      have hle := h m ((hnumber m).mpr hv)
      omega

lemma lastValue_concat (keys : List String) (pairs : List (Text × Text)) (pair : Text × Text) :
    lastValue keys (pairs ++ [pair]) =
      if String.ofList pair.1 ∈ keys then some pair.2 else lastValue keys pairs := by
  unfold lastValue
  rw [List.reverse_append, List.reverse_singleton, List.singleton_append, List.find?_cons]
  split_ifs with h
  · simp [h]
  · simp [h]

/-! ### Key-value lines -/

lemma FortigateExtractor.ports_setProto (f : Fields) (val : Text) :
    (f.setProto val).srcPort = f.srcPort ∧ (f.setProto val).dstPort = f.dstPort := by
  unfold Fields.setProto
  split
  · exact ⟨rfl, rfl⟩
  · exact ⟨rfl, rfl⟩

lemma FortigateExtractor.ports_assign (f : Fields) (pair : Text × Text) :
    (f.assign pair).srcPort =
        (if String.ofList pair.1 ∈ ["srcport", "spt"] then parseUInt16 pair.2 else f.srcPort) ∧
      (f.assign pair).dstPort =
        (if String.ofList pair.1 ∈ ["dstport", "dpt"] then parseUInt16 pair.2 else f.dstPort) := by
  unfold Fields.assign
  dsimp only
  split
  case h_17 hkey => simpa [hkey] using ports_setProto f pair.2
  case h_31 =>
    simp only [List.mem_cons, List.not_mem_nil, or_false]
    rw [if_neg (by tauto), if_neg (by tauto)]
    exact ⟨rfl, rfl⟩
  all_goals
    rename_i hkey
    simp [hkey]

lemma KaggleExtractor.ports_assign (c : Columns) (pair : Text × Text) :
    (c.assign pair).srcPort =
        (if String.ofList pair.1 ∈ ["src_port"] then parseUInt16 pair.2 else c.srcPort) ∧
      (c.assign pair).dstPort =
        (if String.ofList pair.1 ∈ ["dst_port"] then parseUInt16 pair.2 else c.dstPort) := by
  unfold Columns.assign
  dsimp only
  split
  case h_13 =>
    simp only [List.mem_cons, List.not_mem_nil, or_false]
    rw [if_neg (by tauto), if_neg (by tauto)]
    exact ⟨rfl, rfl⟩
  all_goals
    rename_i hkey
    simp [hkey]

lemma foldl_lastValue {F : Type} {assign : F → Text × Text → F} {port : F → Option UInt16}
    {keys : List String}
    (h : ∀ f pair, port (assign f pair) =
      if String.ofList pair.1 ∈ keys then parseUInt16 pair.2 else port f)
    (start : F) (hstart : port start = none) (pairs : List (Text × Text)) :
    port (pairs.foldl assign start) = (lastValue keys pairs).bind parseUInt16 := by
  induction pairs using List.reverseRecOn with
  | nil => exact hstart
  | append_singleton pairs pair ih =>
    rw [List.foldl_append, List.foldl_cons, List.foldl_nil, h, lastValue_concat, ih]
    split_ifs
    · rfl
    · rfl

/-! ### Extractors -/

section Extractors

variable {rt : Runtime} {r : Readings} {raw : String} {activity : NetworkActivity}

lemma portsDenoted_new {fields : PortFields} {actId : UInt8} {time : Int64} {disp : String}
    {src dst : Endpoint} {info : ConnectionInfo} {traffic : Option Traffic} {metadata : Metadata}
    (hsrc : PortDenoted fields.src src.port) (hdst : PortDenoted fields.dst dst.port)
    (unmapped : FieldMap) :
    PortsDenoted fields
      ((NetworkActivity.new actId time disp src dst info traffic metadata).withUnmapped
        unmapped) := by
  rw [PortsDenoted, srcEndpoint_withUnmapped, dstEndpoint_withUnmapped]
  exact ⟨hsrc, hdst⟩

lemma FortigateExtractor.portsDenoted {isAlphanumeric : Char → Bool} {chrono : Chrono}
    {nowMs : Int64} (h : parse isAlphanumeric chrono nowMs raw = some activity) :
    PortsDenoted (portFields isAlphanumeric raw) activity := by
  obtain ⟨pairs, hpairs, rfl⟩ := Option.map_eq_some_iff.mp h
  have hsrc := foldl_lastValue (fun f pair => (ports_assign f pair).1) {} rfl pairs
  have hdst := foldl_lastValue (fun f pair => (ports_assign f pair).2) {} rfl pairs
  rw [build, portFields, hpairs]
  apply portsDenoted_new
  · dsimp only
    rw [hsrc]
    exact portDenoted_text _
  · dsimp only
    rw [hdst]
    exact portDenoted_text _

lemma PaloAltoExtractor.portsDenoted {chrono : Chrono} {nowMs : Int64}
    (h : parse chrono nowMs raw = .ok activity) : PortsDenoted (portFields raw) activity := by
  unfold parse at h
  dsimp only at h
  split_ifs at h
  rw [← Except.ok.inj h, build, portFields]
  apply portsDenoted_new
  · dsimp only
    exact portDenoted_text _
  · dsimp only
    exact portDenoted_text _

lemma PfSenseExtractor.portsDenoted {nowMs : Int64} (h : parse nowMs raw = .ok activity) :
    PortsDenoted (portFields raw) activity := by
  unfold parse at h
  dsimp only at h
  split_ifs at h
  rw [← Except.ok.inj h, build, portFields, flow]
  dsimp only
  split_ifs
  · exact portsDenoted_new (portDenoted_text _) (portDenoted_text _) _
  · exact portsDenoted_new (portDenoted_text _) (portDenoted_text _) _
  · exact portsDenoted_new (portDenoted_none _) (portDenoted_none _) _

lemma KaggleExtractor.portsDenoted_buildOcsf {nowMs : Int64} {c : Columns} {fields : PortFields}
    (hsrc : PortDenoted fields.src c.srcPort) (hdst : PortDenoted fields.dst c.dstPort) :
    PortsDenoted fields (buildOcsf nowMs raw c) := portsDenoted_new hsrc hdst _

lemma KaggleExtractor.portsDenoted {nowMs : Int64} (h : parse nowMs raw = .ok activity) :
    PortsDenoted (portFields raw) activity := by
  unfold parse at h
  unfold portFields
  dsimp only at h ⊢
  split_ifs at h ⊢ with hheader hsyslog
  · rw [← Except.ok.inj h]
    exact ⟨portDenoted_none _, portDenoted_none _⟩
  · rw [← Except.ok.inj h]
    apply portsDenoted_buildOcsf
    · dsimp only
      rw [parseSyslog, foldl_lastValue (fun c pair => (ports_assign c pair).1) {} rfl]
      exact portDenoted_text _
    · dsimp only
      rw [parseSyslog, foldl_lastValue (fun c pair => (ports_assign c pair).2) {} rfl]
      exact portDenoted_text _
  · unfold parseCsv at h
    dsimp only at h
    split_ifs at h
    · cases h
    · rw [← Except.ok.inj h]
      apply portsDenoted_buildOcsf
      · dsimp only
        exact portDenoted_text _
      · dsimp only
        exact portDenoted_text _

lemma SuricataExtractor.portsDenoted_iff {json : SerdeJson} {chrono : Chrono} {nowMs : Int64}
    {val : JsonValue} (hval : json.fromStr (String.ofList (jsonSlice raw.toList)) = .ok val) :
    PortsDenoted (portFields json raw) (build json chrono nowMs raw val) ↔ PortsInRange val := by
  rw [PortsDenoted, build, srcEndpoint_withUnmapped, dstEndpoint_withUnmapped, portFields, hval]
  dsimp only [NetworkActivity.new]
  rw [portDenoted_json_iff, portDenoted_json_iff, PortsInRange]
  simp

namespace CiscoAsaExtractor

variable {captures : RegexEngine} {nowMs : Int64} {unmapped : FieldMap} {messageCode body : String}

lemma port_endpoint (group : Option String) (defaultIntf : Option String) :
    (endpoint group defaultIntf).port = (portSuffix (group.getD "").toList).bind parseUInt16 := by
  unfold endpoint parseEndpointStr portSuffix
  dsimp only
  generalize trimMatches isBracket (trim (group.getD "").toList) = clean
  cases clean.dropWhile (· != ':') with
  | nil => cases clean.dropWhile (· != '/') <;> rfl
  | cons c rest => cases rest.dropWhile (· != '/') <;> rfl

/-- The event has the ports of these two capture groups. -/
def HasPorts (groups : Option String × Option String) (activity : NetworkActivity) : Prop :=
  activity.srcEndpoint.port = (portSuffix (groups.1.getD "").toList).bind parseUInt16 ∧
    activity.dstEndpoint.port = (portSuffix (groups.2.getD "").toList).bind parseUInt16

lemma hasPorts_event (actId : UInt8) (disp : String) (src dst : Option String)
    (srcIntf dstIntf : Option String) (info : ConnectionInfo) (traffic : Option Traffic) :
    HasPorts (src, dst) (event nowMs raw actId disp (endpoint src srcIntf) (endpoint dst dstIntf)
      info traffic unmapped) := by
  rw [HasPorts, event, srcEndpoint_withUnmapped, dstEndpoint_withUnmapped]
  exact ⟨port_endpoint src srcIntf, port_endpoint dst dstIntf⟩

/-- A body is read with two endpoint groups, as the end of a VPN session, or not at all. -/
def BodyRead (captures : RegexEngine) (nowMs : Int64) (raw : String) (unmapped : FieldMap)
    (messageCode body : String) : Prop :=
  let groups := endpointGroups captures messageCode body
  let result := parseBody captures nowMs raw unmapped messageCode body
  (messageCode ≠ "113019" ∧ ∃ g activity, groups = some g ∧ result = some activity ∧
    HasPorts g activity) ∨
  (messageCode = "113019" ∧ groups = none ∧ ∃ caps, captures regexVpnDisconnect body = some caps ∧
    result = some (vpnDisconnect nowMs raw unmapped caps)) ∨
  ((messageCode = "113019" → captures regexVpnDisconnect body = none) ∧ groups = none ∧
    result = none)

lemma bodyRead_of_map {found : Option Captures} {groups : Captures → Option String × Option String}
    {make : Captures → NetworkActivity} (hports : ∀ caps, HasPorts (groups caps) (make caps))
    (hgroups : endpointGroups captures messageCode body = found.map groups)
    (hbody : parseBody captures nowMs raw unmapped messageCode body = found.map make)
    (hcode : messageCode ≠ "113019") : BodyRead captures nowMs raw unmapped messageCode body := by
  cases found with
  | none => exact Or.inr (Or.inr ⟨fun h => absurd h hcode, hgroups, hbody⟩)
  | some caps => exact Or.inl ⟨hcode, _, _, hgroups, hbody, hports caps⟩

lemma body_of_other_code (h : messageCode ∉ ["302013", "302015", "302020", "302014", "302016",
      "302021", "106023", "106001", "106006", "106007"]) :
    endpointGroups captures messageCode body = none ∧
      parseBody captures nowMs raw unmapped messageCode body =
        if messageCode = "113019" then
          (captures regexVpnDisconnect body).map (vpnDisconnect nowMs raw unmapped)
        else none := by
  unfold endpointGroups parseBody
  split
  case h_11 =>
    refine ⟨rfl, ?_⟩
    split
    case h_11 => rfl
    case h_12 hvpn => rw [if_neg hvpn]
    all_goals exact absurd h (by decide)
  all_goals exact absurd h (by decide)

lemma bodyRead (captures : RegexEngine) (nowMs : Int64) (raw : String) (unmapped : FieldMap)
    (messageCode body : String) : BodyRead captures nowMs raw unmapped messageCode body := by
  by_cases hbuilt : messageCode ∈ ["302013", "302015", "302020"]
  · have hports : ∀ caps, HasPorts (caps 4, caps 5) (built nowMs raw unmapped caps) :=
      fun caps => hasPorts_event ..
    simp only [List.mem_cons, List.not_mem_nil, or_false] at hbuilt
    rcases hbuilt with rfl | rfl | rfl <;> exact bodyRead_of_map hports rfl rfl (by decide)
  by_cases hteardown : messageCode ∈ ["302014", "302016", "302021"]
  · have hports : ∀ caps, HasPorts (caps 3, caps 4) (teardown nowMs raw unmapped caps) :=
      fun caps => hasPorts_event ..
    simp only [List.mem_cons, List.not_mem_nil, or_false] at hteardown
    rcases hteardown with rfl | rfl | rfl <;> exact bodyRead_of_map hports rfl rfl (by decide)
  by_cases hdeny : messageCode = "106023"
  · have hports : ∀ caps, HasPorts (caps 2, caps 3) (deny nowMs raw unmapped caps) :=
      fun caps => hasPorts_event ..
    subst hdeny
    exact bodyRead_of_map hports rfl rfl (by decide)
  by_cases hdenied : messageCode ∈ ["106001", "106006", "106007"]
  · have hports : ∀ caps, HasPorts (caps 3, caps 4) (deniedConn nowMs raw unmapped caps) :=
      fun caps => hasPorts_event ..
    simp only [List.mem_cons, List.not_mem_nil, or_false] at hdenied
    rcases hdenied with rfl | rfl | rfl <;> exact bodyRead_of_map hports rfl rfl (by decide)
  have hother : endpointGroups captures messageCode body = none ∧
      parseBody captures nowMs raw unmapped messageCode body =
        if messageCode = "113019" then
          (captures regexVpnDisconnect body).map (vpnDisconnect nowMs raw unmapped)
        else none :=
    body_of_other_code (by simp_all)
  by_cases hvpn : messageCode = "113019"
  · rw [if_pos hvpn] at hother
    cases hcaps : captures regexVpnDisconnect body with
    | none =>
      rw [hcaps] at hother
      exact Or.inr (Or.inr ⟨fun _ => hcaps, hother.1, hother.2⟩)
    | some caps =>
      rw [hcaps] at hother
      exact Or.inr (Or.inl ⟨hvpn, hother.1, caps, hcaps, hother.2⟩)
  · rw [if_neg hvpn] at hother
    exact Or.inr (Or.inr ⟨fun h => absurd h hvpn, hother.1, hother.2⟩)

lemma portsDenoted_of_hasPorts {groups : Option String × Option String}
    (h : HasPorts groups activity) : PortsDenoted
      { src := (portSuffix (groups.1.getD "").toList).map .text
        dst := (portSuffix (groups.2.getD "").toList).map .text } activity := by
  rw [PortsDenoted, h.1, h.2]
  dsimp only
  exact ⟨portDenoted_text _, portDenoted_text _⟩

lemma portsDenoted_iff (h : parse captures nowMs raw = .ok activity) :
    PortsDenoted (portFields captures raw) activity ↔ ¬IsVpnDisconnect captures raw := by
  unfold parse at h
  unfold portFields IsVpnDisconnect
  cases hheader : captures regexAsaHeader raw with
  | none =>
    rw [hheader] at h
    cases h
  | some caps =>
    rw [hheader] at h
    rw [← Except.ok.inj h]
    dsimp only
    have hvpn : (∃ caps', some caps = some caps' ∧ (caps' 2).getD "" = "113019" ∧
        (captures regexVpnDisconnect ((caps' 3).getD "")).isSome) ↔
        (caps 2).getD "" = "113019" ∧ (captures regexVpnDisconnect ((caps 3).getD "")).isSome := by
      simp
    rw [hvpn]
    rcases bodyRead captures nowMs raw (headerFields caps) ((caps 2).getD "")
        ((caps 3).getD "") with
      ⟨hcode, groups, activity, hgroups, hbody, hports⟩ | ⟨hcode, hgroups, found, hfound, hbody⟩ |
        ⟨hcode, hgroups, hbody⟩
    · rw [hgroups, hbody]
      exact iff_of_true (portsDenoted_of_hasPorts hports) fun h => hcode h.1
    · rw [hgroups, hbody, hcode, hfound]
      refine iff_of_false ?_ (not_not_intro ⟨rfl, rfl⟩)
      intro h
      obtain ⟨f, hf, -⟩ := h.2.denotes 443 (by
        rw [Option.getD_some, vpnDisconnect, event, dstEndpoint_withUnmapped]
        rfl)
      cases hf
    · rw [hgroups, hbody]
      refine iff_of_true ?_ ?_
      · rw [Option.getD_none, fallbackParse, event, PortsDenoted, srcEndpoint_withUnmapped,
          dstEndpoint_withUnmapped]
        exact ⟨portDenoted_none _, portDenoted_none _⟩
      · rintro ⟨hvpn, hsome⟩
        rw [hcode hvpn] at hsome
        cases hsome

end CiscoAsaExtractor

lemma map_some_eq_ok {result : Except String NetworkActivity} :
    result.map some = .ok (some activity) ↔ result = .ok activity := by
  cases result with
  | error err => exact iff_of_false nofun nofun
  | ok found => simp [Except.map]

end Extractors

lemma CiscoAsaExtractor.forall_portsDenoted_iff {captures : RegexEngine} {nowMs : Int64}
    {raw : String} : (∀ activity, parse captures nowMs raw = .ok activity →
      PortsDenoted (portFields captures raw) activity) ↔ ¬IsVpnDisconnect captures raw := by
  constructor
  · rintro h hvpn
    obtain ⟨caps, hcaps, -⟩ := id hvpn
    have hparse : ∃ activity, parse captures nowMs raw = .ok activity := by
      unfold parse
      rw [hcaps]
      exact ⟨_, rfl⟩
    obtain ⟨activity, hactivity⟩ := hparse
    exact (portsDenoted_iff hactivity).mp (h activity hactivity) hvpn
  · intro h activity hactivity
    exact (portsDenoted_iff hactivity).mpr h

lemma SuricataExtractor.forall_portsDenoted_iff {json : SerdeJson} {chrono : Chrono}
    {nowMs : Int64} {raw : String} : (∀ activity, parse json chrono nowMs raw = .ok activity →
      PortsDenoted (portFields json raw) activity) ↔
      ∀ val, json.fromStr (String.ofList (jsonSlice raw.toList)) = .ok val → PortsInRange val := by
  constructor
  · intro h val hval
    have hparse : parse json chrono nowMs raw = .ok (build json chrono nowMs raw val) := by
      rw [parse, hval]
    exact (portsDenoted_iff hval).mp (h _ hparse)
  · intro h activity hactivity
    cases hjson : json.fromStr (String.ofList (jsonSlice raw.toList)) with
    | error e =>
      rw [parse, hjson] at hactivity
      cases hactivity
    | ok val =>
      rw [parse, hjson] at hactivity
      rw [← Except.ok.inj hactivity]
      exact (portsDenoted_iff hjson).mpr (h val hjson)

/-- Ports are fabricated exactly where a Suricata record has a number above sixteen bits, and
where a VPN session ends, which is given the port 443. -/
theorem fabricatesNoPort_iff (rt : Runtime) (r : Readings) (format : VendorFormat) (raw : String) :
    FabricatesNoPort rt r format raw ↔ PortsReadable rt raw format := by
  unfold FabricatesNoPort
  cases format <;>
    simp only [Extractors.extract, universalParser, portFields, PortsReadable, map_some_eq_ok]
  case ciscoAsa => exact CiscoAsaExtractor.forall_portsDenoted_iff
  case fortinet =>
    refine iff_of_true ?_ trivial
    intro activity h
    exact FortigateExtractor.portsDenoted (Except.ok.inj h)
  case paloAlto =>
    refine iff_of_true ?_ trivial
    intro activity h
    exact PaloAltoExtractor.portsDenoted h
  case suricata => exact SuricataExtractor.forall_portsDenoted_iff
  case pfSense =>
    refine iff_of_true ?_ trivial
    intro activity h
    exact PfSenseExtractor.portsDenoted h
  case kaggleFirewall =>
    refine iff_of_true ?_ trivial
    intro activity h
    exact KaggleExtractor.portsDenoted h
  case unknown =>
    refine iff_of_true ?_ trivial
    intro activity h
    cases h

def wrappedRecord : String := "\x7b\"src_port\":70000\x7d"

/-- `serde_json` on that record; the parser uses nothing else of its runtime there. -/
def wrappedRuntime : Runtime where
  sha256 := Integrity.sha2
  isAlphanumeric := Char.isAlphanum
  chrono := ⟨fun _ _ => none, fun _ => none⟩
  json :=
    { fromStr := fun s =>
        if s = wrappedRecord then .ok (.object [("src_port", .number (.posInt 70000))])
        else .error "expected value"
      toString := fun _ => "70000" }
  captures _ _ := none

/-- The port 70000 becomes 4464. -/
theorem port_wrapped :
    (∃ activity, (universalParser wrappedRuntime ⟨"", 0, 0⟩).extract .suricata wrappedRecord =
        .ok (some activity) ∧ activity.srcEndpoint.port = some 4464) ∧
      ¬FabricatesNoPort wrappedRuntime ⟨"", 0, 0⟩ .suricata wrappedRecord := by
  have hslice : String.ofList (SuricataExtractor.jsonSlice wrappedRecord.toList) =
      wrappedRecord := by decide +kernel
  have hval : wrappedRuntime.json.fromStr
      (String.ofList (SuricataExtractor.jsonSlice wrappedRecord.toList)) =
      .ok (.object [("src_port", .number (.posInt 70000))]) := by
    rw [hslice, wrappedRuntime]
    dsimp only
    rw [if_pos rfl]
  have hparse : SuricataExtractor.parse wrappedRuntime.json wrappedRuntime.chrono 0 wrappedRecord =
      .ok (SuricataExtractor.build wrappedRuntime.json wrappedRuntime.chrono 0 wrappedRecord
        (.object [("src_port", .number (.posInt 70000))])) := by
    rw [SuricataExtractor.parse, hval]
  have hextract := map_some_eq_ok.mpr hparse
  refine ⟨⟨_, hextract, ?_⟩, ?_⟩
  · rw [SuricataExtractor.build, srcEndpoint_withUnmapped]
    rfl
  · intro h
    have hrange := (SuricataExtractor.portsDenoted_iff hval).mp (h _ hextract)
    have hle := hrange "src_port" List.mem_cons_self 70000 rfl
    exact absurd hle (by decide)

end Ulpf.Core
