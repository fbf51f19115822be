import Ulpf.Ai.ParserDefinition

/-!
# The exported extractor

`generate_rust_code` fills a template with the names and the expression of a parser definition.
The extractor that the text denotes is written out as a function here; the compiler that turns
the one into the other is a parameter, which reads every CR LF of the text as LF. Where the two
parsers agree on a line is `SameOutcome`.
-/

namespace Ulpf.Ai
open Ulpf.Core
open Ulpf.Integrity (Bytes Hash asBytes sha2)

/-- What the compiler takes from the Unicode tables. -/
structure UnicodeTables where
  isAlphanumeric : Char → Bool
  isXidStart : Char → Bool
  isXidContinue : Char → Bool

/-- The method `parse` of a compiled extractor; nothing stands for a panic. -/
abbrev Extractor := String → Option (Except String NetworkActivity)

/-- What the compiler makes of the line ends of a text. -/
def normalizeNewlines : Text → Text
  | '\r' :: '\n' :: s => '\n' :: normalizeNewlines s
  | c :: s => c :: normalizeNewlines s
  | [] => []

namespace ParserDefinition

def templateLines : List String :=
  [
    "// Auto-generated 1-click OCSF 1.3 Extractor for __VENDOR__ __MODEL__",
    "// Generated by ULPF Air-Gapped AI Onboarder",
    "use ulpf_core::schema::ocsf::\x7b",
    "    activity_id, disposition, ConnectionInfo, Endpoint, Metadata, NetworkActivity, Product,",
    "\x7d;",
    "use regex::Regex;",
    "use std::sync::OnceLock;",
    "use sha2::\x7bDigest, Sha256\x7d;",
    "use uuid::Uuid;",
    "use chrono::Utc;",
    "",
    "pub struct __VENDOR____MODEL__Extractor \x7b",
    "    regex: OnceLock<Regex>,",
    "\x7d",
    "",
    "impl __VENDOR____MODEL__Extractor \x7b",
    "    pub fn new() -> Self \x7b",
    "        Self \x7b regex: OnceLock::new() \x7d",
    "    \x7d",
    "",
    "    pub fn parse(&self, raw: &str) -> anyhow::Result<NetworkActivity> \x7b",
    "        let re = self.regex.get_or_init(|| \x7b",
    "            Regex::new(r\"__PATTERN__\").expect(\"Invalid regex for __VENDOR__\")",
    "        \x7d);",
    "",
    "        let caps = re.captures(raw).ok_or_else(|| anyhow::anyhow!(\"Log match failed\"))?;",
    "        let now_ms = Utc::now().timestamp_millis();",
    "        let raw_hash = hex::encode(Sha256::digest(raw.as_bytes()));",
    "        let event_id = Uuid::now_v7().to_string();",
    "",
    "        let src_ip = caps.name(\"src_ip\").map(|m| m.as_str().to_string());",
    "        let dst_ip = caps.name(\"dst_ip\").map(|m| m.as_str().to_string());",
    "        let src_port = caps.name(\"src_port\").and_then(|m| m.as_str().parse::<u16>().ok());",
    "        let dst_port = caps.name(\"dst_port\").and_then(|m| m.as_str().parse::<u16>().ok());",
    "",
    "        let src_endpoint = Endpoint::new(src_ip, src_port, None, None);",
    "        let dst_endpoint = Endpoint::new(dst_ip, dst_port, None, None);",
    "",
    "        let proto_str = caps.name(\"protocol\").map(|m| m.as_str()).unwrap_or(\"TCP\");",
    "        let connection_info = ConnectionInfo::new(Some(6), Some(proto_str.to_string()), None);",
    "",
    "        let product = Product::new(\"__VENDOR__\", \"__MODEL__\", None);",
    "        let metadata = Metadata::new(product, raw, raw_hash, event_id, now_ms);",
    "",
    "        Ok(NetworkActivity::new(",
    "            activity_id::TRAFFIC_FLOW,",
    "            now_ms,",
    "            disposition::ALLOWED,",
    "            src_endpoint,",
    "            dst_endpoint,",
    "            connection_info,",
    "            None,",
    "            metadata,",
    "        ))",
    "    \x7d",
    "\x7d"
  ]

def template : Text := templateLines.flatMap fun line => line.toList ++ ['\n']

section Model

variable (tables : UnicodeTables) (regex : RegexCrate) (sha256 : Bytes → Hash) (r : Readings)
  (d : ParserDefinition)

def sanitizeIdent (s : String) : String := String.ofList (s.toList.filter tables.isAlphanumeric)

/-- Generates standalone Rust extractor code -/
def generateRustCode : Text :=
  replace "__PATTERN__" d.regexPattern
    (replace "__MODEL__" (sanitizeIdent tables d.deviceModel)
      (replace "__VENDOR__" (sanitizeIdent tables d.vendor) template))

/-- The expression that stands in the emitted text. -/
def literal : String := String.ofList (normalizeNewlines d.regexPattern.toList)

/-- The event of the template for a line that matches. -/
def generatedActivity (caps : Match) (raw : String) : NetworkActivity :=
  let srcEndpoint := ⟨caps.name "src_ip", caps.port "src_port", none, none⟩
  let dstEndpoint := ⟨caps.name "dst_ip", caps.port "dst_port", none, none⟩
  let connectionInfo := ⟨some 6, some ((caps.name "protocol").getD "TCP"), none⟩
  let product := ⟨sanitizeIdent tables d.vendor, sanitizeIdent tables d.deviceModel, none⟩
  let metadata := ⟨product, raw, (sha256 (asBytes raw)).toHex, r.eventId, r.nowMs⟩
  NetworkActivity.new activityIdTrafficFlow r.nowMs dispositionAllowed srcEndpoint dstEndpoint
    connectionInfo none metadata

/-- The method `parse` of the template. -/
def generatedExtractor : Extractor := fun raw =>
  (regex.new d.literal).map fun re =>
    match re.captures raw with
    | none => .error "Log match failed"
    | some caps => .ok (d.generatedActivity tables sha256 r caps raw)

end Model

/-- The control characters of text direction, which the compiler denies in literals. -/
def isTextDirection (c : Char) : Bool :=
  (0x202A ≤ c.toNat && c.toNat ≤ 0x202E) || (0x2066 ≤ c.toNat && c.toNat ≤ 0x2069)

/-- The text is a program, for an expression without quotes: the expression fits into the raw
literal `r"..."` and the name of the extractor is an identifier. -/
structure Emits (tables : UnicodeTables) (d : ParserDefinition) : Prop where
  literal : ∀ c ∈ d.literal.toList, c ≠ '\r' ∧ isTextDirection c = false
  identifier : ∃ c rest, (sanitizeIdent tables d.vendor ++ sanitizeIdent tables d.deviceModel ++
    "Extractor").toList = c :: rest ∧ tables.isXidStart c ∧ rest.all tables.isXidContinue

/-- Both return an event, with the same disposition, activity id, protocol and endpoints, or
neither does. -/
def Agree : Option (Except String NetworkActivity) → Except String NetworkActivity → Prop
  | some (.ok event), .ok event' =>
    event.disposition = event'.disposition ∧ event.activityId = event'.activityId ∧
      event.connectionInfo.protocolNum = event'.connectionInfo.protocolNum ∧
      event.connectionInfo.protocolName = event'.connectionInfo.protocolName ∧
      event.srcEndpoint = event'.srcEndpoint ∧ event.dstEndpoint = event'.dstEndpoint
  | some (.ok _), .error _ => False
  | _, .ok _ => False
  | _, .error _ => True

/-- The group spells TCP, or is its number. -/
def SpellsTcp (group : String) : Prop :=
  parseUInt8 (trim group.toList) = some 6 ∨ parseUInt8 (trim group.toList) = none ∧
    toAsciiUppercase (String.ofList (trim group.toList)) = "TCP"

instance (group : String) : Decidable (SpellsTcp group) := inferInstanceAs (Decidable (_ ∨ _))

/-- The mapping of the definition is the one of the template, with the match `caps'` of the emitted
expression and the match `caps` of the expression itself. -/
structure PlainFlow (d : ParserDefinition) (caps' caps : Match) : Prop where
  srcIp : caps'.name "src_ip" = caps.name "src_ip"
  srcPort : caps'.port "src_port" = caps.port "src_port"
  dstIp : caps'.name "dst_ip" = caps.name "dst_ip"
  dstPort : caps'.port "dst_port" = caps.port "dst_port"
  protocol : ∃ group, caps.name "protocol" = some group ∧ SpellsTcp group
  protocolName : (caps'.name "protocol").getD "TCP" = "TCP"
  interface : caps.name "interface" = none
  srcZone : caps.name "src_zone" = none
  dstZone : caps.name "dst_zone" = none
  allowed : d.actionMappings.lookup caps.rawAction = some "Allowed" ∨
    d.actionMappings.lookup caps.rawAction = none ∧
      caps.rawAction ∈ ["accept", "permit", "allow", "passed", "pass"]
  flow : caps.rawAction ∉ ["created", "start", "open", "closed", "close", "teardown"]

/-- Neither expression matches, or both do and the flow is plain. -/
def SameOutcome (d : ParserDefinition) : Option Match → Option Match → Prop
  | some caps', some caps => d.PlainFlow caps' caps
  | none, none => True
  | _, _ => False

/-! ### Protocols and actions -/

lemma toUpper_toUpper (c : Char) : c.toUpper.toUpper = c.toUpper := by
  unfold Char.toUpper
  split
  · next h =>
    rw [dif_neg]
    intro h'
    simp only [UInt32.le_iff_toNat_le] at h h'
    simp at h h'
    omega
  · rfl

lemma toAsciiUppercase_idem (s : String) :
    toAsciiUppercase (toAsciiUppercase s) = toAsciiUppercase s := by
  unfold toAsciiUppercase
  rw [String.toList_ofList, List.map_map]
  congr 1
  exact List.map_congr_left fun c _ => toUpper_toUpper c

lemma protocolNumFromName_eq_six {name : String} (h : protocolNumFromName name = some 6) :
    toAsciiUppercase name = "TCP" := by
  unfold protocolNumFromName at h
  split at h <;> first | assumption | cases h

lemma protocolOf_of_num {group : String} {num : UInt8}
    (h : parseUInt8 (trim group.toList) = some num) :
    Match.protocolOf group = (some num, some (protocolNameFromNum num)) := by
  unfold Match.protocolOf
  dsimp only
  rw [h]

lemma protocolOf_of_name {group : String} (h : parseUInt8 (trim group.toList) = none) :
    Match.protocolOf group =
      (protocolNumFromName (toAsciiUppercase (String.ofList (trim group.toList))),
        some (toAsciiUppercase (String.ofList (trim group.toList)))) := by
  unfold Match.protocolOf
  dsimp only
  rw [h]

lemma protocolOf_fst_eq_six_iff {group : String} :
    (Match.protocolOf group).1 = some 6 ↔ SpellsTcp group := by
  unfold SpellsTcp
  cases hparse : parseUInt8 (trim group.toList) with
  | some num =>
    rw [protocolOf_of_num hparse]
    simp
  | none =>
    rw [protocolOf_of_name hparse]
    simp only [reduceCtorEq, false_or, true_and]
    constructor
    · intro h
      have hupper := protocolNumFromName_eq_six h
      rwa [toAsciiUppercase_idem] at hupper
    · intro h
      rw [h]
      decide

lemma protocolOf_snd_of_spellsTcp {group : String} (h : SpellsTcp group) :
    (Match.protocolOf group).2 = some "TCP" := by
  rcases h with hparse | ⟨hparse, hupper⟩
  · rw [protocolOf_of_num hparse]
    rfl
  · rw [protocolOf_of_name hparse, hupper]

lemma protocol_agrees_iff {caps' caps : Match} :
    (some 6 = caps.connectionInfo.protocolNum ∧
      some ((caps'.name "protocol").getD "TCP") = caps.connectionInfo.protocolName) ↔
      (∃ group, caps.name "protocol" = some group ∧ SpellsTcp group) ∧
        (caps'.name "protocol").getD "TCP" = "TCP" := by
  unfold Match.connectionInfo
  cases caps.name "protocol" with
  | none => exact iff_of_false nofun nofun
  | some group =>
    dsimp only
    rw [eq_comm, protocolOf_fst_eq_six_iff]
    constructor
    · rintro ⟨htcp, hname⟩
      rw [protocolOf_snd_of_spellsTcp htcp] at hname
      exact ⟨⟨group, rfl, htcp⟩, Option.some.inj hname⟩
    · rintro ⟨⟨other, heq, htcp⟩, hname⟩
      cases heq
      rw [protocolOf_snd_of_spellsTcp htcp, hname]
      exact ⟨htcp, rfl⟩

lemma defaultDisposition_eq_allowed_iff {rawAction : String}
    (hflow : rawAction ∉ ["created", "start", "open", "closed", "close", "teardown"]) :
    defaultDisposition rawAction = dispositionAllowed ↔
      rawAction ∈ ["accept", "permit", "allow", "passed", "pass"] := by
  unfold defaultDisposition
  split <;> simp_all [dispositionAllowed, dispositionBlocked, dispositionDropped,
    dispositionUnknown]

lemma normDisp_eq_allowed_iff {d : ParserDefinition} {rawAction : String}
    (hflow : rawAction ∉ ["created", "start", "open", "closed", "close", "teardown"]) :
    d.normDisp rawAction = dispositionAllowed ↔
      d.actionMappings.lookup rawAction = some "Allowed" ∨
        d.actionMappings.lookup rawAction = none ∧
          rawAction ∈ ["accept", "permit", "allow", "passed", "pass"] := by
  unfold normDisp
  cases d.actionMappings.lookup rawAction with
  | none => simp [defaultDisposition_eq_allowed_iff hflow]
  | some disp => simp [dispositionAllowed]

lemma deriveActivityId_eq_flow_iff {rawAction : String} :
    deriveActivityId rawAction dispositionAllowed = activityIdTrafficFlow ↔
      rawAction ∉ ["created", "start", "open", "closed", "close", "teardown"] := by
  unfold deriveActivityId
  split <;> simp_all [activityIdOpen, activityIdClose, activityIdTrafficFlow]

lemma action_agrees_iff {d : ParserDefinition} {rawAction : String} :
    (dispositionAllowed = d.normDisp rawAction ∧
      activityIdTrafficFlow = deriveActivityId rawAction (d.normDisp rawAction)) ↔
      (d.actionMappings.lookup rawAction = some "Allowed" ∨
        d.actionMappings.lookup rawAction = none ∧
          rawAction ∈ ["accept", "permit", "allow", "passed", "pass"]) ∧
        rawAction ∉ ["created", "start", "open", "closed", "close", "teardown"] := by
  constructor
  · rintro ⟨hdisp, hactivity⟩
    rw [← hdisp, eq_comm, deriveActivityId_eq_flow_iff] at hactivity
    exact ⟨(normDisp_eq_allowed_iff hactivity).mp hdisp.symm, hactivity⟩
  · rintro ⟨hallowed, hflow⟩
    have hdisp := (normDisp_eq_allowed_iff hflow).mpr hallowed
    rw [hdisp]
    exact ⟨rfl, (deriveActivityId_eq_flow_iff.mpr hflow).symm⟩

/-! ### The two extractors -/

section Agreement

variable {tables : UnicodeTables} {regex : RegexCrate} {sha256 : Bytes → Hash} {r r' : Readings}
  {d : ParserDefinition}

lemma agree_withUnmapped {result : Option (Except String NetworkActivity)}
    {event : NetworkActivity} {unmapped : FieldMap} :
    Agree result (.ok (event.withUnmapped unmapped)) ↔ Agree result (.ok event) := by
  unfold NetworkActivity.withUnmapped
  rcases result with - | err | event' <;> split_ifs <;> rfl

/-- On a line that matches, the two events agree exactly on plain flows. -/
lemma agree_activity_iff {re : CompiledRegex} {caps' caps : Match} {raw : String} :
    Agree (some (.ok (d.generatedActivity tables sha256 r caps' raw)))
      (.ok (d.activity sha256 r' re caps raw)) ↔ d.PlainFlow caps' caps := by
  unfold activity
  rw [agree_withUnmapped]
  constructor
  · rintro ⟨hdisp, hactivity, hnum, hname, hsrc, hdst⟩
    obtain ⟨hsrcIp, hsrcPort, hinterface, hsrcZone⟩ := Endpoint.mk.inj hsrc
    obtain ⟨hdstIp, hdstPort, -, hdstZone⟩ := Endpoint.mk.inj hdst
    have haction := action_agrees_iff.mp ⟨hdisp, hactivity⟩
    have hprotocol := protocol_agrees_iff.mp ⟨hnum, hname⟩
    exact
      { srcIp := hsrcIp
        srcPort := hsrcPort
        dstIp := hdstIp
        dstPort := hdstPort
        protocol := hprotocol.1
        protocolName := hprotocol.2
        interface := hinterface.symm
        srcZone := hsrcZone.symm
        dstZone := hdstZone.symm
        allowed := haction.1
        flow := haction.2 }
  · intro h
    obtain ⟨hdisp, hactivity⟩ := action_agrees_iff.mpr ⟨h.allowed, h.flow⟩
    obtain ⟨hnum, hname⟩ := protocol_agrees_iff.mpr ⟨h.protocol, h.protocolName⟩
    have hsrc : caps.srcEndpoint = ⟨caps'.name "src_ip", caps'.port "src_port", none, none⟩ := by
      rw [Match.srcEndpoint, h.interface, h.srcZone, h.srcIp, h.srcPort]
    have hdst : caps.dstEndpoint = ⟨caps'.name "dst_ip", caps'.port "dst_port", none, none⟩ := by
      rw [Match.dstEndpoint, h.dstZone, h.dstIp, h.dstPort]
    exact ⟨hdisp, hactivity, hnum, hname, hsrc.symm, hdst.symm⟩

lemma agree_generatedExtractor_iff {re : CompiledRegex}
    (hcompiles : regex.new d.regexPattern = some re) (raw : String) :
    Agree (d.generatedExtractor tables regex sha256 r raw) (d.parse regex sha256 r' raw) ↔
      d.SameOutcome ((regex.new d.literal).bind (·.captures raw)) (re.captures raw) := by
  have hparse : d.parse regex sha256 r' raw = match re.captures raw with
      | none => .error ("Log did not match dynamic parser pattern for vendor \x27" ++ d.vendor ++
          "\x27: " ++ raw)
      | some caps => .ok (d.activity sha256 r' re caps raw) := by
    unfold parse
    generalize regex.new d.regexPattern = compiled at hcompiles ⊢
    subst hcompiles
    rfl
  rw [hparse, generatedExtractor]
  cases regex.new d.literal with
  | none => cases re.captures raw <;> exact Iff.rfl
  | some re' =>
    rw [Option.map_some, Option.bind_some]
    cases re'.captures raw with
    | none => cases re.captures raw <;> exact Iff.rfl
    | some caps' =>
      cases re.captures raw with
      | none => exact Iff.rfl
      | some caps => exact agree_activity_iff

/-- The exported extractor agrees with the parser on a line if the emitted text is a program whose
expression does not match where the other does not, and matches only allowed TCP flows without
interface and zones. Where an expression has no quote, and so stays within its literal, it agrees
only then. -/
theorem exported_extractor_agrees_iff {re : CompiledRegex}
    (hcompiles : regex.new d.regexPattern = some re) {rustc : Text → Option Extractor}
    (hrustc : '"' ∉ d.regexPattern.toList → d.Emits tables →
      rustc (d.generateRustCode tables) = some (d.generatedExtractor tables regex sha256 r))
    (hdenied : '"' ∉ d.regexPattern.toList → ¬d.Emits tables →
      rustc (d.generateRustCode tables) = none) (raw : String) :
    let agrees := ∃ f, rustc (d.generateRustCode tables) = some f ∧
      Agree (f raw) (d.parse regex sha256 r' raw)
    let plain := '"' ∉ d.regexPattern.toList ∧ d.Emits tables ∧
      d.SameOutcome ((regex.new d.literal).bind (·.captures raw)) (re.captures raw)
    (plain → agrees) ∧ (agrees → plain ∨ '"' ∈ d.regexPattern.toList) := by
  intro agrees plain
  constructor
  · rintro ⟨hquote, hemits, hsame⟩
    exact ⟨_, hrustc hquote hemits, (agree_generatedExtractor_iff hcompiles raw).mpr hsame⟩
  · rintro ⟨f, hf, hagree⟩
    rw [or_iff_not_imp_right]
    intro hquote
    have hemits : d.Emits tables := by
      by_contra hdoes
      rw [hdenied hquote hdoes] at hf
      cases hf
    rw [hrustc hquote hemits] at hf
    cases hf
    exact ⟨hquote, hemits, (agree_generatedExtractor_iff hcompiles raw).mp hagree⟩

end Agreement

/-! ### Two lines of one definition -/

def keyValue : ParserDefinition where
  vendor := "Acme"
  deviceModel := "FW-1"
  regexPattern :=
    r"^action=(?P<action>\w+) src=(?P<src_ip>\S+) dst=(?P<dst_ip>\S+) proto=(?P<protocol>\w+)$"
  actionMappings := (∅ : AList fun _ : String => String).insert "deny" "Blocked"
  sampleLogs := []
  confidenceScore := .finite 1
  createdAt := 0

def allowedLine : String := "action=allow src=10.0.0.1 dst=10.0.0.2 proto=TCP"
def deniedLine : String := "action=deny src=10.0.0.1 dst=10.0.0.2 proto=TCP"

/-- What the expression captures from a line with the action. -/
def keyValueMatch (action : String) : Match where
  start := 0
  name := ([("action", action), ("src_ip", "10.0.0.1"), ("dst_ip", "10.0.0.2"),
    ("protocol", "TCP")].lookup ·)

/-- The expression of `keyValue` on the two lines. -/
def keyValueRegex : CompiledRegex where
  captureNames := ["action", "src_ip", "dst_ip", "protocol"]
  captures line :=
    if line = allowedLine then some (keyValueMatch "allow")
    else if line = deniedLine then some (keyValueMatch "deny")
    else none

def keyValueCrate : RegexCrate where
  new pattern := if pattern = keyValue.regexPattern then some keyValueRegex else none
  escape := id

def asciiTables : UnicodeTables := ⟨Char.isAlphanum, Char.isAlpha, Char.isAlphanum⟩

/-- A compiler that knows the text of `keyValue`. -/
def keyValueRustc (code : Text) : Option Extractor :=
  if code = keyValue.generateRustCode asciiTables then
    some (keyValue.generatedExtractor asciiTables keyValueCrate sha2 ⟨"", 0, 0⟩)
  else none

lemma keyValueCrate_new : keyValueCrate.new keyValue.regexPattern = some keyValueRegex := by
  simp [keyValueCrate]

lemma captures_allowedLine : keyValueRegex.captures allowedLine = some (keyValueMatch "allow") := by
  simp [keyValueRegex]

lemma captures_deniedLine : keyValueRegex.captures deniedLine = some (keyValueMatch "deny") := by
  have hne : deniedLine ≠ allowedLine := by decide +kernel
  simp [keyValueRegex, hne]

lemma keyValue_literal : keyValue.literal = keyValue.regexPattern := by decide +kernel

lemma keyValue_emits : keyValue.Emits asciiTables := by
  have hliteral : keyValue.literal.toList.all
      (fun c => c != '\r' && !isTextDirection c) = true := by decide +kernel
  refine ⟨fun c hc => ?_, 'A', "cmeFW1Extractor".toList, by decide, by decide, by decide⟩
  simpa using List.all_eq_true.mp hliteral c hc

theorem exported_extractor_agrees_allowed : ∃ f,
    keyValueRustc (keyValue.generateRustCode asciiTables) = some f ∧
      Agree (f allowedLine) (keyValue.parse keyValueCrate sha2 ⟨"", 0, 0⟩ allowedLine) := by
  refine (exported_extractor_agrees_iff keyValueCrate_new (fun _ _ => if_pos rfl)
    (fun _ h => absurd keyValue_emits h) allowedLine).1 ⟨by decide +kernel, keyValue_emits, ?_⟩
  rw [keyValue_literal, keyValueCrate_new, Option.bind_some, captures_allowedLine]
  exact ⟨rfl, rfl, rfl, rfl, ⟨"TCP", by decide, by decide⟩, by decide, by decide, by decide,
    by decide, by decide, by decide⟩

/-- The exported extractor reports a denied connection as allowed. -/
theorem denied_line_exported_as_allowed :
    keyValueCrate.new keyValue.regexPattern = some keyValueRegex ∧
      ¬∃ f, keyValueRustc (keyValue.generateRustCode asciiTables) = some f ∧
        Agree (f deniedLine) (keyValue.parse keyValueCrate sha2 ⟨"", 0, 0⟩ deniedLine) := by
  refine ⟨keyValueCrate_new, ?_⟩
  rintro ⟨f, hf, hagree⟩
  rw [keyValueRustc, if_pos rfl] at hf
  cases hf
  rw [agree_generatedExtractor_iff keyValueCrate_new, keyValue_literal, keyValueCrate_new,
    Option.bind_some, captures_deniedLine] at hagree
  exact absurd hagree.allowed (by decide)

end ParserDefinition

end Ulpf.Ai
