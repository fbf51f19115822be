import Ulpf.Core.NetworkEvents
import Ulpf.Library.Binary64

/-!
# Parser definitions

A parser that was synthesized from sample lines: an expression with named groups, and what the
verbs of its `action` group mean. The `regex` crate is a parameter; an expression that it accepts
answers a line with its first match, if there is one.
-/

namespace Ulpf.Ai
open Ulpf.Core
open Ulpf.Integrity (Bytes Hash asBytes)
open Ulpf.Library.Binary64

/-- The first match of an expression: its offset, and its named groups that take part in it. -/
structure Match where
  start : ℕ
  name : String → Option String

structure CompiledRegex where
  /-- The names of all groups that have one. -/
  captureNames : List String
  captures : String → Option Match

namespace CompiledRegex

def isMatch (re : CompiledRegex) (haystack : String) : Bool := (re.captures haystack).isSome

/-- `re.find(haystack).map(|m| m.start())` -/
def find (re : CompiledRegex) (haystack : String) : Option ℕ := (re.captures haystack).map (·.start)

end CompiledRegex

structure RegexCrate where
  new : String → Option CompiledRegex
  escape : String → String

/-- Dynamically generated and exportable parser definition; the entries of the map are in the
order in which it is iterated. -/
structure ParserDefinition where
  vendor : String
  deviceModel : String
  regexPattern : String
  actionMappings : AList fun _ : String => String
  sampleLogs : List String
  confidenceScore : Double
  createdAt : Int64

/-! ### The fields of a match -/

namespace Match

variable (caps : Match)

/-- `caps.name(group).and_then(|m| m.as_str().parse::<u16>().ok())` -/
def port (group : String) : Option UInt16 := (caps.name group).bind (parseUInt16 ·.toList)

def srcEndpoint : Endpoint :=
  ⟨caps.name "src_ip", caps.port "src_port", caps.name "interface", caps.name "src_zone"⟩

def dstEndpoint : Endpoint :=
  ⟨caps.name "dst_ip", caps.port "dst_port", none, caps.name "dst_zone"⟩

/-- Number and name of the protocol that a group spells. -/
def protocolOf (group : String) : Option UInt8 × Option String :=
  let pStr := trim group.toList
  match parseUInt8 pStr with
  | some num => (some num, some (protocolNameFromNum num))
  | none =>
    let upper := toAsciiUppercase (String.ofList pStr)
    (protocolNumFromName upper, some upper)

def connectionInfo : ConnectionInfo :=
  match caps.name "protocol" with
  | some group => ⟨(protocolOf group).1, (protocolOf group).2, none⟩
  | none => ⟨none, none, none⟩

def rawAction : String :=
  (((caps.name "action").or (caps.name "action_verb")).map toAsciiLowercase).getD "unknown"

end Match

def defaultDisposition (rawAction : String) : String :=
  match rawAction with
  | "accept" | "permit" | "allow" | "created" | "passed" | "pass" => dispositionAllowed
  | "deny" | "block" | "reject" | "denied" | "blocked" => dispositionBlocked
  | "drop" | "dropped" => dispositionDropped
  | "closed" | "close" | "teardown" => dispositionAllowed
  | _ => dispositionUnknown

def deriveActivityId (rawAction normDisp : String) : UInt8 :=
  match rawAction with
  | "created" | "start" | "open" => activityIdOpen
  | "closed" | "close" | "teardown" => activityIdClose
  | _ => if normDisp = dispositionAllowed then activityIdTrafficFlow else activityIdOther

/-- The groups that have a field of their own in the event. -/
def mappedGroups : List String :=
  ["src_ip", "src_port", "dst_ip", "dst_port", "protocol", "action", "action_verb", "interface",
    "src_zone", "dst_zone"]

def collectUnmapped (captureNames : List String) (caps : Match) : FieldMap :=
  captureNames.foldl (fun unmapped name =>
    if name ∈ mappedGroups then unmapped else unmapped.insertSome name (caps.name name)) ∅

namespace ParserDefinition

variable (regex : RegexCrate) (sha256 : Bytes → Hash) (r : Readings) (d : ParserDefinition)

def normDisp (rawAction : String) : String :=
  (d.actionMappings.lookup rawAction).getD (defaultDisposition rawAction)

/-- The event of a line that matches. -/
def activity (compiledRe : CompiledRegex) (caps : Match) (raw : String) : NetworkActivity :=
  let normDisp := d.normDisp caps.rawAction
  let product := ⟨d.vendor, d.deviceModel, none⟩
  let metadata := ⟨product, raw, (sha256 (asBytes raw)).toHex, r.eventId, r.nowMs⟩
  (NetworkActivity.new (deriveActivityId caps.rawAction normDisp) r.nowMs normDisp
    caps.srcEndpoint caps.dstEndpoint caps.connectionInfo none metadata).withUnmapped
    (collectUnmapped compiledRe.captureNames caps)

/-- Compile the expression and parse a raw line into a normalized event. -/
def parse (raw : String) : Except String NetworkActivity :=
  match regex.new d.regexPattern with
  | none => .error ("Invalid compiled regex in parser definition: " ++ d.regexPattern)
  | some compiledRe =>
    match compiledRe.captures raw with
    | none =>
      .error ("Log did not match dynamic parser pattern for vendor \x27" ++ d.vendor ++ "\x27: " ++
        raw)
    | some caps => .ok (d.activity sha256 r compiledRe caps raw)

end ParserDefinition

/-! ### Events of synthesized parsers -/

lemma deriveActivityId_mem (rawAction normDisp : String) :
    deriveActivityId rawAction normDisp ∈ definedActivityIds := by
  unfold deriveActivityId
  split
  · decide
  · decide
  · decide
  · decide
  · decide
  · decide
  · split_ifs <;> decide

namespace ParserDefinition

variable {regex : RegexCrate} {sha256 : Bytes → Hash} {r : Readings} {d : ParserDefinition}

lemma parse_eq_ok_iff {raw : String} {event : NetworkActivity} :
    d.parse regex sha256 r raw = .ok event ↔
      ∃ re caps, regex.new d.regexPattern = some re ∧ re.captures raw = some caps ∧
        event = d.activity sha256 r re caps raw := by
  unfold parse
  constructor
  · intro h
    split at h
    · cases h
    · rename_i re hre
      split at h
      · cases h
      · rename_i caps hcaps
        exact ⟨re, caps, hre, hcaps, (Except.ok.inj h).symm⟩
  · rintro ⟨re, caps, hre, hcaps, rfl⟩
    rw [hre]
    dsimp only
    rw [hcaps]

/-- Events of synthesized parsers carry their line, its digest and consistent identifiers, like
those of the built-in extractors. -/
theorem wellClassed_parse {raw : String} {event : NetworkActivity}
    (h : d.parse regex sha256 r raw = .ok event) :
    event.WellClassed ∧ event.metadata.rawData = raw ∧
      event.metadata.rawHash = (sha256 (asBytes raw)).toHex := by
  obtain ⟨re, caps, -, -, rfl⟩ := parse_eq_ok_iff.mp h
  have hmeta : (d.activity sha256 r re caps raw).metadata =
      ⟨⟨d.vendor, d.deviceModel, none⟩, raw, (sha256 (asBytes raw)).toHex, r.eventId, r.nowMs⟩ :=
    metadata_withUnmapped _ _
  refine ⟨?_, ?_, ?_⟩
  · exact (NetworkActivity.wellClassed_new (deriveActivityId_mem _ _)).withUnmapped _
  · rw [hmeta]
  · rw [hmeta]

end ParserDefinition

end Ulpf.Ai
