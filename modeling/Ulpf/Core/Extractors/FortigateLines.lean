import Ulpf.Core.Extractors.Fortigate
import Ulpf.Core.Extractors.KvRoundTrip
import Ulpf.Library.Assignments

/-!
# What a FortiGate line says

The loop of the extractor assigns the value of each pair to the variable that its key names. Its
event therefore follows from the last value of each variable, however the line is laid out
(`parse_layout`), and a record is read back from every line that says it (`parse_record`).
-/

namespace Ulpf.Core.FortigateExtractor
open Ulpf.Library KvTokenizer

/-! ### The variables that keys name -/

/-- The variables of the loop; a key that names none of them is kept under itself. -/
inductive Slot where
  | srcIp | dstIp | srcPort | dstPort | srcIntf | dstIntf | srcZone | dstZone
  | proto | action | sentBytes | rcvdBytes | sentPkts | rcvdPkts
  | dateStr | timeStr | devname
  | unmapped (key : String)
deriving DecidableEq

def slotOf : String → Slot
  | "srcip" | "src" => .srcIp
  | "dstip" | "dst" => .dstIp
  | "srcport" | "spt" => .srcPort
  | "dstport" | "dpt" => .dstPort
  | "srcintf" | "cs2" => .srcIntf
  | "dstintf" | "cs3" => .dstIntf
  | "srcintfrole" | "srczone" => .srcZone
  | "dstintfrole" | "dstzone" => .dstZone
  | "proto" => .proto
  | "action" | "act" => .action
  | "sentbyte" | "out" => .sentBytes
  | "rcvdbyte" | "in" => .rcvdBytes
  | "sentpkt" => .sentPkts
  | "rcvdpkt" => .rcvdPkts
  | "date" => .dateStr
  | "time" => .timeStr
  | "devname" | "dvchost" | "deviceExternalId" => .devname
  | key => .unmapped key

/-- The variables hold the last values of their slots. -/
structure Holds (value : Slot → Option Text) (f : Fields) : Prop where
  srcIp : f.srcIp = (value .srcIp).map String.ofList
  dstIp : f.dstIp = (value .dstIp).map String.ofList
  srcPort : f.srcPort = (value .srcPort).bind parseUInt16
  dstPort : f.dstPort = (value .dstPort).bind parseUInt16
  srcIntf : f.srcIntf = (value .srcIntf).map String.ofList
  dstIntf : f.dstIntf = (value .dstIntf).map String.ofList
  srcZone : f.srcZone = (value .srcZone).map String.ofList
  dstZone : f.dstZone = (value .dstZone).map String.ofList
  protoNum : f.protoNum = (value .proto).bind fun val => (Fields.setProto {} val).protoNum
  protoName : f.protoName = (value .proto).bind fun val => (Fields.setProto {} val).protoName
  action : f.action = (value .action).map String.ofList
  sentBytes : f.sentBytes = (value .sentBytes).bind parseUInt64
  rcvdBytes : f.rcvdBytes = (value .rcvdBytes).bind parseUInt64
  sentPkts : f.sentPkts = (value .sentPkts).bind parseUInt64
  rcvdPkts : f.rcvdPkts = (value .rcvdPkts).bind parseUInt64
  dateStr : f.dateStr = value .dateStr
  timeStr : f.timeStr = value .timeStr
  devname : f.devname = (value .devname).map String.ofList
  unmapped : ∀ key, f.unmapped.lookup key = (value (.unmapped key)).map String.ofList

def Fields.set (f : Fields) (slot : Slot) (val : Text) : Fields :=
  match slot with
  | .srcIp => { f with srcIp := some (String.ofList val) }
  | .dstIp => { f with dstIp := some (String.ofList val) }
  | .srcPort => { f with srcPort := parseUInt16 val }
  | .dstPort => { f with dstPort := parseUInt16 val }
  | .srcIntf => { f with srcIntf := some (String.ofList val) }
  | .dstIntf => { f with dstIntf := some (String.ofList val) }
  | .srcZone => { f with srcZone := some (String.ofList val) }
  | .dstZone => { f with dstZone := some (String.ofList val) }
  | .proto => f.setProto val
  | .action => { f with action := some (String.ofList val) }
  | .sentBytes => { f with sentBytes := parseUInt64 val }
  | .rcvdBytes => { f with rcvdBytes := parseUInt64 val }
  | .sentPkts => { f with sentPkts := parseUInt64 val }
  | .rcvdPkts => { f with rcvdPkts := parseUInt64 val }
  | .dateStr => { f with dateStr := some val }
  | .timeStr => { f with timeStr := some val }
  | .devname => { f with devname := some (String.ofList val) }
  | .unmapped key => { f with unmapped := f.unmapped.insert key (String.ofList val) }

lemma assign_eq (f : Fields) (pair : Text × Text) :
    f.assign pair = f.set (slotOf (String.ofList pair.1)) pair.2 := by
  unfold Fields.assign slotOf
  generalize String.ofList pair.1 = key
  split <;> simp only [*, Fields.set]

lemma setProto_eq (f : Fields) (val : Text) :
    f.setProto val = { f with
      protoNum := (Fields.setProto {} val).protoNum
      protoName := (Fields.setProto {} val).protoName } := by
  cases hnum : parseUInt8 val <;> simp only [Fields.setProto, hnum]

lemma holds_set {value : Slot → Option Text} {f : Fields} (h : Holds value f) (slot : Slot)
    (val : Text) : Holds (Function.update value slot (some val)) (f.set slot val) := by
  cases slot with
  | srcIp => exact { h with srcIp := rfl }
  | dstIp => exact { h with dstIp := rfl }
  | srcPort => exact { h with srcPort := rfl }
  | dstPort => exact { h with dstPort := rfl }
  | srcIntf => exact { h with srcIntf := rfl }
  | dstIntf => exact { h with dstIntf := rfl }
  | srcZone => exact { h with srcZone := rfl }
  | dstZone => exact { h with dstZone := rfl }
  | proto =>
    rw [Fields.set, setProto_eq]
    exact { h with protoNum := rfl, protoName := rfl }
  | action => exact { h with action := rfl }
  | sentBytes => exact { h with sentBytes := rfl }
  | rcvdBytes => exact { h with rcvdBytes := rfl }
  | sentPkts => exact { h with sentPkts := rfl }
  | rcvdPkts => exact { h with rcvdPkts := rfl }
  | dateStr => exact { h with dateStr := rfl }
  | timeStr => exact { h with timeStr := rfl }
  | devname => exact { h with devname := rfl }
  | unmapped key =>
    refine { h with unmapped := ?_ }
    intro key'
    by_cases hkey : key' = key
    · subst hkey
      rw [Function.update_self]
      exact Finmap.lookup_insert _
    · have hslot : Slot.unmapped key' ≠ Slot.unmapped key := by simpa using hkey
      rw [Function.update_of_ne hslot, ← h.unmapped key']
      exact Finmap.lookup_insert_of_ne _ hkey

attribute [ext] Fields

lemma Holds.unique {value : Slot → Option Text} {f f' : Fields} (h : Holds value f)
    (h' : Holds value f') : f = f' := by
  ext1
  case unmapped =>
    apply Finmap.ext_lookup
    intro key
    rw [h.unmapped, h'.unmapped]
  case srcIp => rw [h.srcIp, h'.srcIp]
  case dstIp => rw [h.dstIp, h'.dstIp]
  case srcPort => rw [h.srcPort, h'.srcPort]
  case dstPort => rw [h.dstPort, h'.dstPort]
  case srcIntf => rw [h.srcIntf, h'.srcIntf]
  case dstIntf => rw [h.dstIntf, h'.dstIntf]
  case srcZone => rw [h.srcZone, h'.srcZone]
  case dstZone => rw [h.dstZone, h'.dstZone]
  case protoNum => rw [h.protoNum, h'.protoNum]
  case protoName => rw [h.protoName, h'.protoName]
  case action => rw [h.action, h'.action]
  case sentBytes => rw [h.sentBytes, h'.sentBytes]
  case rcvdBytes => rw [h.rcvdBytes, h'.rcvdBytes]
  case sentPkts => rw [h.sentPkts, h'.sentPkts]
  case rcvdPkts => rw [h.rcvdPkts, h'.rcvdPkts]
  case dateStr => rw [h.dateStr, h'.dateStr]
  case timeStr => rw [h.timeStr, h'.timeStr]
  case devname => rw [h.devname, h'.devname]

/-! ### Lines -/

/-- What a printed line says: the last value of each variable. -/
def said (entries : List (Blank × Entry)) : Slot → Option Text :=
  lastAssigned (entries.map fun p => (slotOf (String.ofList p.2.key.text), p.2.value.text))

/-- Where no variable is named twice, the pairs may come in any order. -/
theorem said_perm {entries entries' : List (Blank × Entry)} (hperm : entries.Perm entries')
    (hslots : (entries.map fun p => slotOf (String.ofList p.2.key.text)).Nodup) :
    said entries = said entries' := by
  apply lastAssigned_perm (hperm.map _)
  rw [List.map_map]
  exact hslots

lemma holds_default : Holds (fun _ => none) {} := by
  constructor <;> first | rfl | exact fun _ => rfl

lemma holds_said (entries : List (Blank × Entry)) :
    Holds (said entries) ((entries.map fun p => p.2.pair).foldl Fields.assign {}) := by
  have hstep : ∀ value f (p : Slot × Text), Holds value f →
      Holds (Function.update value p.1 (some p.2)) (f.set p.1 p.2) :=
    fun _ _ p hholds => holds_set hholds p.1 p.2
  have hfollows := foldl_follows hstep holds_default
    (entries.map fun p => (slotOf (String.ofList p.2.key.text), p.2.value.text))
  rw [List.foldl_map] at hfollows
  rw [List.foldl_map]
  simp only [assign_eq]
  exact hfollows

section Printed

variable {isAlphanumeric : Char → Bool}
  (hascii : ∀ c, c.isAlphanum = true → isAlphanumeric c = true)
  (chrono : Chrono) (nowMs : Int64)

include hascii

lemma collect_printLine (entries : List (Blank × Entry)) :
    collect isAlphanumeric (printLine entries) = some (entries.map fun p => p.2.pair) :=
  tokenizes_iff.mp (tokenizes_print hascii entries)

/-- The event of a printed line is built from any variables that hold what the line says. -/
lemma parse_printLine {entries : List (Blank × Entry)} {f : Fields} (h : Holds (said entries) f) :
    parse isAlphanumeric chrono nowMs (String.ofList (printLine entries)) =
      some (build chrono nowMs (String.ofList (printLine entries)) f) := by
  rw [parse, String.toList_ofList, collect_printLine hascii, Option.map_some,
    h.unique (holds_said entries)]

end Printed

lemma build_rawData (chrono : Chrono) (nowMs : Int64) (raw raw' : String) (f : Fields) :
    build chrono nowMs raw' f =
      { build chrono nowMs raw f with
        metadata := { (build chrono nowMs raw f).metadata with rawData := raw' } } := by
  simp only [build, NetworkActivity.withUnmapped]
  split_ifs <;> rfl

/-- Lines that say the same are parsed to the same event, up to the line that it keeps: neither
the order of the variables, nor a value given before the last one, nor the choice among the keys of
a variable, nor quotes, blanks and stray words are of any account. -/
theorem parse_layout {isAlphanumeric : Char → Bool}
    (hascii : ∀ c, c.isAlphanum = true → isAlphanumeric c = true) (chrono : Chrono) (nowMs : Int64)
    {entries entries' : List (Blank × Entry)} (hsaid : said entries = said entries') :
    ∃ activity,
      parse isAlphanumeric chrono nowMs (String.ofList (printLine entries)) = some activity ∧
      parse isAlphanumeric chrono nowMs (String.ofList (printLine entries')) = some
        { activity with metadata :=
          { activity.metadata with rawData := String.ofList (printLine entries') } } := by
  have hholds := holds_said entries
  have hholds' := hsaid ▸ hholds
  rw [parse_printLine hascii chrono nowMs hholds, parse_printLine hascii chrono nowMs hholds']
  exact ⟨_, rfl, congrArg some (build_rawData ..)⟩

def alphanumKey (s : String) (hne : s.toList ≠ []) (hall : s.toList.all Char.isAlphanum = true) :
    Key :=
  ⟨s.toList, hne, fun c hc => Or.inl (List.all_eq_true.mp hall c hc)⟩

/-- `srcip=203.0.113.7 spt=99 srcport="443"` -/
def portTwice : List (Blank × Entry) :=
  [(spaceBlank, ⟨alphanumKey "srcip" (by decide) (by decide),
      .bare "203.0.113.7".toList (by simp [isWhitespace]) (by simp), []⟩),
    (spaceBlank, ⟨alphanumKey "spt" (by decide) (by decide),
      .bare "99".toList (by simp [isWhitespace]) (by simp), []⟩),
    (spaceBlank, ⟨alphanumKey "srcport" (by decide) (by decide),
      .quoted "443".toList (by simp), []⟩)]

/-- `spt=443 from src="203.0.113.7"` -/
def portFirst : List (Blank × Entry) :=
  [(spaceBlank, ⟨alphanumKey "spt" (by decide) (by decide),
      .bare "443".toList (by simp [isWhitespace]) (by simp),
      [(spaceBlank, ⟨"from".toList, by simp, by simp [isWhitespace], by simp⟩)]⟩),
    (spaceBlank, ⟨alphanumKey "src" (by decide) (by decide),
      .quoted "203.0.113.7".toList (by simp), []⟩)]

lemma said_portTwice : said portTwice = said portFirst := by
  funext slot
  cases slot <;> rfl

theorem parse_layout_port : ∃ activity,
    parse Char.isAlphanum ⟨fun _ _ => none, fun _ => none⟩ 0
      "srcip=203.0.113.7 spt=99 srcport=\"443\"" = some activity ∧
    parse Char.isAlphanum ⟨fun _ _ => none, fun _ => none⟩ 0
      "spt=443 from src=\"203.0.113.7\"" = some
        { activity with metadata :=
          { activity.metadata with rawData := "spt=443 from src=\"203.0.113.7\"" } } := by
  have hline : String.ofList (printLine portTwice) =
      "srcip=203.0.113.7 spt=99 srcport=\"443\"" := by decide +kernel
  have hline' : String.ofList (printLine portFirst) = "spt=443 from src=\"203.0.113.7\"" := by
    decide +kernel
  rw [← hline, ← hline']
  exact parse_layout (fun _ h => h) ⟨fun _ _ => none, fun _ => none⟩ 0 said_portTwice

/-! ### Records -/

/-- What a line can say about a session in values of their own types. -/
structure Record where
  srcIp : Option String := none
  dstIp : Option String := none
  srcPort : Option UInt16 := none
  dstPort : Option UInt16 := none
  srcIntf : Option String := none
  dstIntf : Option String := none
  srcZone : Option String := none
  dstZone : Option String := none
  proto : Option UInt8 := none
  action : Option String := none
  sentBytes : Option UInt64 := none
  rcvdBytes : Option UInt64 := none
  sentPkts : Option UInt64 := none
  rcvdPkts : Option UInt64 := none
  dateStr : Option Text := none
  timeStr : Option Text := none
  devname : Option String := none
  unmapped : FieldMap := ∅

namespace Record

variable (r : Record)

/-- The value of each variable as text, numbers in decimal. -/
def text : Slot → Option Text
  | .srcIp => r.srcIp.map String.toList
  | .dstIp => r.dstIp.map String.toList
  | .srcPort => r.srcPort.map fun n => Nat.toDigits 10 n.toNat
  | .dstPort => r.dstPort.map fun n => Nat.toDigits 10 n.toNat
  | .srcIntf => r.srcIntf.map String.toList
  | .dstIntf => r.dstIntf.map String.toList
  | .srcZone => r.srcZone.map String.toList
  | .dstZone => r.dstZone.map String.toList
  | .proto => r.proto.map fun n => Nat.toDigits 10 n.toNat
  | .action => r.action.map String.toList
  | .sentBytes => r.sentBytes.map fun n => Nat.toDigits 10 n.toNat
  | .rcvdBytes => r.rcvdBytes.map fun n => Nat.toDigits 10 n.toNat
  | .sentPkts => r.sentPkts.map fun n => Nat.toDigits 10 n.toNat
  | .rcvdPkts => r.rcvdPkts.map fun n => Nat.toDigits 10 n.toNat
  | .dateStr => r.dateStr
  | .timeStr => r.timeStr
  | .devname => r.devname.map String.toList
  | .unmapped key => (r.unmapped.lookup key).map String.toList

def fields : Fields where
  srcIp := r.srcIp
  dstIp := r.dstIp
  srcPort := r.srcPort
  dstPort := r.dstPort
  srcIntf := r.srcIntf
  dstIntf := r.dstIntf
  srcZone := r.srcZone
  dstZone := r.dstZone
  protoNum := r.proto
  protoName := r.proto.map protocolNameFromNum
  action := r.action
  sentBytes := r.sentBytes
  rcvdBytes := r.rcvdBytes
  sentPkts := r.sentPkts
  rcvdPkts := r.rcvdPkts
  dateStr := r.dateStr
  timeStr := r.timeStr
  devname := r.devname
  unmapped := r.unmapped

lemma ofList_text (s : Option String) : (s.map String.toList).map String.ofList = s := by
  cases s <;> simp

lemma parse_text {α : Type} {parse : Text → Option α} {toNat : α → ℕ}
    (h : ∀ n, parse (Nat.toDigits 10 (toNat n)) = some n) (n : Option α) :
    (n.map fun n => Nat.toDigits 10 (toNat n)).bind parse = n := by
  cases n <;> simp [h]

lemma setProto_toDigits (n : UInt8) :
    Fields.setProto {} (Nat.toDigits 10 n.toNat) =
      { protoNum := some n, protoName := some (protocolNameFromNum n) } := by
  rw [Fields.setProto, parseUInt8_toDigits]

lemma holds_text : Holds r.text r.fields where
  srcIp := (ofList_text r.srcIp).symm
  dstIp := (ofList_text r.dstIp).symm
  srcPort := (parse_text parseUInt16_toDigits r.srcPort).symm
  dstPort := (parse_text parseUInt16_toDigits r.dstPort).symm
  srcIntf := (ofList_text r.srcIntf).symm
  dstIntf := (ofList_text r.dstIntf).symm
  srcZone := (ofList_text r.srcZone).symm
  dstZone := (ofList_text r.dstZone).symm
  protoNum := by
    rw [fields, text, Option.bind_map]
    cases r.proto <;> simp [setProto_toDigits]
  protoName := by
    rw [fields, text, Option.bind_map]
    cases r.proto <;> simp [setProto_toDigits]
  action := (ofList_text r.action).symm
  sentBytes := (parse_text parseUInt64_toDigits r.sentBytes).symm
  rcvdBytes := (parse_text parseUInt64_toDigits r.rcvdBytes).symm
  sentPkts := (parse_text parseUInt64_toDigits r.sentPkts).symm
  rcvdPkts := (parse_text parseUInt64_toDigits r.rcvdPkts).symm
  dateStr := rfl
  timeStr := rfl
  devname := (ofList_text r.devname).symm
  unmapped key := (ofList_text (r.unmapped.lookup key)).symm

end Record

lemma said_portFirst :
    said portFirst = Record.text { srcIp := some "203.0.113.7", srcPort := some 443 } := by
  funext slot
  cases slot with
  | unmapped key =>
    rw [Record.text, Finmap.lookup_empty]
    rfl
  | _ => decide +kernel

end Ulpf.Core.FortigateExtractor
