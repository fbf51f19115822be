import Mathlib.Data.List.TakeWhile
import Ulpf.Core.Extractors.Common

/-!
# The FortiGate extractor

`KvTokenizer` walks the line from one `=` to the next; the text before each `=` is cut after its
last separator by a byte offset, which panics when that separator is longer than one byte.
`isAlphanumeric` is the Unicode property `char::is_alphanumeric`.
-/

namespace Ulpf.Core

namespace KvTokenizer

/-- The text between an opening quote and the quote that closes it, and what follows. Only
ASCII bytes are compared, so a backslash may as well escape a whole character. -/
def quoted (escaped : Bool) : Text → Option (Text × Text)
  | [] => none
  | c :: s =>
    if !escaped && c == '"' then some ([], s)
    else (quoted (!escaped && c == '\\') s).map fun (val, rest) => (c :: val, rest)

/-- The value after an `=` sign, and what follows it. -/
def value (afterEq : Text) : Text × Text :=
  match afterEq with
  | '"' :: inner => (quoted false inner).getD (inner, [])
  | _ => (afterEq.takeWhile (!isWhitespace ·), afterEq.dropWhile (!isWhitespace ·))

/-- The text before the next `=`, the value after it, and the rest of the line. -/
def splitPair (s : Text) : Option ((Text × Text) × Text) :=
  let s := trimStart s
  match s.dropWhile (· != '=') with
  | [] => none
  | _ :: afterEq => some ((s.takeWhile (· != '='), (value afterEq).1), (value afterEq).2)

/-- The pairs of the line before their keys are cut out; every pair takes an `=`, so the
length of the line is enough `fuel`. -/
def rawPairsFrom : ℕ → Text → List (Text × Text)
  | 0, _ => []
  | fuel + 1, s =>
    match splitPair s with
    | none => []
    | some (pair, rest) => pair :: rawPairsFrom fuel rest

def rawPairs (s : Text) : List (Text × Text) := rawPairsFrom s.length s

def isKeySeparator (c : Char) : Bool := isWhitespace c || c == '|'

/-- The last separator before an `=` sign. -/
def lastSeparator (rawKey : Text) : Option Char := rawKey.reverse.find? isKeySeparator

/-- The word immediately preceding the `=`: `&raw_key[space_pos + 1..]`. -/
def keyOf (isAlphanumeric : Char → Bool) (rawKey : Text) : Option Text :=
  if (lastSeparator rawKey).all (·.utf8Size = 1) then
    let word := (rawKey.reverse.takeWhile (!isKeySeparator ·)).reverse
    some (word.dropWhile fun c => !isAlphanumeric c && c != '_')
  else none

/-- All pairs of a line. -/
def collect (isAlphanumeric : Char → Bool) (input : Text) : Option (List (Text × Text)) :=
  (rawPairs (trim input)).mapM fun (rawKey, val) =>
    (keyOf isAlphanumeric rawKey).map fun key => (key, val)

/-! ### The walk over the line -/

lemma length_quoted {escaped : Bool} {s val rest : Text}
    (h : quoted escaped s = some (val, rest)) : rest.length < s.length := by
  induction s generalizing escaped val with
  | nil => cases h
  | cons c s ih =>
    simp only [quoted] at h
    split_ifs at h
    · cases h
      exact Nat.lt_succ_self _
    · obtain ⟨⟨tail, rest'⟩, htail, heq⟩ := Option.map_eq_some_iff.mp h
      cases heq
      exact Nat.lt_succ_of_lt (ih htail)

lemma length_value_le (afterEq : Text) : (value afterEq).2.length ≤ afterEq.length := by
  unfold value
  split
  · rename_i inner
    rcases hquoted : quoted false inner with - | ⟨val, rest⟩
    · exact Nat.zero_le _
    · have hlt := length_quoted hquoted
      simp only [Option.getD_some, List.length_cons]
      omega
  · exact List.length_dropWhile_le _ _

lemma length_splitPair {s rest : Text} {pair : Text × Text}
    (h : splitPair s = some (pair, rest)) : rest.length < s.length := by
  unfold splitPair at h
  dsimp only at h
  split at h
  · cases h
  · rename_i afterEq heq
    cases h
    have hvalue := length_value_le afterEq
    have hfind := List.length_dropWhile_le (· != '=') (trimStart s)
    have htrim : (trimStart s).length ≤ s.length := List.length_dropWhile_le isWhitespace s
    rw [heq, List.length_cons] at hfind
    omega

lemma rawPairsFrom_eq {fuel fuel' : ℕ} {s : Text} (h : s.length ≤ fuel) (h' : s.length ≤ fuel') :
    rawPairsFrom fuel s = rawPairsFrom fuel' s := by
  induction fuel generalizing fuel' s with
  | zero =>
    rw [List.length_eq_zero_iff.mp (Nat.le_zero.mp h)]
    cases fuel' <;> rfl
  | succ fuel ih =>
    cases fuel' with
    | zero =>
      rw [List.length_eq_zero_iff.mp (Nat.le_zero.mp h')]
      rfl
    | succ fuel' =>
      simp only [rawPairsFrom]
      rcases hpair : splitPair s with - | ⟨pair, rest⟩
      · rfl
      · have hlt := length_splitPair hpair
        have hrest : rawPairsFrom fuel rest = rawPairsFrom fuel' rest :=
          ih (by omega) (by omega)
        dsimp only
        rw [hrest]

lemma rawPairs_eq (s : Text) :
    rawPairs s = match splitPair s with
      | none => []
      | some (pair, rest) => pair :: rawPairs rest := by
  unfold rawPairs
  rw [rawPairsFrom_eq le_rfl (Nat.le_succ _), rawPairsFrom]
  rcases hpair : splitPair s with - | ⟨pair, rest⟩
  · rfl
  · have hlt := length_splitPair hpair
    dsimp only
    rw [rawPairsFrom_eq hlt.le le_rfl]

/-! ### Slices -/

/-- Every key of the line follows a separator of one byte, or none. -/
def KeysSliceable (raw : String) : Prop :=
  ∀ pair ∈ rawPairs (trim raw.toList), ∀ c, lastSeparator pair.1 = some c → c.utf8Size = 1

lemma isSome_keyOf_iff {isAlphanumeric : Char → Bool} {rawKey : Text} :
    (keyOf isAlphanumeric rawKey).isSome ↔
      ∀ c, lastSeparator rawKey = some c → c.utf8Size = 1 := by
  unfold keyOf
  cases lastSeparator rawKey with
  | none => simp
  | some c =>
    by_cases hsize : c.utf8Size = 1 <;> simp [hsize]

lemma isSome_mapM_iff {α β : Type} {f : α → Option β} {l : List α} :
    (l.mapM f).isSome ↔ ∀ a ∈ l, (f a).isSome := by
  induction l with
  | nil => simp
  | cons a l ih =>
    rw [List.forall_mem_cons, ← ih, List.mapM_cons]
    cases f a <;> cases l.mapM f <;> simp

/-- The tokenizer panics exactly where a key follows a separator of several bytes. -/
lemma isSome_collect_iff {isAlphanumeric : Char → Bool} {raw : String} :
    (collect isAlphanumeric raw.toList).isSome ↔ KeysSliceable raw := by
  unfold collect KeysSliceable
  rw [isSome_mapM_iff]
  simp only [Option.isSome_map, isSome_keyOf_iff]

example : collect (fun _ => true) "type=utm forward\u3000level=1".toList = none := by decide

end KvTokenizer

namespace FortigateExtractor

/-- The variables the loop over the pairs assigns. -/
structure Fields where
  srcIp : Option String := none
  dstIp : Option String := none
  srcPort : Option UInt16 := none
  dstPort : Option UInt16 := none
  srcIntf : Option String := none
  dstIntf : Option String := none
  srcZone : Option String := none
  dstZone : Option String := none
  protoNum : Option UInt8 := none
  protoName : Option String := none
  action : Option String := none
  sentBytes : Option UInt64 := none
  rcvdBytes : Option UInt64 := none
  sentPkts : Option UInt64 := none
  rcvdPkts : Option UInt64 := none
  dateStr : Option Text := none
  timeStr : Option Text := none
  devname : Option String := none
  unmapped : FieldMap := ∅

def Fields.setProto (f : Fields) (val : Text) : Fields :=
  match parseUInt8 val with
  | some num => { f with protoNum := some num, protoName := some (protocolNameFromNum num) }
  | none =>
    let name := toAsciiUppercase (String.ofList val)
    { f with protoNum := protocolNumFromName name, protoName := some name }

def Fields.assign (f : Fields) (pair : Text × Text) : Fields :=
  let val := pair.2
  match String.ofList pair.1 with
  | "srcip" | "src" => { f with srcIp := some (String.ofList val) }
  | "dstip" | "dst" => { f with dstIp := some (String.ofList val) }
  | "srcport" | "spt" => { f with srcPort := parseUInt16 val }
  | "dstport" | "dpt" => { f with dstPort := parseUInt16 val }
  | "srcintf" | "cs2" => { f with srcIntf := some (String.ofList val) }
  | "dstintf" | "cs3" => { f with dstIntf := some (String.ofList val) }
  | "srcintfrole" | "srczone" => { f with srcZone := some (String.ofList val) }
  | "dstintfrole" | "dstzone" => { f with dstZone := some (String.ofList val) }
  | "proto" => f.setProto val
  | "action" | "act" => { f with action := some (String.ofList val) }
  | "sentbyte" | "out" => { f with sentBytes := parseUInt64 val }
  | "rcvdbyte" | "in" => { f with rcvdBytes := parseUInt64 val }
  | "sentpkt" => { f with sentPkts := parseUInt64 val }
  | "rcvdpkt" => { f with rcvdPkts := parseUInt64 val }
  | "date" => { f with dateStr := some val }
  | "time" => { f with timeStr := some val }
  | "devname" | "dvchost" | "deviceExternalId" => { f with devname := some (String.ofList val) }
  | key => { f with unmapped := f.unmapped.insert key (String.ofList val) }

def dispositionAndActivity (action : Option String) : String × UInt8 :=
  match action.map toAsciiLowercase with
  | some "accept" | some "allow" | some "permitted" =>
    (dispositionAllowed, activityIdTrafficFlow)
  | some "deny" | some "block" | some "blocked" => (dispositionBlocked, activityIdOther)
  | some "drop" | some "dropped" => (dispositionDropped, activityIdOther)
  | some "close" | some "client-rst" | some "server-rst" | some "timeout" =>
    (dispositionAllowed, activityIdClose)
  | some "open" | some "start" => (dispositionAllowed, activityIdOpen)
  | _ => (dispositionUnknown, activityIdTrafficFlow)

def traffic (f : Fields) : Option Traffic :=
  if f.sentBytes.isSome || f.rcvdBytes.isSome || f.sentPkts.isSome || f.rcvdPkts.isSome then
    some ⟨f.rcvdBytes, f.sentBytes, f.rcvdPkts, f.sentPkts⟩
  else none

def eventTime (chrono : Chrono) (nowMs : Int64) (f : Fields) : Int64 :=
  match f.dateStr, f.timeStr with
  | some d, some t => chrono.parseDateTimeOrFallback d t nowMs
  | _, _ => nowMs

/-- The event of a line whose pairs are read. -/
def build (chrono : Chrono) (nowMs : Int64) (raw : String) (f : Fields) : NetworkActivity :=
  let (disp, actId) := dispositionAndActivity f.action
  let product := ⟨"Fortinet", f.devname.getD "FortiGate", none⟩
  (NetworkActivity.new actId (eventTime chrono nowMs f) disp
    ⟨f.srcIp, f.srcPort, f.srcIntf, f.srcZone⟩ ⟨f.dstIp, f.dstPort, f.dstIntf, f.dstZone⟩
    ⟨f.protoNum, f.protoName, none⟩ (traffic f) ⟨product, raw, "", "", nowMs⟩).withUnmapped
      f.unmapped

/-- There is no event where the tokenizer panics; the extractor never fails otherwise. -/
def parse (isAlphanumeric : Char → Bool) (chrono : Chrono) (nowMs : Int64) (raw : String) :
    Option NetworkActivity :=
  (KvTokenizer.collect isAlphanumeric raw.toList).map fun pairs =>
    build chrono nowMs raw (pairs.foldl Fields.assign {})

lemma dispositionAndActivity_defined (action : Option String) :
    (dispositionAndActivity action).2 ∈ definedActivityIds := by
  unfold dispositionAndActivity
  split <;> decide

lemma wellClassed_build (chrono : Chrono) (nowMs : Int64) (raw : String) (f : Fields) :
    (build chrono nowMs raw f).WellClassed :=
  (NetworkActivity.wellClassed_new (dispositionAndActivity_defined f.action)).withUnmapped _

lemma isSome_parse_iff {isAlphanumeric : Char → Bool} {chrono : Chrono} {nowMs : Int64}
    {raw : String} :
    (parse isAlphanumeric chrono nowMs raw).isSome ↔ KvTokenizer.KeysSliceable raw := by
  unfold parse
  rw [Option.isSome_map, KvTokenizer.isSome_collect_iff]

lemma wellClassed_parse {isAlphanumeric : Char → Bool} {chrono : Chrono} {nowMs : Int64}
    {raw : String} {activity : NetworkActivity}
    (h : parse isAlphanumeric chrono nowMs raw = some activity) : activity.WellClassed := by
  obtain ⟨pairs, -, rfl⟩ := Option.map_eq_some_iff.mp h
  exact wellClassed_build chrono nowMs raw _

end FortigateExtractor

end Ulpf.Core
