import Mathlib.Data.Finmap
import Mathlib.Data.Nat.Notation

/-!
# OCSF network activity

The normalized event that every extractor builds: `NetworkActivity::new` derives the class
and type identifiers and the activity name from the activity id it is given.
-/

namespace Ulpf.Core

/-- OCSF 1.3 Category UID for Network Activity -/
def categoryUidNetworkActivity : UInt8 := 4

/-- OCSF 1.3 Class UID for Network Activity -/
def classUidNetworkActivity : UInt16 := 4001

/-! ### Standard activity ids and dispositions -/

def activityIdOpen : UInt8 := 1
def activityIdClose : UInt8 := 2
def activityIdTrafficFlow : UInt8 := 3
def activityIdOther : UInt8 := 99

def definedActivityIds : List UInt8 :=
  [activityIdOpen, activityIdClose, activityIdTrafficFlow, activityIdOther]

def dispositionAllowed : String := "Allowed"
def dispositionBlocked : String := "Blocked"
def dispositionDropped : String := "Dropped"
def dispositionUnknown : String := "Unknown"

def activityNameFromId (id : UInt8) : String :=
  if id = activityIdOpen then "Open"
  else if id = activityIdClose then "Close"
  else if id = activityIdTrafficFlow then "Traffic/Flow"
  else if id = activityIdOther then "Other"
  else "Unknown"

/-- OCSF convention: class_uid * 100 + activity_id -/
def calculateTypeUid (classUid : UInt16) (activityId : UInt8) : UInt32 :=
  classUid.toUInt32 * 100 + activityId.toUInt32

/-! ### The event -/

structure Endpoint where
  ip : Option String := none
  port : Option UInt16 := none
  interface : Option String := none
  zone : Option String := none
deriving DecidableEq

structure ConnectionInfo where
  protocolNum : Option UInt8 := none
  protocolName : Option String := none
  direction : Option String := none
deriving DecidableEq

structure Traffic where
  bytesIn : Option UInt64
  bytesOut : Option UInt64
  packetsIn : Option UInt64
  packetsOut : Option UInt64
deriving DecidableEq

structure Product where
  vendorName : String
  name : String
  version : Option String
deriving DecidableEq

structure Metadata where
  product : Product
  rawData : String
  rawHash : String
  eventId : String
  ingestTime : Int64
deriving DecidableEq

/-- `HashMap<String, String>` -/
abbrev FieldMap := Finmap fun _ : String => String

/-- `if let Some(v) = value { map.insert(key, v) }` -/
def FieldMap.insertSome (map : FieldMap) (key : String) : Option String → FieldMap
  | some v => map.insert key v
  | none => map

structure NetworkActivity where
  activityId : UInt8
  activityName : String
  categoryUid : UInt8
  classUid : UInt16
  typeUid : UInt32
  time : Int64
  disposition : String
  srcEndpoint : Endpoint
  dstEndpoint : Endpoint
  connectionInfo : ConnectionInfo
  traffic : Option Traffic
  metadata : Metadata
  unmapped : Option FieldMap
deriving DecidableEq

namespace NetworkActivity

def new (activityId : UInt8) (time : Int64) (disposition : String)
    (srcEndpoint dstEndpoint : Endpoint) (connectionInfo : ConnectionInfo)
    (traffic : Option Traffic) (metadata : Metadata) : NetworkActivity where
  activityId
  activityName := activityNameFromId activityId
  categoryUid := categoryUidNetworkActivity
  classUid := classUidNetworkActivity
  typeUid := calculateTypeUid classUidNetworkActivity activityId
  time
  disposition
  srcEndpoint
  dstEndpoint
  connectionInfo
  traffic
  metadata
  unmapped := none

def withUnmapped (activity : NetworkActivity) (unmapped : FieldMap) : NetworkActivity :=
  if unmapped ≠ ∅ then { activity with unmapped := some unmapped } else activity

/-! ### Classification of the event -/

/-- The identifiers of a network activity with one of the defined activity ids. -/
structure WellClassed (activity : NetworkActivity) : Prop where
  categoryUid : activity.categoryUid = 4
  classUid : activity.classUid = 4001
  typeUid : activity.typeUid = 400100 + activity.activityId.toUInt32
  activityName : activity.activityName = activityNameFromId activity.activityId
  activityId : activity.activityId ∈ definedActivityIds

variable {activityId : UInt8} {time : Int64} {disposition : String}
  {srcEndpoint dstEndpoint : Endpoint} {connectionInfo : ConnectionInfo}
  {traffic : Option Traffic} {metadata : Metadata}

lemma wellClassed_new (h : activityId ∈ definedActivityIds) :
    (new activityId time disposition srcEndpoint dstEndpoint connectionInfo traffic
      metadata).WellClassed where
  categoryUid := rfl
  classUid := rfl
  typeUid := rfl
  activityName := rfl
  activityId := h

lemma WellClassed.withUnmapped {activity : NetworkActivity} (h : activity.WellClassed)
    (unmapped : FieldMap) : (activity.withUnmapped unmapped).WellClassed := by
  unfold NetworkActivity.withUnmapped
  split_ifs
  · exact ⟨h.categoryUid, h.classUid, h.typeUid, h.activityName, h.activityId⟩
  · exact h

end NetworkActivity

end Ulpf.Core
