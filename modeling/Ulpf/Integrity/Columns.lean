import Mathlib.Algebra.GroupWithZero.Nat
import Mathlib.Data.List.SplitLengths
import Ulpf.Integrity.Storage

/-!
# Columns of a block

Arrow arrays are the lists of their values, and Parquet gives back the rows it was given, cut into
batches: this much stands for the two libraries. The string arrays of Arrow have offsets of type
`i32`, so a column whose texts exceed `2 ^ 31 - 1` bytes cannot be built there; such blocks are out
of the model. A record batch carries the proofs that its columns
have the types of the schema and its number of rows. Records are written by position in the
schema and read by column number; `Represents` relates the two.
-/

namespace Ulpf.Integrity

inductive DataType where
  | utf8
  | uInt64
  | uInt32
  | int64
deriving DecidableEq

structure Field where
  name : String
  dataType : DataType
  nullable : Bool
deriving DecidableEq

abbrev Schema := List Field

inductive ArrayRef where
  | stringArray (values : List String)
  | uInt64Array (values : List UInt64)
  | uInt32Array (values : List UInt32)
  | int64Array (values : List Int64)
deriving DecidableEq

namespace ArrayRef

def dataType : ArrayRef → DataType
  | stringArray _ => .utf8
  | uInt64Array _ => .uInt64
  | uInt32Array _ => .uInt32
  | int64Array _ => .int64

def length : ArrayRef → ℕ
  | stringArray values => values.length
  | uInt64Array values => values.length
  | uInt32Array values => values.length
  | int64Array values => values.length

def slice (offset rows : ℕ) : ArrayRef → ArrayRef
  | stringArray values => stringArray ((values.drop offset).take rows)
  | uInt64Array values => uInt64Array ((values.drop offset).take rows)
  | uInt32Array values => uInt32Array ((values.drop offset).take rows)
  | int64Array values => int64Array ((values.drop offset).take rows)

lemma dataType_slice (offset rows : ℕ) (array : ArrayRef) :
    (array.slice offset rows).dataType = array.dataType := by
  cases array <;> rfl

lemma length_slice (offset rows : ℕ) (array : ArrayRef) :
    (array.slice offset rows).length = min rows (array.length - offset) := by
  cases array <;> simp [slice, length]

end ArrayRef

structure RecordBatch where
  schema : Schema
  columns : List ArrayRef
  numRows : ℕ
  typed : columns.map ArrayRef.dataType = schema.map Field.dataType
  aligned : ∀ column ∈ columns, column.length = numRows

namespace RecordBatch

/-- `RecordBatch::try_new`; the arrays have no null values. -/
def tryNew (schema : Schema) (columns : List ArrayRef) : Option RecordBatch :=
  match columns.head? with
  | none => none
  | some first =>
    if h : columns.map ArrayRef.dataType = schema.map Field.dataType ∧
        ∀ column ∈ columns, column.length = first.length then
      some ⟨schema, columns, first.length, h.1, h.2⟩
    else none

/-- The rows from `offset` on, as many as `rows`. -/
def slice (batch : RecordBatch) (offset rows : ℕ) : RecordBatch where
  schema := batch.schema
  columns := batch.columns.map (ArrayRef.slice offset rows)
  numRows := min rows (batch.numRows - offset)
  typed := by
    rw [← batch.typed, List.map_map]
    apply List.map_congr_left
    intro column _
    exact column.dataType_slice offset rows
  aligned := by
    intro column hcolumn
    obtain ⟨whole, hwhole, rfl⟩ := List.mem_map.mp hcolumn
    rw [ArrayRef.length_slice, batch.aligned whole hwhole]

@[simp] lemma columns_slice (batch : RecordBatch) (offset rows : ℕ) :
    (batch.slice offset rows).columns = batch.columns.map (ArrayRef.slice offset rows) := rfl

@[simp] lemma numRows_slice (batch : RecordBatch) (offset rows : ℕ) :
    (batch.slice offset rows).numRows = min rows (batch.numRows - offset) := rfl

/-- The batches a reader returns that cuts the rows after these numbers of rows. -/
def cut (batch : RecordBatch) (offset : ℕ) : List ℕ → List RecordBatch
  | [] => []
  | rows :: sizes => batch.slice offset rows :: batch.cut (offset + rows) sizes

end RecordBatch

/-- Returns the official Arrow Schema for ULPF Parquet blocks. -/
def logSchema : Schema :=
  [⟨"event_id", .utf8, false⟩, ⟨"block_id", .uInt64, false⟩, ⟨"leaf_index", .uInt32, false⟩,
    ⟨"timestamp", .int64, false⟩, ⟨"vendor", .utf8, false⟩, ⟨"raw_log", .utf8, false⟩,
    ⟨"raw_hash", .utf8, false⟩, ⟨"ocsf_json", .utf8, false⟩]

/-- The column vector of `records_to_batch`. -/
def columnsOf (records : List StoredLogRecord) : List ArrayRef :=
  let eventIds := records.map StoredLogRecord.eventId
  let blockIds := records.map StoredLogRecord.blockId
  let leafIndices := records.map StoredLogRecord.leafIndex
  let timestamps := records.map StoredLogRecord.timestamp
  let vendors := records.map StoredLogRecord.vendor
  let rawLogs := records.map StoredLogRecord.rawLog
  let rawHashes := records.map StoredLogRecord.rawHash
  let ocsfJsons := records.map StoredLogRecord.ocsfJson
  [.stringArray eventIds, .uInt64Array blockIds, .uInt32Array leafIndices, .int64Array timestamps,
    .stringArray vendors, .stringArray rawLogs, .stringArray rawHashes, .stringArray ocsfJsons]

/-- Converts a slice of `StoredLogRecord` into an Arrow `RecordBatch`. -/
def recordsToBatch (records : List StoredLogRecord) : Except StorageFault RecordBatch :=
  match RecordBatch.tryNew logSchema (columnsOf records) with
  | some batch => .ok batch
  | none => .error .constructRecordBatch

/-- What can end the reading of a block file; `outOfBounds` is a panic. -/
inductive ReadFault where
  | openFile
  | createReaderBuilder
  | buildReader
  | readBatch
  | wrongArray (text : String)
  | outOfBounds
deriving DecidableEq

/-- `batch.column(col)` -/
def RecordBatch.column (batch : RecordBatch) (col : ℕ) : Except ReadFault ArrayRef :=
  match batch.columns[col]? with
  | some array => .ok array
  | none => .error .outOfBounds

/-- `array.value(i)` -/
def value {α : Type} (values : List α) (i : ℕ) : Except ReadFault α :=
  match values[i]? with
  | some v => .ok v
  | none => .error .outOfBounds

def getStr (batch : RecordBatch) (col : ℕ) (name : String) : Except ReadFault (List String) := do
  match ← batch.column col with
  | .stringArray values => return values
  | _ => throw (.wrongArray s!"Column {col} ({name}) is not a Utf8 StringArray")

def getBlockIds (batch : RecordBatch) : Except ReadFault (List UInt64) := do
  match ← batch.column 1 with
  | .uInt64Array values => return values
  | _ => throw (.wrongArray "Column 1 (block_id) is not a UInt64Array")

def getLeafIndices (batch : RecordBatch) : Except ReadFault (List UInt32) := do
  match ← batch.column 2 with
  | .uInt32Array values => return values
  | _ => throw (.wrongArray "Column 2 (leaf_index) is not a UInt32Array")

def getTimestamps (batch : RecordBatch) : Except ReadFault (List Int64) := do
  match ← batch.column 3 with
  | .int64Array values => return values
  | _ => throw (.wrongArray "Column 3 (timestamp) is not an Int64Array")

/-- Converts an Arrow `RecordBatch` into a list of `StoredLogRecord`. -/
def batchToRecords (batch : RecordBatch) : Except ReadFault (List StoredLogRecord) := do
  let eventIds ← getStr batch 0 "event_id"
  let blockIds ← getBlockIds batch
  let leafIndices ← getLeafIndices batch
  let timestamps ← getTimestamps batch
  let vendors ← getStr batch 4 "vendor"
  let rawLogs ← getStr batch 5 "raw_log"
  let rawHashes ← getStr batch 6 "raw_hash"
  let ocsfJsons ← getStr batch 7 "ocsf_json"
  (List.range batch.numRows).mapM fun i => do
    return { eventId := ← value eventIds i
             blockId := ← value blockIds i
             leafIndex := ← value leafIndices i
             timestamp := ← value timestamps i
             vendor := ← value vendors i
             rawLog := ← value rawLogs i
             rawHash := ← value rawHashes i
             ocsfJson := ← value ocsfJsons i }

/-- One step of the reader; `none` is a failed read. -/
def readNextBatch (allRecords : List StoredLogRecord) :
    Option RecordBatch → Except ReadFault (List StoredLogRecord)
  | none => throw .readBatch
  | some batch => do return allRecords ++ (← batchToRecords batch)

/-- Reads all records from a Parquet file. -/
def readParquetFile (reader : Except ReadFault (List (Option RecordBatch))) :
    Except ReadFault (List StoredLogRecord) := do
  (← reader).foldlM readNextBatch []

/-- The columns hold these records, one in each row. -/
structure Represents (batch : RecordBatch) (records : List StoredLogRecord) : Prop where
  columns_eq : batch.columns = columnsOf records
  numRows_eq : batch.numRows = records.length

/-! ### One batch -/

variable {records : List StoredLogRecord} {batch : RecordBatch}

lemma represents_recordsToBatch (records : List StoredLogRecord) :
    ∃ batch, recordsToBatch records = .ok batch ∧ Represents batch records := by
  have hvalid : (columnsOf records).map ArrayRef.dataType = logSchema.map Field.dataType ∧
      ∀ column ∈ columnsOf records, column.length =
        (ArrayRef.stringArray (records.map StoredLogRecord.eventId)).length := by
    refine ⟨rfl, ?_⟩
    simp [columnsOf, ArrayRef.length]
  refine ⟨⟨logSchema, columnsOf records, _, hvalid.1, hvalid.2⟩, ?_, rfl, ?_⟩
  · have hnew : RecordBatch.tryNew logSchema (columnsOf records) =
        some ⟨logSchema, columnsOf records, _, hvalid.1, hvalid.2⟩ := dif_pos hvalid
    rw [recordsToBatch, hnew]
  · exact List.length_map ..

lemma Represents.slice (h : Represents batch records) (offset rows : ℕ) :
    Represents (batch.slice offset rows) ((records.drop offset).take rows) where
  columns_eq := by
    rw [RecordBatch.columns_slice, h.columns_eq]
    simp [columnsOf, ArrayRef.slice, List.map_take, List.map_drop]
  numRows_eq := by
    rw [RecordBatch.numRows_slice, h.numRows_eq, List.length_take, List.length_drop]

lemma value_map {α β : Type} (f : α → β) {l : List α} {i : ℕ} (hi : i < l.length) :
    value (l.map f) i = .ok (f l[i]) := by
  rw [value, List.getElem?_map, List.getElem?_eq_getElem hi]
  rfl

lemma mapM_range_eq_ok {α ε : Type} {f : ℕ → Except ε α} {l : List α}
    (h : ∀ i (hi : i < l.length), f i = .ok l[i]) : (List.range l.length).mapM f = .ok l := by
  induction l generalizing f with
  | nil => rfl
  | cons a l ih =>
    have hhead : f 0 = .ok a := h 0 (Nat.zero_lt_succ _)
    have htail : (List.range l.length).mapM (f ∘ Nat.succ) = .ok l := by
      apply ih
      intro i hi
      exact h (i + 1) (Nat.succ_lt_succ hi)
    rw [List.length_cons, List.range_succ_eq_map, List.mapM_cons, hhead, List.mapM_map, htail]
    rfl

lemma Represents.batchToRecords (h : Represents batch records) :
    batchToRecords batch = .ok records := by
  have hcolumn : ∀ col, batch.column col = match (columnsOf records)[col]? with
      | some array => .ok array
      | none => .error .outOfBounds := by
    intro col
    rw [RecordBatch.column, h.columns_eq]
  unfold Integrity.batchToRecords getStr getBlockIds getLeafIndices getTimestamps
  simp only [hcolumn, h.numRows_eq]
  apply mapM_range_eq_ok
  intro i hi
  simp only [value_map _ hi]
  rfl

/-! ### All batches -/

lemma forall₂_represents_cut (h : Represents batch records) (offset : ℕ) (sizes : List ℕ) :
    List.Forall₂ Represents (batch.cut offset sizes)
      (sizes.splitLengths (records.drop offset)) := by
  induction sizes generalizing offset with
  | nil => exact List.Forall₂.nil
  | cons rows sizes ih =>
    rw [RecordBatch.cut, List.splitLengths_cons, List.drop_drop]
    exact List.Forall₂.cons (h.slice offset rows) (ih (offset + rows))

lemma foldlM_readNextBatch {batches : List RecordBatch} {parts : List (List StoredLogRecord)}
    (h : List.Forall₂ Represents batches parts) (allRecords : List StoredLogRecord) :
    (batches.map some).foldlM readNextBatch allRecords = .ok (allRecords ++ parts.flatten) := by
  induction h generalizing allRecords with
  | nil => simp [pure, Except.pure]
  | @cons batch part batches parts hbatch _ ih =>
    have hnext : readNextBatch allRecords (some batch) = .ok (allRecords ++ part) := by
      rw [readNextBatch, hbatch.batchToRecords]
      rfl
    calc ((batch :: batches).map some).foldlM readNextBatch allRecords
        = (batches.map some).foldlM readNextBatch (allRecords ++ part) := by
          rw [List.map_cons, List.foldlM_cons, hnext]
          rfl
      _ = .ok (allRecords ++ part ++ parts.flatten) := ih _
      _ = .ok (allRecords ++ (part :: parts).flatten) := by
          rw [List.flatten_cons, List.append_assoc]

/-- However the reader cuts the rows of a block, the records come back as they were stored. -/
theorem readParquetFile_recordsToBatch (records : List StoredLogRecord) (sizes : List ℕ)
    (h : sizes.sum = records.length) : ∃ batch, recordsToBatch records = .ok batch ∧
      readParquetFile (.ok ((batch.cut 0 sizes).map some)) = .ok records := by
  obtain ⟨batch, hbatch, hrepresents⟩ := represents_recordsToBatch records
  refine ⟨batch, hbatch, ?_⟩
  have hcut := forall₂_represents_cut hrepresents 0 sizes
  rw [List.drop_zero] at hcut
  have hread := foldlM_readNextBatch hcut []
  rw [List.flatten_splitLengths records sizes h.ge] at hread
  exact hread

theorem readParquetFile_recordsToBatch_two :
    [1, 0, 1].sum = 2 ∧ ∃ batch,
      recordsToBatch [⟨"a", 1, 0, 1700000000000, "cisco_asa", "raw a", "hash a", "null"⟩,
        ⟨"b", 1, 1, 1700000000001, "fortigate", "raw b", "hash b", "null"⟩] = .ok batch ∧
      readParquetFile (.ok ((batch.cut 0 [1, 0, 1]).map some)) =
        .ok [⟨"a", 1, 0, 1700000000000, "cisco_asa", "raw a", "hash a", "null"⟩,
          ⟨"b", 1, 1, 1700000000001, "fortigate", "raw b", "hash b", "null"⟩] :=
  ⟨rfl, readParquetFile_recordsToBatch _ [1, 0, 1] rfl⟩

end Ulpf.Integrity
