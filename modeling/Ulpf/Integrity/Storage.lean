import Ulpf.Integrity.Hash

/-!
# Block files

The record type of the Parquet blocks and the write of one block. Files are kept as the
list of writes in the order they were made, so the last write of a path is its content.
-/

namespace Ulpf.Integrity

structure StoredLogRecord where
  eventId : String
  blockId : UInt64
  leafIndex : UInt32
  timestamp : Int64
  vendor : String
  rawLog : String
  rawHash : String
  ocsfJson : String
deriving DecidableEq

inductive ParquetCompression where
  | snappy
  | zstd
  | uncompressed
deriving DecidableEq

/-- `storage_dir.join(file_name)`. -/
structure ParquetPath where
  storageDir : String
  fileName : String
deriving DecidableEq

/-- The fallible calls of `write_records_to_parquet`. -/
inductive StorageFault where
  | constructRecordBatch
  | createParentDirectory
  | createFile
  | initializeWriter
  | writeBatch
  | closeWriter
deriving DecidableEq

/-- The calls after `File::create`, which has already truncated the file. -/
def StorageFault.truncates : StorageFault → Bool
  | constructRecordBatch | createParentDirectory | createFile => false
  | initializeWriter | writeBatch | closeWriter => true

/-- One write of a block file; `closed` says that the writer finished it. -/
structure BlockWrite where
  path : ParquetPath
  records : List StoredLogRecord
  compression : ParquetCompression
  closed : Bool
deriving DecidableEq

/-- What a path holds after a list of writes. -/
def fileAt (files : List BlockWrite) (path : ParquetPath) : Option BlockWrite :=
  files.reverse.find? fun write => write.path == path

lemma fileAt_of_last {files earlier later : List BlockWrite} {write : BlockWrite}
    (h : files = earlier ++ write :: later) (hlast : ∀ w ∈ later, w.path ≠ write.path) :
    fileAt files write.path = some write := by
  rw [fileAt, List.find?_eq_some_iff_append]
  refine ⟨beq_self_eq_true _, later.reverse, earlier.reverse, by simp [h], ?_⟩
  intro w hw
  simpa using hlast w (List.mem_reverse.mp hw)

def rawLogs (records : List StoredLogRecord) : List String := records.map StoredLogRecord.rawLog

def logBytes (records : List StoredLogRecord) : List Bytes := (rawLogs records).map asBytes

def writeRecordsToParquet (files : List BlockWrite) (path : ParquetPath)
    (records : List StoredLogRecord) (compression : ParquetCompression)
    (fault : Option StorageFault) : Except StorageFault Unit × List BlockWrite :=
  match fault with
  | none => (.ok (), files ++ [⟨path, records, compression, true⟩])
  | some f =>
    (.error f, if f.truncates then files ++ [⟨path, records, compression, false⟩] else files)

end Ulpf.Integrity
