import SplitReader.Binary.Format
import SplitReader.Work.ItemJson

/-! # Binary form of work items

A work item is written as its identifier, the name of the kind of its source and the fields of
the source in order. It cannot be read back: the kind of a source is a part of its content,
and the fields behind it have no form of their own that could be kept until it is understood.
-/

set_option autoImplicit false

namespace SplitReader

open Binary

namespace RecordEncoding

def choice : RecordEncoding → UInt32
  | utf8 => 0
  | byteString => 1

end RecordEncoding

def SourceSpec.writeBinary : SourceSpec → List UInt8
  | inMemory records encoding start stop =>
      Format.string.write inMemoryKind ++ Format.string.list.write records ++
        Format.uint32.write encoding.choice ++ Format.int64.optional.write start ++
        Format.int64.optional.write stop
  | textFile path start stop =>
      Format.string.write textFileKind ++ Format.string.write path ++
        Format.uint64.optional.write start ++ Format.uint64.optional.write stop

def WorkItem.binary : Binary.Format WorkItem where
  read bytes := do
    let _ ← Format.string.read bytes
    throw .notSelfDescribing
  write w := Format.string.write w.id ++ w.source.writeBinary

end SplitReader
