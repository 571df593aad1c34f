import SplitReader.SourceError

/-! # Devices

A device holds the bytes of a file. One read gives some of the bytes from a place on, at most
as many as asked for and none only at the end. Reads may also give fewer bytes than there are,
or fail: a device carries a list of fates for its next reads, and behaves well when the list
is used up. A directory can be opened like a file, but not read.
-/

set_option autoImplicit false

namespace SplitReader

/-- What a name in a file system stands for. -/
inductive FileNode where
  | regular (content : List UInt8)
  | directory
  deriving DecidableEq, Repr, Inhabited

namespace FileNode

/-- The length that a file system states for a directory. -/
def directoryLength : Nat := 4096

def length : FileNode → Nat
  | regular content => content.length
  | directory => directoryLength

/-- The bytes that can be read. -/
def content : FileNode → List UInt8
  | regular content => content
  | directory => []

end FileNode

/-- What becomes of one read. -/
inductive Fate where
  | whole
  /-- It gives no more than one byte and `extra` ones. -/
  | short (extra : Nat)
  | fail
  deriving DecidableEq, Repr, Inhabited

structure Device where
  node : FileNode
  fates : List Fate := []
  deriving DecidableEq, Repr, Inhabited

namespace Device

def fault : IoError := .device "device hiccup"

/-- Reads at most `room` bytes from a place on. -/
def read (position room : Nat) (d : Device) : Except IoError (List UInt8) × Device :=
  match d.node with
  | .directory => (.error .isDirectory, d)
  | .regular content =>
      let rest := content.drop position
      match d.fates with
      | [] => (.ok (rest.take room), d)
      | .whole :: fates => (.ok (rest.take room), { d with fates })
      | .short extra :: fates => (.ok (rest.take (min room (extra + 1))), { d with fates })
      | .fail :: fates => (.error fault, { d with fates })

theorem node_read (position room : Nat) (d : Device) : (d.read position room).2.node = d.node := by
  unfold read
  repeat' split
  all_goals simp_all

/-- A read gives bytes that follow the place. -/
theorem length_le_of_read {position room : Nat} {d d' : Device} {bytes : List UInt8}
    (h : d.read position room = (.ok bytes, d')) :
    bytes.length ≤ d.node.content.length - position := by
  unfold read at h
  repeat' split at h
  all_goals
    cases h
    try simp_all [FileNode.content, List.length_take, List.length_drop]
    try omega

end Device

end SplitReader
