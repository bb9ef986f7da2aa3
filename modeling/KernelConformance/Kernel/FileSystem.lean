import KernelConformance.FiniteMap
import KernelConformance.Kernel.Descriptors
import KernelConformance.Text.Utf8

/-! A flat namespace of files. A name leads to an inode; descriptors lead there on their own, so a
file without a name stays usable through those that are open on it.
-/

namespace KernelConformance

open Utf8 (Bytes)

/-- The bytes of a file from `offset` on, at most `count` of them. -/
def slice (offset count : Nat) (data : Bytes) : Bytes := (data.drop offset).take count

/-- Puts bytes at `offset`; a file that ends before their end is first filled up with zeros. -/
def overlay (offset : Nat) (bytes data : Bytes) : Bytes :=
  let last := offset + bytes.length
  let filled := data ++ List.replicate (last - data.length) 0
  filled.take offset ++ bytes ++ filled.drop last

/-- The names and the contents of files. -/
structure FileSystem where
  names : FiniteMap String Inode
  contents : FiniteMap Inode Bytes
  next : Inode
  maxNameLength : Nat
  deriving DecidableEq

namespace FileSystem

/-- A file system without files. -/
def empty (maxNameLength : Nat) : FileSystem := ⟨.empty, .empty, ⟨0⟩, maxNameLength⟩

/-- The number of names. -/
def size (files : FileSystem) : Nat := files.names.size

/-- Whether a name is one that a file can have: not empty, not too long, and without NUL. -/
def acceptsName (files : FileSystem) (name : String) : Bool :=
  name ≠ "" && name.utf8ByteSize ≤ files.maxNameLength && !name.toList.contains (Char.ofNat 0)

/-- The bytes of an inode. -/
def data (files : FileSystem) (inode : Inode) : Bytes := (files.contents.get? inode).getD []

/-- The bytes of the file with a name. -/
def contents? (files : FileSystem) (name : String) : Option Bytes :=
  (files.names.get? name).map files.data

/-- Replaces the bytes of an inode. -/
def setData (inode : Inode) (bytes : Bytes) (files : FileSystem) : FileSystem :=
  { files with contents := files.contents.insert inode bytes }

/-- Gives a name to a new inode with the given bytes. -/
def bind (name : String) (bytes : Bytes) (files : FileSystem) : Inode × FileSystem :=
  let inode := files.next
  let bound := { files with
    names := files.names.insert name inode
    next := ⟨inode.index + 1⟩ }
  (inode, bound.setData inode bytes)

/-- The inode with a name. -/
def find (name : String) (files : FileSystem) : Except Errno Inode :=
  if !files.acceptsName name then .error .badFileName
  else
    match files.names.get? name with
    | none => .error .noSuchFile
    | some inode => .ok inode

/-- Makes the file with a name empty, and first makes it if there is none. -/
def create (name : String) (files : FileSystem) : Except Errno (Inode × FileSystem) :=
  if !files.acceptsName name then .error .badFileName
  else
    match files.names.get? name with
    | none => .ok (files.bind name [])
    | some inode => .ok (inode, files.setData inode [])

/-- Removes a name. -/
def remove (name : String) (files : FileSystem) : Except Errno FileSystem :=
  if !files.acceptsName name then .error .badFileName
  else
    match files.names.get? name with
    | none => .error .noSuchFile
    | some _ => .ok { files with names := files.names.erase name }

/-- Makes a name stand for a new file with the given bytes. -/
def put (name : String) (bytes : Bytes) (files : FileSystem)
    : Except Errno FileSystem :=
  if !files.acceptsName name then .error .badFileName else .ok (files.bind name bytes).2

end FileSystem

end KernelConformance
