import ControlPlane.Store.Log

/-!
# Durable stores

A store whose map is kept on a disk. Every change is written to the log and brought safely to the
disk before it is seen in the map. What is left of a change that failed is cut off the log again; if
that fails too, the store takes no further changes until it is opened anew.
-/

namespace ControlPlane

/-- A store with its log. `file` is the log while it is open, and `committed` its length up to the
last change that was made. -/
structure Durable where
  path : String
  data : KeyMap
  file : Option Nat
  committed : Nat
  poisoned : Bool

namespace Durable

/-- The name of the log in the folder of a store. -/
def logName : String := "store.wal"

/-- The path of something in a folder. -/
def inFolder (folder name : String) : String :=
  if folder.isEmpty || folder.endsWith "/" then folder ++ name else folder ++ "/" ++ name

/-! ## Opening -/

/-- The map that the log at a path leads to. A log that does not exist is empty. -/
def load (d : Disk) (path : String) : Except StoreError KeyMap :=
  match d.openToRead path with
  | .ok (some file) => Log.replay (d.content file)
  | .ok none => .error (.readLog 1 (.disk .isFolder))
  | .error .notFound => .ok .empty
  | .error e => .error (.openLog path e)

/-- Opens the store in a folder, which is made if there is none. The disk is what it has become even
if the store cannot be opened. -/
def openFolder (d : Disk) (folder : String) : Except StoreError Durable × Disk :=
  match d.makeFolders folder with
  | .error e => (.error (.makeFolder folder e), d)
  | .ok d =>
    let path := inFolder folder logName
    match load d path with
    | .error e => (.error e, d)
    | .ok data =>
      match d.openToWrite path with
      | .error e => (.error (.openLog path e), d)
      | .ok (file, d) => (.ok ⟨path, data, some file, (d.content file).length, false⟩, d)

/-! ## Changing -/

/-- Writes to the log and brings what is written safely to the disk. -/
def writeSynced (d : Disk) (file : Nat) (bs : Bytes) : Option StoreError × Disk :=
  match d.append file bs with
  | (some e, d) => (some (.write e), d)
  | (none, d) =>
    match d.sync with
    | (some e, d) => (some (.sync e), d)
    | (none, d) => (none, d)

/-- Cuts the log back to the last change that was made. -/
def rollBack (s : Durable) (d : Disk) (file : Nat) : Durable × Disk :=
  match d.cut file s.committed with
  | (some _, d) => ({ s with file := none, poisoned := true }, d)
  | (none, d) =>
    match d.sync with
    | (some _, d) => ({ s with file := none, poisoned := true }, d)
    | (none, d) => (s, d)

/-- Adds a line to the log. Nothing of a line that failed stays in the log. -/
def record (s : Durable) (d : Disk) (line : Bytes) : Option StoreError × Durable × Disk :=
  if s.poisoned then (some .poisoned, s, d)
  else match s.file with
    | none => (some .closed, s, d)
    | some file =>
      match writeSynced d file line with
      | (none, d) => (none, { s with committed := s.committed + line.length }, d)
      | (some e, d) => (some e, s.rollBack d file)

/-- Makes a change: on the disk and then in the map. -/
def commit (s : Durable) (d : Disk) (c : Change) : Option StoreError × Durable × Disk :=
  if c.key.isEmpty then (some .emptyKey, s, d)
  else match s.record d c.line with
    | (none, s, d) => (none, { s with data := c.apply s.data }, d)
    | (some e, s, d) => (some e, s, d)

/-- Closes the log. The map can still be read. -/
def close (s : Durable) (d : Disk) : Option StoreError × Durable × Disk :=
  match s.file with
  | none => (none, s, d)
  | some _ =>
    let s := { s with file := none }
    match d.sync with
    | (some e, d) => (some (.sync e), s, d)
    | (none, d) => (none, s, d)

end Durable

end ControlPlane
