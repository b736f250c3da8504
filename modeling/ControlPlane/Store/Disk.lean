import ControlPlane.Store.KeyMap

/-!
# Disks

A tree of folders, files and symbolic links, and the ways in which writing to it can fail. Files are
numbered, and who holds the number of a file goes on with it whatever becomes of its name.

Paths are texts. They start at the working folder of the tree, whose absolute name is `home`.
-/

namespace ControlPlane

/-- Why the disk refused something. -/
inductive DiskError where
  | notFound
  | inputOutput
  | alreadyExists
  | notFolder
  | isFolder
  | noSpace
  | tooManyLinks
  deriving DecidableEq, Repr

/-- The wording of a refusal. -/
def DiskError.message : DiskError → String
  | .notFound => "No such file or directory (os error 2)"
  | .inputOutput => "Input/output error (os error 5)"
  | .alreadyExists => "File exists (os error 17)"
  | .notFolder => "Not a directory (os error 20)"
  | .isFolder => "Is a directory (os error 21)"
  | .noSpace => "No space left on device (os error 28)"
  | .tooManyLinks => "Too many levels of symbolic links (os error 40)"

/-- What is going to fail: for each write to come the number of bytes after which it stops, if it
does, for each attempt to bring a file safely to the disk and for each cut whether it fails; and how
many of each there were. -/
structure DiskFaults where
  writes : Nat → Option Nat := fun _ => none
  syncs : Nat → Bool := fun _ => false
  cuts : Nat → Bool := fun _ => false
  written : Nat := 0
  synced : Nat := 0
  cut : Nat := 0

namespace DiskFaults

/-- What is going to fail after a write. -/
def afterWrite (f : DiskFaults) : DiskFaults :=
  { f with written := f.written + 1 }

/-- What is going to fail after an attempt to bring a file safely to the disk. -/
def afterSync (f : DiskFaults) : DiskFaults :=
  { f with synced := f.synced + 1 }

/-- What is going to fail after a cut. -/
def afterCut (f : DiskFaults) : DiskFaults :=
  { f with cut := f.cut + 1 }

end DiskFaults

/-- What a name stands for. -/
inductive DiskEntry where
  | file (number : Nat)
  | folder
  | link (target : String)
  deriving DecidableEq, Repr

/-- The place of a name: the names on the way to it from the working folder. -/
abbrev Place := List String

/-- A disk. -/
structure Disk where
  home : String := ""
  names : List (Place × DiskEntry) := []
  contents : List Bytes := []
  faults : DiskFaults := {}

namespace Disk

/-! ## Files by number -/

/-- The content of a file. -/
def content (d : Disk) (file : Nat) : Bytes :=
  d.contents[file]?.getD []

/-- Gives a file a content. -/
def setContent (d : Disk) (file : Nat) (bs : Bytes) : Disk :=
  { d with contents := d.contents.set file bs }

/-- Writes bytes at the end of a file, all of them or those before the place where writing stops. -/
def append (d : Disk) (file : Nat) (bs : Bytes) : Option DiskError × Disk :=
  let stop := (d.faults.writes d.faults.written).getD bs.length
  let d := { d with faults := d.faults.afterWrite }
  (if bs.length ≤ stop then none else some .noSpace,
    d.setContent file (d.content file ++ bs.take stop))

/-- Brings what was written safely to the disk. -/
def sync (d : Disk) : Option DiskError × Disk :=
  (if d.faults.syncs d.faults.synced then some .inputOutput else none,
    { d with faults := d.faults.afterSync })

/-- Gives a file a length, by cutting it or by adding zero bytes. -/
def resize (bs : Bytes) (length : Nat) : Bytes :=
  bs.take length ++ List.replicate (length - bs.length) 0

/-- Sets the length of a file. -/
def cut (d : Disk) (file length : Nat) : Option DiskError × Disk :=
  let fails := d.faults.cuts d.faults.cut
  let d := { d with faults := d.faults.afterCut }
  if fails then (some .inputOutput, d)
  else (none, d.setContent file (resize (d.content file) length))

/-! ## Names -/

/-- The parts of a path between its slashes. -/
def splitPath (part : List Char) : List Char → List String
  | [] => [String.ofList part.reverse]
  | c :: rest =>
    if c = '/' then String.ofList part.reverse :: splitPath [] rest else splitPath (c :: part) rest

/-- Whether a path begins with the name of the working folder and not in it. -/
def isAbsolute (d : Disk) (path : String) : Bool :=
  (splitPath [] path.toList).head? == some d.home

/-- The names on a path, from the working folder or, where the path is relative to another one, from
there on. -/
def parts (d : Disk) (path : String) : List String :=
  let ps := splitPath [] path.toList
  (if d.isAbsolute path then ps.drop 1 else ps).filter fun p => p ≠ "" ∧ p ≠ "."

/-- What stands at a place. -/
def entry? (d : Disk) (p : Place) : Option DiskEntry :=
  if p.isEmpty then some .folder else d.names.lookup p

/-- Follows names from a folder to a place, which need not be taken yet. Links are followed on the
way, and at its end if `last` says so, `links` of them at most. -/
def follow (d : Disk) (last : Bool) (links : Nat) (folder : Place) (names : List String) :
    Except DiskError Place :=
  match names with
  | [] => .ok folder
  | ".." :: rest => follow d last links folder.dropLast rest
  | name :: rest =>
    let p := folder ++ [name]
    match d.entry? p with
    | none => if rest.isEmpty then .ok p else .error .notFound
    | some .folder => follow d last links p rest
    | some (.file _) => if rest.isEmpty then .ok p else .error .notFolder
    | some (.link target) =>
      if rest.isEmpty && !last then .ok p
      else match links with
        | 0 => .error .tooManyLinks
        | links + 1 =>
          let start := if d.isAbsolute target then [] else folder
          follow d last links start (d.parts target ++ rest)
termination_by (links, names.length)

/-- How many links may stand on the way to a place. -/
def linkLimit : Nat := 40

/-- The place that a path leads to. -/
def locate (d : Disk) (last : Bool) (path : List String) : Except DiskError Place :=
  d.follow last linkLimit [] path

/-- Gives a place to a new entry. -/
def put (d : Disk) (p : Place) (e : DiskEntry) : Disk :=
  { d with names := (p, e) :: d.names.filter (·.1 ≠ p) }

/-- Whether a path leads to a folder. -/
def isFolder (d : Disk) (path : List String) : Bool :=
  match d.locate true path with
  | .ok p => d.entry? p == some .folder
  | .error _ => false

/-! ## Folders -/

/-- Makes one folder. -/
def makeFolder (d : Disk) (path : List String) : Except DiskError Disk := do
  let p ← d.locate false path
  if (d.entry? p).isSome then .error .alreadyExists else .ok (d.put p .folder)

/-- Makes a folder with all folders on the way to it that are missing. The path is given from its
end. -/
def makeFoldersRev (d : Disk) : List String → Except DiskError Disk
  | [] => .ok d
  | name :: above =>
    let path := (name :: above).reverse
    match d.makeFolder path with
    | .ok d => .ok d
    | .error .notFound => do
      let d ← makeFoldersRev d above
      match d.makeFolder path with
      | .ok d => .ok d
      | .error e => if d.isFolder path then .ok d else .error e
    | .error e => if d.isFolder path then .ok d else .error e

/-- Makes a folder with all folders on the way to it that are missing. -/
def makeFolders (d : Disk) (path : String) : Except DiskError Disk :=
  d.makeFoldersRev (d.parts path).reverse

/-! ## Files by name -/

/-- What reading a path finds: a file or, since a folder is opened like one, a folder. -/
def openToRead (d : Disk) (path : String) : Except DiskError (Option Nat) := do
  let p ← d.locate true (d.parts path)
  match d.entry? p with
  | some (.file n) => .ok (some n)
  | some _ => .ok none
  | none => .error .notFound

/-- The file to write to at a path, made if there is none. -/
def openToWrite (d : Disk) (path : String) : Except DiskError (Nat × Disk) := do
  let p ← d.locate true (d.parts path)
  match d.entry? p with
  | some (.file n) => .ok (n, d)
  | some _ => .error .isFolder
  | none =>
    let n := d.contents.length
    .ok (n, { d.put p (.file n) with contents := d.contents ++ [[]] })

/-- The content of the file at a path. -/
def load (d : Disk) (path : String) : Except DiskError Bytes := do
  match ← d.openToRead path with
  | some n => .ok (d.content n)
  | none => .error .isFolder

/-- Gives the file at a path a content. -/
def save (d : Disk) (path : String) (bs : Bytes) : Except DiskError Disk := do
  let (n, d) ← d.openToWrite path
  .ok (d.setContent n bs)

/-- Makes a symbolic link. -/
def makeLink (d : Disk) (path target : String) : Except DiskError Disk := do
  let p ← d.locate false (d.parts path)
  if (d.entry? p).isSome then .error .alreadyExists else .ok (d.put p (.link target))

/-- Takes a name away. -/
def remove (d : Disk) (path : String) : Except DiskError Disk := do
  let p ← d.locate false (d.parts path)
  match d.entry? p with
  | none => .error .notFound
  | some .folder => .error .isFolder
  | some _ => .ok { d with names := d.names.filter (·.1 ≠ p) }

end Disk

end ControlPlane
