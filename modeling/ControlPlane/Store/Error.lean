import ControlPlane.Store.Disk
import ControlPlane.Store.Record

/-!
# Errors of a store

Why a store refused a change or could not be opened. `StoreError.cause?` is the text of what lies
behind an error, where there is something behind it.
-/

namespace ControlPlane

/-- Why a line of the log was not read. -/
inductive ReadError where
  | disk (e : DiskError)
  | notText
  deriving DecidableEq, Repr

/-- The wording of a reading error. -/
def ReadError.message : ReadError → String
  | .disk e => e.message
  | .notText => "invalid UTF-8"

/-- Why a store did not do what was asked. Lines are counted from 1. -/
inductive StoreError where
  | emptyKey
  | closed
  /-- The log could not be cut back after a failed write. -/
  | poisoned
  | makeFolder (path : String) (e : DiskError)
  | openLog (path : String) (e : DiskError)
  | readLog (line : Nat) (e : ReadError)
  | badRecord (line : Nat) (fault : Fault)
  | badValue (line : Nat) (e : Base64.Error)
  | unknownOperation (line : Nat) (name : String)
  | write (e : DiskError)
  | sync (e : DiskError)
  deriving DecidableEq, Repr

namespace StoreError

/-- What lies behind an error. -/
def cause? : StoreError → Option String
  | .makeFolder _ e | .openLog _ e | .write e | .sync e => some e.message
  | .readLog _ e => some e.message
  | .badRecord _ fault => some fault.message
  | .badValue _ e => some e.message
  | .emptyKey | .closed | .poisoned | .unknownOperation _ _ => none

/-- The wording of an error. -/
def message (e : StoreError) : String :=
  let cause := e.cause?.getD ""
  match e with
  | .emptyKey => "empty key"
  | .closed => "store is closed"
  | .poisoned => "wal could not be rolled back after a failed write; reopen the store"
  | .makeFolder path _ => s!"create data dir {path}: {cause}"
  | .openLog path _ => s!"open wal {path}: {cause}"
  | .readLog line _ => "read wal line " ++ Numeral.text line ++ ": " ++ cause
  | .badRecord line _ => "decode wal record at line " ++ Numeral.text line ++ ": " ++ cause
  | .badValue line _ => "decode wal value at line " ++ Numeral.text line ++ ": " ++ cause
  | .unknownOperation line name =>
    "unknown wal op " ++ Text.quoted name ++ " at line " ++ Numeral.text line
  | .write _ => "write wal: " ++ cause
  | .sync _ => "sync wal: " ++ cause

/-- The error of a line of the log that holds no change. -/
def ofLine (line : Nat) : LineFault → StoreError
  | .notText => .readLog line .notText
  | .badRecord fault => .badRecord line fault
  | .unknownOperation name => .unknownOperation line name
  | .badValue e => .badValue line e

end StoreError

end ControlPlane
