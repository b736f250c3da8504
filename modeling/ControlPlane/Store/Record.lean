import ControlPlane.Json.Record
import ControlPlane.Store.KeyMap
import ControlPlane.Text.Base64

/-!
# Log records

A change as one line of the log: a record with the name of the operation, the key and, in Base64,
the value. `Change.line` writes the line, `Change.ofLine` reads it, without the line end.
-/

namespace ControlPlane

/-- What stands on a line of the log. -/
structure LogRecord where
  operation : String
  key : String
  value : Option String
  deriving DecidableEq, Repr

/-- Log records as text. -/
def LogRecord.codec : Codec LogRecord :=
  .record "WalRecord"
    (.cons (.required "op" .string) <| .cons (.required "key" .string) <|
      .cons (.optional "value" .string) .nil)
    (fun (operation, key, value, ()) => ⟨operation, key, value⟩)
    (fun r => (r.operation, r.key, r.value, ()))

/-- Why a line of the log is no change. -/
inductive LineFault where
  /-- It is no text. -/
  | notText
  /-- It holds no record. -/
  | badRecord (fault : Fault)
  /-- Its operation is unknown. -/
  | unknownOperation (name : String)
  /-- Its value stands for no bytes. -/
  | badValue (error : Base64.Error)
  deriving DecidableEq, Repr

namespace Change

/-- The record of a change. -/
def toRecord : Change → LogRecord
  | .put key value => ⟨"put", key, some (Base64.encode value)⟩
  | .delete key => ⟨"delete", key, none⟩

/-- The change that a record stands for. A record without value puts the empty one. -/
def ofRecord (r : LogRecord) : Except LineFault Change :=
  if r.operation = "put" then
    match r.value with
    | none => .ok (.put r.key [])
    | some text =>
      match Base64.decode text with
      | .ok value => .ok (.put r.key value)
      | .error e => .error (.badValue e)
  else if r.operation = "delete" then .ok (.delete r.key)
  else .error (.unknownOperation r.operation)

/-- The byte at the end of a line. -/
def lineEnd : UInt8 := 10

/-- The line of a change, with its end. -/
def line (c : Change) : Bytes :=
  LogRecord.codec.toBytes c.toRecord ++ [lineEnd]

/-- The change on a line without its end. -/
def ofLine (bs : Bytes) : Except LineFault Change :=
  match Utf8.decode? bs with
  | none => .error .notText
  | some cs =>
    match LogRecord.codec.readText (Text.ofChars cs) with
    | .ok r => ofRecord r
    | .error f => .error (.badRecord f)

end Change

end ControlPlane
