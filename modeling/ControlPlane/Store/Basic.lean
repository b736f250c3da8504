import ControlPlane.Store.Durable

/-!
# Stores

What registries and detector keep their records in: a flat map from keys to bytes that can be
changed one key at a time. A store is volatile or durable; a third kind, `masked`, lists more keys
than it has values for, as a store does whose keys are taken away while it is listed.
-/

namespace ControlPlane

/-- A store that is kept nowhere. -/
structure Volatile where
  data : KeyMap
  closed : Bool

/-- A volatile store without keys. -/
def Volatile.new : Volatile := ⟨.empty, false⟩

/-- Makes a change. -/
def Volatile.commit (s : Volatile) (c : Change) : Option StoreError × Volatile :=
  if c.key.isEmpty then (some .emptyKey, s)
  else if s.closed then (some .closed, s)
  else (none, { s with data := c.apply s.data })

/-- A store of any kind. -/
inductive Store where
  | volatile (s : Volatile)
  /-- The values of the keys in `hidden` cannot be got, and records are listed key by key. -/
  | masked (s : Volatile) (hidden : List String)
  | durable (s : Durable)

namespace Store

/-! ## Reading -/

/-- The map of a store. -/
def data : Store → KeyMap
  | .volatile s | .masked s _ => s.data
  | .durable s => s.data

/-- All keys, in order. -/
def keys (s : Store) : List String :=
  s.data.keys

/-- The value of a key. -/
def get? : Store → String → Option Bytes
  | .volatile s, key => s.data.get? key
  | .masked s hidden, key => if hidden.contains key then none else s.data.get? key
  | .durable s, key => s.data.get? key

/-- The entries whose keys begin with the given text, in order. -/
def entriesUnder (s : Store) (start : String) : List (String × Bytes) :=
  match s with
  | .volatile v => v.data.scan start
  | .masked _ _ => KeyMap.filterKeys s.keys s.get? start
  | .durable d => d.data.scan start

/-! ## Changing -/

/-- Makes a change. -/
def commit (s : Store) (d : Disk) (c : Change) : Option StoreError × Store × Disk :=
  match s with
  | .volatile v => let (e, v) := v.commit c; (e, .volatile v, d)
  | .masked v hidden => let (e, v) := v.commit c; (e, .masked v hidden, d)
  | .durable v => let (e, v, d) := v.commit d c; (e, .durable v, d)

/-- Closes the store: no further change is made, and its map can still be read. -/
def close (s : Store) (d : Disk) : Option StoreError × Store × Disk :=
  match s with
  | .volatile v => (none, .volatile { v with closed := true }, d)
  | .masked v hidden => (none, .masked { v with closed := true } hidden, d)
  | .durable v => let (e, v, d) := v.close d; (e, .durable v, d)

end Store

end ControlPlane
