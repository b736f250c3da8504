import ControlPlane.Registry.Error
import ControlPlane.Store.Basic

/-!
# Registries

A registry keeps records of one kind in a store, each under a key made of the kind and the id of the
record. It has no state of its own: an operation looks at the store, decides on one change
(`Registry.put`, `Registry.remove`), and the change is then made or refused by the store
(`Backing.perform`).
-/

namespace ControlPlane

/-- The records of one kind: their name, their form and where they carry their id. -/
structure Registry (α : Type) where
  kind : String
  codec : Codec α
  idOf : α → String
  withId : String → α → α

namespace Registry

variable {α : Type} (r : Registry α)

/-- What the keys of the registry begin with. -/
def keyStart : String := r.kind ++ ":"

/-- The key of the record with an id. -/
def key (id : String) : String := r.keyStart ++ id

/-- Refuses the empty id. -/
def requireId (id : String) : Except RegistryError Unit :=
  if id.isEmpty then .error (.emptyId r.kind) else .ok ()

/-! ## Looking -/

/-- The record that bytes under a key stand for. -/
def decode (key : String) (bs : Bytes) : Except RegistryError α :=
  match r.codec.ofBytes bs with
  | .ok a => .ok a
  | .error f => .error (.decode key f)

/-- The record with an id, if there is one. -/
def get (s : Store) (id : String) : Except RegistryError (Option α) := do
  r.requireId id
  match s.get? (r.key id) with
  | none => return none
  | some bs => some <$> r.decode (r.key id) bs

/-- The record with an id. -/
def require (s : Store) (id : String) : Except RegistryError α := do
  match ← r.get s id with
  | some a => return a
  | none => throw (.notFound r.kind id)

/-- The records that entries stand for. One that stands for none spoils the whole list. -/
def decodeAll : List (String × Bytes) → Except RegistryError (List α)
  | [] => .ok []
  | (key, bs) :: rest => do
    let a ← r.decode key bs
    let as ← decodeAll rest
    return a :: as

/-- All records, in the order of their ids. -/
def list (s : Store) : Except RegistryError (List α) :=
  r.decodeAll (s.entriesUnder r.keyStart)

/-! ## Deciding -/

/-- A record with the id it is to be stored under. One that carries another id is refused. -/
def stamp (id : String) (a : α) : Except RegistryError α := do
  r.requireId id
  if !(r.idOf a).isEmpty && r.idOf a != id then
    throw (.idMismatch r.kind id (r.idOf a))
  return r.withId id a

/-- The change that stores a record under an id. -/
def write (id : String) (a : α) : Change :=
  .put (r.key id) (r.codec.toBytes a)

/-- Stores a record, whether or not there is one with its id. -/
def put (id : String) (a : α) : Except RegistryError Change := do
  return r.write id (← r.stamp id a)

/-- Takes the record with an id away, whether or not there is one. -/
def remove (id : String) : Except RegistryError Change := do
  r.requireId id
  return .delete (r.key id)

end Registry

/-! ## Acting -/

/-- A store and the disk that it may be kept on. -/
structure Backing where
  store : Store
  disk : Disk

namespace Backing

/-- Makes a change in the store. -/
def commit (b : Backing) (c : Change) : Option StoreError × Backing :=
  let (e, store, disk) := b.store.commit b.disk c
  (e, ⟨store, disk⟩)

/-- Closes the store. -/
def close (b : Backing) : Option StoreError × Backing :=
  let (e, store, disk) := b.store.close b.disk
  (e, ⟨store, disk⟩)

/-- Makes the change that was decided on, if one was. -/
def perform {β : Type} (b : Backing) (decision : Except RegistryError (Change × β)) :
    Except RegistryError β × Backing :=
  match decision with
  | .error e => (.error e, b)
  | .ok (c, result) =>
    match b.commit c with
    | (none, b) => (.ok result, b)
    | (some e, b) => (.error (.store e), b)

end Backing

end ControlPlane
