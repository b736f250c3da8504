import ControlPlane.Json.Decoder

/-!
# Records

A record is described by its fields: the name of each, the codec of its value, and what stands for
it when it is absent. From the description come the reader and the writer, so that they agree on
names, order and defaults. A record is read from a map, in any order and with unknown members
passed over, or from a sequence of its values in the order of the description.
-/

namespace ControlPlane

/-- What stands for a field that is absent. -/
inductive Absent (α : Type) where
  /-- Nothing: the field must be given. -/
  | refused
  /-- A value, if the record is written as a map. -/
  | inMap (a : α)
  /-- A value, however the record is written. -/
  | anywhere (a : α)

/-- A field of a record. `write` gives nothing for a value that is left out. -/
structure Field (α : Type) where
  name : String
  read : Decoder α
  write : α → Option Json
  absent : Absent α

namespace Field

/-- A field that must be given. -/
def required {α : Type} (name : String) (c : Codec α) : Field α :=
  ⟨name, c.read, fun a => some (c.write a), .refused⟩

/-- A field with a default. -/
def orElse {α : Type} (name : String) (a : α) (c : Codec α) : Field α :=
  ⟨name, c.read, fun a => some (c.write a), .anywhere a⟩

/-- Reads a value for which null stands if there is none. -/
def readOptional {α : Type} (read : Decoder α) : Decoder (Option α)
  | _, .null => .ok none
  | room, t => some <$> read room t

/-- A field that may have no value and is then left out. -/
def optional {α : Type} (name : String) (c : Codec α) : Field (Option α) :=
  ⟨name, readOptional c.read, fun a => a.map c.write, .anywhere none⟩

/-- A field of a request that may be left out of a map. -/
def ifGiven {α : Type} (name : String) (c : Codec α) : Field (Option α) :=
  ⟨name, readOptional c.read, fun a => a.map c.write, .inMap none⟩

end Field

/-- The fields of a record. Their values form a tuple `ρ`; while a map is read, the values found so
far, none for a field not yet met, form a tuple `σ`. -/
inductive Fields : (ρ σ : Type) → Type 1 where
  | nil : Fields Unit Unit
  | cons {α ρ σ : Type} (field : Field α) (rest : Fields ρ σ) : Fields (α × ρ) (Option α × σ)

namespace Fields

/-- No value found yet. -/
def vacant : {ρ σ : Type} → Fields ρ σ → σ
  | _, _, .nil => ()
  | _, _, .cons _ rest => (none, vacant rest)

/-- How many fields there are. -/
def size : {ρ σ : Type} → Fields ρ σ → Nat
  | _, _, .nil => 0
  | _, _, .cons _ rest => rest.size + 1

/-! ## Reading from a map -/

/-- Takes the member of a map. One that has no field is passed over. -/
def fill (room : Nat) (name : String) (t : Tree) :
    {ρ σ : Type} → Fields ρ σ → σ → Except Fault σ
  | _, _, .nil, slots => .ok slots
  | _, _, .cons field rest, (slot, slots) =>
    if name = field.name then
      if slot.isSome then .error (.shape [] (.duplicate name))
      else do
        let a ← (Step.field name).within (field.read room t)
        return (some a, slots)
    else do
      let slots ← fill room name t rest slots
      return (slot, slots)

/-- The tuple of all values, once every member is taken. -/
def finish : {ρ σ : Type} → Fields ρ σ → σ → Except Fault ρ
  | _, _, .nil, _ => .ok ()
  | _, _, .cons field rest, (slot, slots) => do
    let a ← match slot, field.absent with
      | some a, _ => .ok a
      | none, .inMap a => .ok a
      | none, .anywhere a => .ok a
      | none, .refused => .error (.shape [] (.missing field.name))
    let as ← finish rest slots
    return (a, as)

/-- Takes the members of a map in their order. -/
def readMembers {ρ σ : Type} (fields : Fields ρ σ) (room : Nat) (whole : Bool) :
    σ → List (Spelled × Tree) → Except Fault ρ
  | slots, [] => if whole then fields.finish slots else .error .malformed
  | slots, (some name, t) :: rest => do
    let slots ← fields.fill room name t slots
    readMembers fields room whole slots rest
  | _, (none, _) :: _ => .error .malformed

/-! ## Reading from a sequence -/

/-- Takes the items of a sequence, the first one having index `i`, for the fields of a record with
the given name and number of fields. -/
def readItems (record : String) (size room : Nat) (whole : Bool) :
    {ρ σ : Type} → Fields ρ σ → (i : Nat) → List Tree → Except Fault ρ
  | _, _, .nil, _, items => if whole && items.isEmpty then .ok () else .error .malformed
  | _, _, .cons field rest, i, t :: items => do
    let a ← (Step.index i).within (field.read room t)
    let as ← readItems record size room whole rest (i + 1) items
    return (a, as)
  | _, _, .cons field rest, i, [] =>
    if whole then
      match field.absent with
      | .anywhere a => do
        let as ← readItems record size room whole rest (i + 1) []
        return (a, as)
      | _ => .error (.shape [] (.wrongLength i record size))
    else .error .malformed

/-! ## Writing -/

/-- The members of a record, in the order of its fields. -/
def write : {ρ σ : Type} → Fields ρ σ → ρ → List (String × Json)
  | _, _, .nil, _ => []
  | _, _, .cons field rest, (a, as) =>
    match field.write a with
    | some j => (field.name, j) :: write rest as
    | none => write rest as

end Fields

/-- The codec of a record with the given name and fields. -/
def Codec.record {α ρ σ : Type} (name : String) (fields : Fields ρ σ) (ofTuple : ρ → α)
    (toTuple : α → ρ) : Codec α where
  read room t := match t with
    | .map members whole =>
      if room = 0 then .error .malformed
      else ofTuple <$> fields.readMembers (room - 1) whole fields.vacant members
    | .sequence items whole =>
      if room = 0 then .error .malformed
      else ofTuple <$> fields.readItems name fields.size (room - 1) whole 0 items
    | .nameless _ => .error .malformed
    | t => .error (t.refuse ("struct " ++ name))
  write a := .object (fields.write (toTuple a))

end ControlPlane
