import ControlPlane.Text.Utf8

/-!
# Key maps

Finite maps from keys to values, kept as a list in the order of the keys, which is the order of
their bytes. `KeyMap.scan` and `KeyMap.filterKeys` are two ways to list what lies under a common
beginning of keys: one walks along the order, the other tests every key.
-/

namespace ControlPlane

/-- A map from keys to values, in the order of the keys. -/
structure KeyMap where
  entries : List (String × Bytes)
  sorted : entries.Pairwise fun a b => a.1 < b.1

namespace KeyMap

/-! ## Entries in order -/

/-- Puts an entry among entries in order, in the place of one with the same key. -/
def insertEntry (key : String) (value : Bytes) : List (String × Bytes) → List (String × Bytes)
  | [] => [(key, value)]
  | e :: rest =>
    if key < e.1 then (key, value) :: e :: rest
    else if key = e.1 then (key, value) :: rest
    else e :: insertEntry key value rest

/-- The value of a key among entries. -/
def lookup (key : String) (entries : List (String × Bytes)) : Option Bytes :=
  (entries.find? (·.1 == key)).map (·.2)

/-- Two keys of which neither comes first are one. -/
theorem eq_of_not_lt {a b : String} (h : ¬a < b) (h' : ¬b < a) : a = b :=
  String.le_antisymm (String.not_lt.1 h') (String.not_lt.1 h)

/-- Every entry after an insertion was there before or is the new one. -/
theorem mem_insertEntry {key : String} {value : Bytes} {entries : List (String × Bytes)}
    {e : String × Bytes} (h : e ∈ insertEntry key value entries) :
    e = (key, value) ∨ e ∈ entries := by
  induction entries with
  | nil => simpa [insertEntry] using h
  | cons d rest ih =>
    unfold insertEntry at h
    split at h
    · simpa using h
    · split at h
      · simp only [List.mem_cons] at h ⊢
        exact h.imp_right .inr
      · simp only [List.mem_cons] at h ⊢
        rcases h with h | h
        · exact .inr (.inl h)
        · exact (ih h).imp_right .inr

/-- An insertion keeps entries in order. -/
theorem pairwise_insertEntry (key : String) (value : Bytes) {entries : List (String × Bytes)}
    (h : entries.Pairwise fun a b => a.1 < b.1) :
    (insertEntry key value entries).Pairwise fun a b => a.1 < b.1 := by
  induction entries with
  | nil => simp [insertEntry]
  | cons d rest ih =>
    rw [List.pairwise_cons] at h
    unfold insertEntry
    split
    · rename_i lt
      refine List.pairwise_cons.2 ⟨fun e he => ?_, List.pairwise_cons.2 h⟩
      rcases List.mem_cons.1 he with rfl | he
      · exact lt
      · exact String.lt_trans lt (h.1 e he)
    · split
      · rename_i eq
        exact List.pairwise_cons.2 ⟨fun e he => eq ▸ h.1 e he, h.2⟩
      · rename_i nlt neq
        refine List.pairwise_cons.2 ⟨fun e he => ?_, ih h.2⟩
        rcases mem_insertEntry he with rfl | he
        · exact Decidable.byContradiction fun c => neq (eq_of_not_lt nlt c)
        · exact h.1 e he

/-! ## Maps -/

/-- The map without keys. -/
def empty : KeyMap := ⟨[], .nil⟩

instance : Inhabited KeyMap := ⟨empty⟩

/-- The value of a key. -/
def get? (m : KeyMap) (key : String) : Option Bytes :=
  lookup key m.entries

/-- All keys, in order. -/
def keys (m : KeyMap) : List String :=
  m.entries.map (·.1)

/-- Gives a key a value. -/
def insert (m : KeyMap) (key : String) (value : Bytes) : KeyMap :=
  ⟨insertEntry key value m.entries, pairwise_insertEntry key value m.sorted⟩

/-- Takes a key out. -/
def erase (m : KeyMap) (key : String) : KeyMap :=
  ⟨m.entries.filter (·.1 != key), m.sorted.filter _⟩

/-! ## Keys with a common beginning -/

/-- Whether a key begins with the given text. -/
def beginsWith (start key : String) : Bool :=
  start.toList.isPrefixOf key.toList

/-- The entries whose keys begin with the given text: from the first key that is not below it as
long as the keys begin with it. -/
def scan (m : KeyMap) (start : String) : List (String × Bytes) :=
  (m.entries.dropWhile fun e => e.1 < start).takeWhile fun e => beginsWith start e.1

/-- The entries of those of the given keys that begin with the given text, with the value that each
key has when it is asked for; a key without value is passed over. -/
def filterKeys (keys : List String) (value? : String → Option Bytes) (start : String) :
    List (String × Bytes) :=
  (keys.filter (beginsWith start)).filterMap fun key => (value? key).map fun value => (key, value)

end KeyMap

/-! ## Changes -/

/-- A change of the value of one key. -/
inductive Change where
  | put (key : String) (value : Bytes)
  | delete (key : String)
  deriving DecidableEq, Repr

namespace Change

/-- The key that a change concerns. -/
def key : Change → String
  | .put key _ => key
  | .delete key => key

/-- A map after a change. -/
def apply (m : KeyMap) : Change → KeyMap
  | .put key value => m.insert key value
  | .delete key => m.erase key

end Change

end ControlPlane
