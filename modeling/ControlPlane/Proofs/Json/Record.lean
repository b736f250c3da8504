import ControlPlane.Json.Record
import ControlPlane.Proofs.Json.Codec

/-!
# Laws of records

The laws of the fields of a record are those of the record (`Codec.Laws.record`), if no two fields
have one name. A field that is left out when the record is written is one whose value stands for it
when it is absent.
-/

namespace ControlPlane

/-! ## Fields -/

/-- What stands for a field that is absent from a map, if anything does. -/
def Absent.value? {α : Type} : Absent α → Option α
  | .refused => none
  | .inMap a | .anywhere a => some a

/-- The laws of a field. Below `need` levels its default finds no room. -/
structure Field.Laws {α : Type} (f : Field α) where
  need : Nat
  Fits : Nat → α → Prop
  settle : α → α
  fits_of_read : ∀ {room : Nat} {t : Tree} {a : α}, need ≤ room → t.Fits →
    f.read room t = .ok a → Fits room a
  fits_absent : ∀ {room : Nat} {a : α}, need ≤ room → f.absent.value? = some a → Fits room a
  read_write : ∀ {room : Nat} {a : α} {j : Json}, Fits room a → f.write a = some j →
    f.read room (Tree.ofJson j) = .ok (settle a)
  left_out : ∀ {a : α}, f.write a = none → f.absent.value? = some (settle a)
  fits_mono : ∀ {room more : Nat} {a : α}, room ≤ more → Fits room a → Fits more a

namespace Field

/-- A field that must be given. -/
def Laws.required {α : Type} {name : String} {c : Codec α} (l : c.Laws) :
    Laws (.required name c) where
  need := l.need
  Fits := l.Fits
  settle := l.settle
  fits_of_read := l.fits_of_read
  fits_absent _ h := by simp [Field.required, Absent.value?] at h
  read_write {room a j} h hj := by
    obtain rfl : c.write a = j := Option.some.inj hj
    exact l.read_write h
  left_out h := by simp [Field.required] at h
  fits_mono := l.fits_mono

/-- A field with a default that fits. -/
def Laws.orElse {α : Type} {name : String} {c : Codec α} {default : α} (l : c.Laws)
    (hd : ∀ room, l.need ≤ room → l.Fits room default) : Laws (.orElse name default c) where
  need := l.need
  Fits := l.Fits
  settle := l.settle
  fits_of_read := l.fits_of_read
  fits_absent {room a} hr h := by
    obtain rfl : default = a := Option.some.inj h
    exact hd room hr
  read_write {room a j} h hj := by
    obtain rfl : c.write a = j := Option.some.inj hj
    exact l.read_write h
  left_out h := by simp [Field.orElse] at h
  fits_mono := l.fits_mono

theorem readOptional_eq_ok {α : Type} {read : Decoder α} {room : Nat} {t : Tree} {o : Option α}
    (h : readOptional read room t = .ok o) : o = none ∨ ∃ a, o = some a ∧ read room t = .ok a := by
  unfold readOptional at h
  split at h
  · exact .inl (Except.ok.inj h).symm
  · obtain ⟨a, ha, rfl⟩ := Except.map_eq_ok.1 h
    exact .inr ⟨a, rfl, ha⟩

theorem readOptional_ofJson {α : Type} {read : Decoder α} {room : Nat} {j : Json} {a : α}
    (hj : j ≠ .null) (h : read room (Tree.ofJson j) = .ok a) :
    readOptional read room (Tree.ofJson j) = .ok (some a) := by
  have hn : Tree.ofJson j ≠ .null := by
    cases j with
    | null => exact absurd rfl hj
    | _ => simp [Tree.ofJson]
  unfold readOptional
  split
  · rename_i ht
    exact absurd ht hn
  · rw [h]
    rfl

/-- A field that may have no value; what is written for one is never a null. -/
def Laws.optional {α : Type} {name : String} {c : Codec α} (l : c.Laws)
    (hn : ∀ a, c.write a ≠ .null) : Laws (.optional name c) where
  need := l.need
  Fits room o := ∀ a, o = some a → l.Fits room a
  settle := Option.map l.settle
  fits_of_read {room t o} hr ht h := by
    rintro a rfl
    rcases readOptional_eq_ok h with h | ⟨b, hb, h⟩
    · simp at h
    · obtain rfl := Option.some.inj hb
      exact l.fits_of_read hr ht h
  fits_absent {room o} _ h := by
    obtain rfl : none = o := Option.some.inj h
    simp
  read_write {room o j} h hj := by
    obtain ⟨a, rfl, rfl⟩ := Option.map_eq_some_iff.1 hj
    exact readOptional_ofJson (hn a) (l.read_write (h a rfl))
  left_out {o} h := by
    obtain rfl := Option.map_eq_none_iff.1 h
    rfl
  fits_mono hm h a ha := l.fits_mono hm (h a ha)

/-- A field of a request that may be left out. -/
def Laws.ifGiven {α : Type} {name : String} {c : Codec α} (l : c.Laws)
    (hn : ∀ a, c.write a ≠ .null) : Laws (.ifGiven name c) where
  need := l.need
  Fits room o := ∀ a, o = some a → l.Fits room a
  settle := Option.map l.settle
  fits_of_read := (.optional l hn : Laws (.optional name c)).fits_of_read
  fits_absent {room o} _ h := by
    obtain rfl : none = o := Option.some.inj h
    simp
  read_write := (.optional l hn : Laws (.optional name c)).read_write
  left_out {o} h := by
    obtain rfl := Option.map_eq_none_iff.1 h
    rfl
  fits_mono := (.optional l hn : Laws (.optional name c)).fits_mono

end Field

namespace Fields

/-- The names of the fields. -/
def names : {ρ σ : Type} → Fields ρ σ → List String
  | _, _, .nil => []
  | _, _, .cons f rest => f.name :: rest.names

theorem mem_names_of_mem_write {ρ σ : Type} (fs : Fields ρ σ) {as : ρ} {m : String × Json}
    (h : m ∈ fs.write as) : m.1 ∈ fs.names := by
  induction fs with
  | nil => simp [write] at h
  | cons f rest ih =>
    obtain ⟨a, as⟩ := as
    unfold write at h
    split at h
    · rcases List.mem_cons.1 h with rfl | h
      · exact List.mem_cons_self
      · exact List.mem_cons_of_mem _ (ih h)
    · exact List.mem_cons_of_mem _ (ih h)

/-- The laws of the fields of a record. -/
inductive Laws : {ρ σ : Type} → Fields ρ σ → Type 1 where
  | nil : Laws .nil
  | cons {α ρ σ : Type} {f : Field α} {rest : Fields ρ σ} (l : f.Laws) (ls : Laws rest) :
    Laws (.cons f rest)

namespace Laws

/-- The most levels that a default takes. -/
def need : {ρ σ : Type} → {fs : Fields ρ σ} → Laws fs → Nat
  | _, _, _, .nil => 0
  | _, _, _, .cons l ls => max l.need ls.need

/-- Whether all values are ones that are read. -/
def Fits (room : Nat) : {ρ σ : Type} → {fs : Fields ρ σ} → Laws fs → ρ → Prop
  | _, _, _, .nil, _ => True
  | _, _, _, .cons l ls, (a, as) => l.Fits room a ∧ ls.Fits room as

/-- Whether all values found so far are ones that are read. -/
def FitsSlots (room : Nat) : {ρ σ : Type} → {fs : Fields ρ σ} → Laws fs → σ → Prop
  | _, _, _, .nil, _ => True
  | _, _, _, .cons l ls, (slot, slots) => (∀ a, slot = some a → l.Fits room a) ∧
    ls.FitsSlots room slots

/-- The values after they were written and read. -/
def settle : {ρ σ : Type} → {fs : Fields ρ σ} → Laws fs → ρ → ρ
  | _, _, _, .nil, as => as
  | _, _, _, .cons l ls, (a, as) => (l.settle a, ls.settle as)

/-! ### What is read -/

variable {room : Nat}

theorem fits_mono {more : Nat} (hm : room ≤ more) {ρ σ : Type} {fs : Fields ρ σ} (ls : Laws fs)
    {as : ρ} (h : ls.Fits room as) : ls.Fits more as := by
  induction ls with
  | nil => trivial
  | cons l ls ih => exact ⟨l.fits_mono hm h.1, ih h.2⟩

theorem fitsSlots_vacant {ρ σ : Type} {fs : Fields ρ σ} (ls : Laws fs) :
    ls.FitsSlots room fs.vacant := by
  induction ls with
  | nil => trivial
  | cons l ls ih => exact ⟨by simp, ih⟩

theorem fitsSlots_fill {name : String} {t : Tree} (ht : t.Fits) {ρ σ : Type} {fs : Fields ρ σ}
    (ls : Laws fs) (hn : ls.need ≤ room) {slots filled : σ} (hs : ls.FitsSlots room slots)
    (h : fs.fill room name t slots = .ok filled) : ls.FitsSlots room filled := by
  induction ls with
  | nil => trivial
  | cons l ls ih =>
    obtain ⟨slot, slots⟩ := slots
    obtain ⟨hl, hls⟩ := Nat.max_le.1 hn
    unfold fill at h
    split at h
    · split at h
      · simp at h
      · obtain ⟨a, ha, h⟩ := Except.bind_eq_ok.1 h
        obtain rfl := Except.ok.inj h
        refine ⟨?_, hs.2⟩
        intro b hb
        obtain rfl := Option.some.inj hb
        exact l.fits_of_read hl ht (Codec.within_eq_ok.1 ha)
    · obtain ⟨rest, hr, h⟩ := Except.bind_eq_ok.1 h
      obtain rfl := Except.ok.inj h
      exact ⟨hs.1, ih hls hs.2 hr⟩

/-- A field has the value found for it, or else the one that stands for it. -/
theorem finish_cons {α ρ σ : Type} (f : Field α) (rest : Fields ρ σ) (slot : Option α)
    (slots : σ) : (Fields.cons f rest).finish (slot, slots) =
      match slot <|> f.absent.value? with
      | some a => (fun as => (a, as)) <$> rest.finish slots
      | none => .error (.shape [] (.missing f.name)) := by
  rw [finish.eq_def]
  dsimp only
  generalize rest.finish slots = x
  cases slot with
  | some a => cases x <;> rfl
  | none =>
    cases f.absent with
    | refused => rfl
    | inMap a | anywhere a => cases x <;> rfl

theorem fits_finish {ρ σ : Type} {fs : Fields ρ σ} (ls : Laws fs) (hn : ls.need ≤ room)
    {slots : σ} (hs : ls.FitsSlots room slots) {as : ρ} (h : fs.finish slots = .ok as) :
    ls.Fits room as := by
  induction ls with
  | nil => trivial
  | @cons α ρ σ f rest l ls ih =>
    obtain ⟨slot, slots⟩ := slots
    obtain ⟨hl, hls⟩ := Nat.max_le.1 hn
    rw [finish_cons] at h
    cases ha : slot <|> f.absent.value? with
    | none =>
      rw [ha] at h
      simp at h
    | some a =>
      rw [ha] at h
      obtain ⟨bs, hb, rfl⟩ := Except.map_eq_ok.1 h
      refine ⟨?_, ih hls hs.2 hb⟩
      cases slot with
      | some b => exact hs.1 a ha
      | none => exact l.fits_absent hl ha

theorem fits_readMembers {ρ σ : Type} {fs : Fields ρ σ} (ls : Laws fs) (hn : ls.need ≤ room)
    {whole : Bool} {members : List (Spelled × Tree)} (ht : Tree.FitsMembers members) {slots : σ}
    (hs : ls.FitsSlots room slots) {as : ρ}
    (h : fs.readMembers room whole slots members = .ok as) : ls.Fits room as := by
  induction members generalizing slots with
  | nil =>
    unfold readMembers at h
    split at h
    · exact fits_finish ls hn hs h
    · simp at h
  | cons m members ih =>
    obtain ⟨_ | name, t⟩ := m
    · simp [readMembers] at h
    · rw [readMembers, Except.bind_eq_ok] at h
      obtain ⟨filled, hf, h⟩ := h
      exact ih ht.2 (fitsSlots_fill ht.1 ls hn hs hf) h

theorem fits_readItems {record : String} {size : Nat} {whole : Bool} {ρ σ : Type}
    {fs : Fields ρ σ} (ls : Laws fs) (hn : ls.need ≤ room) {i : Nat} {items : List Tree}
    (ht : Tree.FitsItems items) {as : ρ}
    (h : fs.readItems record size room whole i items = .ok as) : ls.Fits room as := by
  induction ls generalizing i items with
  | nil => trivial
  | @cons α ρ σ f rest l ls ih =>
    obtain ⟨hl, hls⟩ := Nat.max_le.1 hn
    cases items with
    | nil =>
      unfold readItems at h
      split at h
      · cases hf : f.absent with
        | refused | inMap b => simp [hf] at h
        | anywhere b =>
          rw [hf] at h
          obtain ⟨bs, hb, h⟩ := Except.bind_eq_ok.1 h
          obtain rfl := Except.ok.inj h
          exact ⟨l.fits_absent hl (by rw [hf]; rfl), ih hls ht hb⟩
      · simp at h
    | cons t items =>
      rw [readItems, Except.bind_eq_ok] at h
      obtain ⟨a, ha, h⟩ := h
      obtain ⟨bs, hb, h⟩ := Except.bind_eq_ok.1 h
      obtain rfl := Except.ok.inj h
      exact ⟨l.fits_of_read hl ht.1 (Codec.within_eq_ok.1 ha), ih hls ht.2 hb⟩

/-! ### What is written -/

/-- Members without the name of the first field go on to the other ones. -/
theorem readMembers_cons_of_notMem {α ρ σ : Type} (f : Field α) (rest : Fields ρ σ)
    {ms : List (String × Json)} (hn : ∀ m ∈ ms, m.1 ≠ f.name) (slot : Option α) (slots : σ)
    {as : ρ} (h : rest.readMembers room true slots (Tree.ofMembers ms) = .ok as) {a : α}
    (ha : (slot <|> f.absent.value?) = some a) :
    (Fields.cons f rest).readMembers room true (slot, slots) (Tree.ofMembers ms) =
      .ok (a, as) := by
  induction ms generalizing slots with
  | nil =>
    have hf : rest.finish slots = .ok as := h
    show (Fields.cons f rest).finish (slot, slots) = .ok (a, as)
    rw [finish_cons, ha, hf]
    rfl
  | cons m ms ih =>
    obtain ⟨name, j⟩ := m
    rw [Tree.ofMembers, readMembers, Except.bind_eq_ok] at h
    obtain ⟨filled, hf, h⟩ := h
    have hne : name ≠ f.name := hn (name, j) List.mem_cons_self
    have hfill : (Fields.cons f rest).fill room name (Tree.ofJson j) (slot, slots) =
        .ok (slot, filled) := by
      unfold fill
      rw [if_neg hne, hf]
      rfl
    rw [Tree.ofMembers, readMembers, hfill]
    exact ih (fun m hm => hn m (List.mem_cons_of_mem _ hm)) filled h

/-- What is written of the fields is read again, whatever the fields are. -/
theorem readMembers_write {ρ σ : Type} {fs : Fields ρ σ} (ls : Laws fs) (hn : fs.names.Nodup)
    {as : ρ} (h : ls.Fits room as) :
    fs.readMembers room true fs.vacant (Tree.ofMembers (fs.write as)) = .ok (ls.settle as) := by
  induction ls with
  | nil => rfl
  | @cons α ρ σ f rest l ls ih =>
    obtain ⟨a, as⟩ := as
    obtain ⟨hnot, hn⟩ := List.nodup_cons.1 hn
    have hrest : ∀ m ∈ rest.write as, m.1 ≠ f.name := fun m hm he =>
      hnot (he ▸ rest.mem_names_of_mem_write hm)
    have ih := ih hn h.2
    unfold write
    cases hw : f.write a with
    | none =>
      exact readMembers_cons_of_notMem f rest hrest none rest.vacant ih (l.left_out hw)
    | some j =>
      have hfill : (Fields.cons f rest).fill room f.name (Tree.ofJson j) (none, rest.vacant) =
          .ok (some (l.settle a), rest.vacant) := by
        unfold fill
        rw [if_pos rfl, l.read_write h.1 hw]
        rfl
      dsimp only
      rw [Tree.ofMembers, readMembers]
      show (Fields.cons f rest).fill room f.name (Tree.ofJson j) (none, rest.vacant) >>= _ = _
      rw [hfill]
      exact readMembers_cons_of_notMem f rest hrest (some (l.settle a)) rest.vacant ih rfl

end Laws

end Fields

namespace Codec

/-- A record, given the laws of its fields. -/
def Laws.record {α ρ σ : Type} {name : String} {fs : Fields ρ σ} {ofTuple : ρ → α}
    {toTuple : α → ρ} (ls : Fields.Laws fs) (hn : fs.names.Nodup)
    (hto : ∀ as, toTuple (ofTuple as) = as) : Laws (.record name fs ofTuple toTuple) where
  need := ls.need + 1
  Fits room a := 1 ≤ room ∧ ls.Fits (room - 1) (toTuple a)
  settle a := ofTuple (ls.settle (toTuple a))
  fits_of_read {room t a} hr ht h := by
    have hne : room ≠ 0 := by omega
    have hls : ls.need ≤ room - 1 := by omega
    match t, ht, h with
    | .map members whole, ht, h =>
      simp only [Codec.record, if_neg hne] at h
      obtain ⟨as, has, rfl⟩ := Except.map_eq_ok.1 h
      rw [hto]
      exact ⟨by omega, ls.fits_readMembers hls ht ls.fitsSlots_vacant has⟩
    | .sequence items whole, ht, h =>
      simp only [Codec.record, if_neg hne] at h
      obtain ⟨as, has, rfl⟩ := Except.map_eq_ok.1 h
      rw [hto]
      exact ⟨by omega, ls.fits_readItems hls ht has⟩
  read_write {room a} h := by
    obtain ⟨hr, h⟩ := h
    have hne : room ≠ 0 := by omega
    show (Codec.record name fs ofTuple toTuple).read room
      (.map (Tree.ofMembers (fs.write (toTuple a))) true) = _
    simp only [Codec.record, if_neg hne]
    rw [ls.readMembers_write hn h]
    rfl
  fits_mono hm h := ⟨h.1.trans hm, ls.fits_mono (by omega) h.2⟩

end Codec

end ControlPlane
