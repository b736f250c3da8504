import ControlPlane.Proofs.Json.Record

/-!
# Records that are read again: field by field

A record may hold a value that is written and not read again, and then the record is not read again
either. But if it is, each of its fields has what is read of the value that was written in it,
whatever the other ones hold (`Codec.rereads_of_ofBytes_toBytes`).
-/

namespace ControlPlane

namespace Field

variable {α : Type}

/-- Whether a value is what is read in a field where the other one was written. -/
def Rereads (f : Field α) (room : Nat) (a b : α) : Prop :=
  match f.write a with
  | some j => f.read room (Tree.ofJson j) = .ok b
  | none => f.absent.value? = some b

/-- A field that may have no value and whose value can be read again. -/
theorem Rereads.optional {name : String} {c : Codec α} (l : c.Laws) (hn : ∀ a, c.write a ≠ .null)
    {room : Nat} {o o' : Option α} (hf : ∀ a, o = some a → l.Fits room a)
    (h : (Field.optional name c).Rereads room o o') : o' = o.map l.settle := by
  unfold Rereads at h
  cases o with
  | none => exact (Option.some.inj h).symm
  | some a =>
    have hr := readOptional_ofJson (hn a) (l.read_write (hf a rfl))
    exact Except.ok.inj (h.symm.trans hr)

end Field

namespace Fields

/-- Whether values are what is read in fields where the other ones were written. -/
def Rereads (room : Nat) : {ρ σ : Type} → Fields ρ σ → ρ → ρ → Prop
  | _, _, .nil, _, _ => True
  | _, _, .cons f rest, (a, as), (b, bs) => f.Rereads room a b ∧ rest.Rereads room as bs

variable {room : Nat}

/-- Members without the name of the first field are read for the other ones. -/
theorem of_readMembers_cons {α ρ σ : Type} (f : Field α) (rest : Fields ρ σ)
    {ms : List (String × Json)} (hn : ∀ m ∈ ms, m.1 ≠ f.name) (slot : Option α) (slots : σ)
    {b : α} {bs : ρ}
    (h : (Fields.cons f rest).readMembers room true (slot, slots) (Tree.ofMembers ms) =
      .ok (b, bs)) :
    (slot <|> f.absent.value?) = some b ∧
      rest.readMembers room true slots (Tree.ofMembers ms) = .ok bs := by
  induction ms generalizing slots with
  | nil =>
    replace h : (Fields.cons f rest).finish (slot, slots) = .ok (b, bs) := h
    rw [Laws.finish_cons] at h
    split at h
    · rename_i a ha
      obtain ⟨as, has, he⟩ := Except.map_eq_ok.1 h
      obtain ⟨rfl, rfl⟩ := Prod.mk.inj he
      exact ⟨ha, has⟩
    · cases h
  | cons m ms ih =>
    obtain ⟨name, j⟩ := m
    have hne : name ≠ f.name := hn (name, j) List.mem_cons_self
    rw [Tree.ofMembers, readMembers, Except.bind_eq_ok] at h
    obtain ⟨filled, hf, h⟩ := h
    unfold fill at hf
    rw [if_neg hne] at hf
    obtain ⟨slots', hs, he⟩ := Except.bind_eq_ok.1 hf
    obtain rfl := Except.ok.inj he
    obtain ⟨hb, hr⟩ := ih (fun m hm => hn m (List.mem_cons_of_mem _ hm)) slots' h
    refine ⟨hb, ?_⟩
    rw [Tree.ofMembers, readMembers, hs]
    exact hr

/-- What is read of the fields that were written is read field by field. -/
theorem rereads_of_readMembers_write {ρ σ : Type} (fs : Fields ρ σ) (hn : fs.names.Nodup)
    {as bs : ρ}
    (h : fs.readMembers room true fs.vacant (Tree.ofMembers (fs.write as)) = .ok bs) :
    fs.Rereads room as bs := by
  induction fs with
  | nil => trivial
  | @cons α ρ σ f rest ih =>
    obtain ⟨a, as⟩ := as
    obtain ⟨b, bs⟩ := bs
    obtain ⟨hnot, hn⟩ := List.nodup_cons.1 hn
    have hrest : ∀ m ∈ rest.write as, m.1 ≠ f.name := by
      intro m hm he
      exact hnot (he ▸ rest.mem_names_of_mem_write hm)
    unfold write at h
    unfold Rereads Field.Rereads
    cases hw : f.write a with
    | none =>
      rw [hw] at h
      obtain ⟨hb, hr⟩ := of_readMembers_cons f rest hrest none rest.vacant h
      exact ⟨hb, ih hn hr⟩
    | some j =>
      rw [hw] at h
      dsimp only at h
      rw [Tree.ofMembers, readMembers, Except.bind_eq_ok] at h
      obtain ⟨filled, hf, h⟩ := h
      replace hf : (Fields.cons f rest).fill room f.name (Tree.ofJson j) (none, rest.vacant) =
          .ok filled := hf
      unfold fill at hf
      rw [if_pos rfl] at hf
      obtain ⟨c, hc, he⟩ := Except.bind_eq_ok.1 hf
      obtain rfl := Except.ok.inj he
      obtain ⟨hb, hr⟩ := of_readMembers_cons f rest hrest (some c) rest.vacant h
      obtain rfl : c = b := Option.some.inj hb
      exact ⟨Codec.within_eq_ok.1 hc, ih hn hr⟩

end Fields

namespace Codec

variable {α : Type}

/-- The bytes of a value are read as the document that it is written as. -/
theorem read_of_ofBytes_toBytes {c : Codec α} {a b : α} (h : c.ofBytes (c.toBytes a) = .ok b) :
    c.read Tree.depthLimit (Tree.ofJson (c.write a)) = .ok b := by
  have ht := Tree.ofText_render (c.write a) Number.ends_nil
  rw [List.append_nil] at ht
  unfold ofBytes toBytes Json.toBytes Text.ofBytes at h
  rw [Utf8.symbols_encode] at h
  replace h : c.readText (Text.ofChars (c.write a).render) = .ok b := h
  unfold readText at h
  rw [ht] at h
  obtain ⟨a', ha, h⟩ := Except.bind_eq_ok.1 h
  split at h
  · split at h
    · exact Except.ok.inj h ▸ ha
    · cases h
  · cases h

/-- What is read of a record that was written has in each field what is read there. -/
theorem rereads_of_ofBytes_toBytes {ρ σ : Type} {name : String} {fs : Fields ρ σ}
    {ofTuple : ρ → α} {toTuple : α → ρ} (hn : fs.names.Nodup)
    (hto : ∀ as, toTuple (ofTuple as) = as) {a b : α}
    (h : (Codec.record name fs ofTuple toTuple).ofBytes
      ((Codec.record name fs ofTuple toTuple).toBytes a) = .ok b) :
    fs.Rereads (Tree.depthLimit - 1) (toTuple a) (toTuple b) := by
  have hr := read_of_ofBytes_toBytes h
  replace hr : (Codec.record name fs ofTuple toTuple).read Tree.depthLimit
    (.map (Tree.ofMembers (fs.write (toTuple a))) true) = .ok b := hr
  simp only [Codec.record] at hr
  rw [if_neg (by decide)] at hr
  obtain ⟨bs, hbs, rfl⟩ := Except.map_eq_ok.1 hr
  rw [hto]
  exact fs.rereads_of_readMembers_write hn hbs

end Codec

end ControlPlane
