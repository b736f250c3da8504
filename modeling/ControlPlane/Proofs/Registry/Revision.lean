import ControlPlane.Proofs.Registry.Finds
import ControlPlane.Proofs.Store.Touch

/-!
# Registries: revising a record

Many decisions look a record up, make another one of it and write that in its place. On the map of a
store such a decision is a touch of the record (`Registry.touch`): a store that works undergoes it,
and any other store either does or stays as it is (`Backing.Undergoes.of_perform`). Where there is
no record, or nothing can be made of it, the touch leaves everything as it is.
-/

namespace ControlPlane

namespace Registry

variable {α : Type} {r : Registry α} {s : Store} {id : String} {a a' : α} {bs : Bytes}
  {f : α → Except RegistryError α}

/-! ## Revised records -/

/-- What is made of the record that bytes under an id stand for, if they do and it succeeds. -/
def revise? (r : Registry α) (id : String) (f : α → Except RegistryError α) (bs : Bytes) :
    Option α :=
  if id = "" then none
  else
    match r.codec.ofBytes bs with
    | .ok a => (f a).toOption
    | .error _ => none

/-- The touch that puts what is made of a record in its place. -/
def touch (r : Registry α) (id : String) (f : α → Except RegistryError α) : Touch where
  key := r.key id
  change bs := ((r.revise? id f bs).map r.codec.toBytes).getD bs

theorem revise?_of_ok (hid : id ≠ "") (ha : r.codec.ofBytes bs = .ok a) (hf : f a = .ok a') :
    r.revise? id f bs = some a' := by
  simp [revise?, hid, ha, hf, Except.toOption]

theorem revise?_eq_some : r.revise? id f bs = some a' ↔
    id ≠ "" ∧ ∃ a, r.codec.ofBytes bs = .ok a ∧ f a = .ok a' := by
  constructor
  · intro h
    unfold revise? at h
    split at h
    · cases h
    · rename_i hid
      split at h
      · rename_i a ha
        exact ⟨hid, a, ha, Except.toOption_eq_some.1 h⟩
      · cases h
  · rintro ⟨hid, a, ha, hf⟩
    exact revise?_of_ok hid ha hf

theorem touch_change_of_ok (hid : id ≠ "") (ha : r.codec.ofBytes bs = .ok a) (hf : f a = .ok a') :
    (r.touch id f).change bs = r.codec.toBytes a' := by
  simp [touch, revise?_of_ok hid ha hf]

/-- A touch leaves bytes alone that nothing can be made of. -/
theorem touch_change_of_none (h : r.revise? id f bs = none) : (r.touch id f).change bs = bs := by
  simp [touch, h]

/-- A record that has to be there is looked up and revised, or there is an error. -/
theorem require_revise (r : Registry α) (id : String) (f : α → Except RegistryError α)
    (hs : s.Plain) :
    (∃ bs a', s.data.get? (r.key id) = some bs ∧ r.revise? id f bs = some a' ∧
      (r.require s id >>= f) = .ok a') ∨
    (∀ bs, s.data.get? (r.key id) = some bs → r.revise? id f bs = none) ∧
      ∃ e, (r.require s id >>= f) = .error e := by
  cases hx : (r.require s id >>= f) with
  | ok a' =>
    obtain ⟨a, ha, hf⟩ := Except.bind_eq_ok.1 hx
    obtain ⟨hid, bs, hbs, hread⟩ := (require_eq_ok hs).1 ha
    exact .inl ⟨bs, a', hbs, revise?_of_ok hid hread hf, rfl⟩
  | error e =>
    refine .inr ⟨?_, e, rfl⟩
    intro bs hbs
    refine Option.eq_none_iff_forall_ne_some.2 ?_
    intro a' ha'
    obtain ⟨hid, a, hread, hf⟩ := revise?_eq_some.1 ha'
    have ha : r.require s id = .ok a := (require_eq_ok hs).2 ⟨hid, bs, hbs, hread⟩
    have hok : (r.require s id >>= f) = .ok a' := Except.bind_eq_ok.2 ⟨a, ha, hf⟩
    rw [hx] at hok
    cases hok

/-- Writing what is made of a record is the touch of the record. -/
theorem touched_write {m : KeyMap} (hbs : m.get? (r.key id) = some bs)
    (hf : r.revise? id f bs = some a') : m.Touched [r.touch id f] ((r.write id a').apply m) := by
  have hget : ∀ key, ((r.write id a').apply m).get? key =
      if key = r.key id then some (r.codec.toBytes a') else m.get? key :=
    m.get?_insert _ _
  refine .of_touch ?_ ?_
  · show ((r.write id a').apply m).get? (r.key id) = (m.get? (r.key id)).map _
    simp [hget, hbs, touch, hf]
  · intro key hkey
    have hne : key ≠ r.key id := hkey
    rw [hget, if_neg hne]

/-- Where nothing can be made of a record its touch changes nothing. -/
theorem touched_of_none {m : KeyMap}
    (h : ∀ bs, m.get? (r.key id) = some bs → r.revise? id f bs = none) :
    m.Touched [r.touch id f] m := by
  refine .of_touch ?_ fun _ _ => rfl
  show m.get? (r.key id) = (m.get? (r.key id)).map _
  cases hbs : m.get? (r.key id) with
  | none => rfl
  | some bs => rw [Option.map_some, touch_change_of_none (h bs hbs)]

end Registry

/-! ## Stores that undergo touches -/

namespace Backing

variable {ts ts' : List Touch} {b b' b'' : Backing}

/-- Whether a store that works undergoes touches, and any other store some of them. -/
structure Undergoes (ts : List Touch) (b b' : Backing) : Prop where
  works : b.Works → b'.Works ∧ b.store.data.Touched ts b'.store.data
  plain : b.store.Plain → b'.store.Plain ∧
    ∃ some, List.Sublist some ts ∧ b.store.data.Touched some b'.store.data

namespace Undergoes

theorem refl (b : Backing) : Undergoes [] b b where
  works h := ⟨h, .refl _⟩
  plain h := ⟨h, [], .slnil, .refl _⟩

theorem trans (h : Undergoes ts b b') (h' : Undergoes ts' b' b'') :
    Undergoes (ts ++ ts') b b'' where
  works hb := by
    obtain ⟨hb', ht⟩ := h.works hb
    obtain ⟨hb'', ht'⟩ := h'.works hb'
    exact ⟨hb'', ht.trans ht'⟩
  plain hb := by
    obtain ⟨hb', us, hus, ht⟩ := h.plain hb
    obtain ⟨hb'', us', hus', ht'⟩ := h'.plain hb'
    exact ⟨hb'', us ++ us', hus.append hus', ht.trans ht'⟩

/-- What is not touched stays, even where something fails. -/
theorem get?_eq (h : Undergoes ts b b') (hb : b.store.Plain) {key : String}
    (hkey : Touch.on key ts = []) : b'.store.data.get? key = b.store.data.get? key := by
  obtain ⟨-, us, hus, ht⟩ := h.plain hb
  have hsub : (Touch.on key us).Sublist [] := hkey ▸ hus.filter _
  exact ht.get?_eq (List.sublist_nil.1 hsub)

/-- What is touched once stays or is touched. -/
theorem get?_of_once (h : Undergoes ts b b') (hb : b.store.Plain) {key : String} {t : Touch}
    (hkey : Touch.on key ts = [t]) : b'.store.data.get? key = b.store.data.get? key ∨
      b'.store.data.get? key = (b.store.data.get? key).map t.change := by
  obtain ⟨-, us, hus, ht⟩ := h.plain hb
  have hsub : (Touch.on key us).Sublist [t] := hkey ▸ hus.filter _
  rcases List.sublist_singleton.1 hsub with hnone | hone
  · exact .inl (ht.get?_eq hnone)
  · refine .inr ?_
    rw [ht key, hone, Touch.run_cons, Touch.run_nil]

variable {α β : Type} {r : Registry α} {id : String} {f : α → Except RegistryError α}

/-- A decision to put what is made of a record in its place is a touch of the record. -/
theorem of_perform {g : α → β} {decision : Except RegistryError (Change × β)}
    (hd : decision = (r.require b.store id >>= f).map fun a => (r.write id a, g a)) :
    Undergoes [r.touch id f] b (b.perform decision).2 := by
  have hcases (hs : b.store.Plain) := r.require_revise id f hs
  constructor
  · intro hb
    rcases hcases hb.plain with ⟨bs, a, hbs, ha, hok⟩ | ⟨hnone, e, herror⟩
    · obtain ⟨b', hc, hb', hdata⟩ := hb.commit (c := r.write id a) (r.key_ne_empty id)
      rw [hd, hok]
      simp only [Except.map, perform, hc]
      rw [hdata]
      exact ⟨hb', Registry.touched_write hbs ha⟩
    · rw [hd, herror]
      exact ⟨hb, Registry.touched_of_none hnone⟩
  · intro hb
    rcases hp : b.perform decision with ⟨x, b'⟩
    obtain ⟨hb', ⟨e, -, hdata⟩ | ⟨c, result, hdecision, -, hdata⟩⟩ := perform_spec hb hp
    · rw [hdata]
      exact ⟨hb', [], List.nil_sublist _, .refl _⟩
    · refine ⟨hb', _, .refl _, ?_⟩
      rcases hcases hb with ⟨bs, a, hbs, ha, hok⟩ | ⟨-, e, herror⟩
      · rw [hd, hok] at hdecision
        obtain ⟨rfl, -⟩ := Prod.mk.inj (Except.ok.inj hdecision)
        rw [hdata]
        exact Registry.touched_write hbs ha
      · rw [hd, herror] at hdecision
        cases hdecision

end Undergoes

end Backing

end ControlPlane
