import ControlPlane.Proofs.Registry.Shows
import ControlPlane.Proofs.Store.Commit

/-!
# Registries: one record

The record that is found under an id (`Registry.Finds`), how it is looked up, and what writing it
and carrying a decision out make of it, whatever else the store holds.
-/

namespace ControlPlane

namespace Registry

variable {α : Type} {r : Registry α} {m : KeyMap} {s : Store} {id : String} {a b : α}

/-- Whether the entry under an id is a record that can be read. -/
def Finds (r : Registry α) (m : KeyMap) (id : String) (a : α) : Prop :=
  ∃ bs, m.get? (r.key id) = some bs ∧ r.codec.ofBytes bs = .ok a

theorem Finds.unique (h : r.Finds m id a) (h' : r.Finds m id b) : a = b := by
  obtain ⟨bs, hbs, ha⟩ := h
  obtain ⟨bs', hbs', hb⟩ := h'
  obtain rfl := Option.some.inj (hbs.symm.trans hbs')
  exact Except.ok.inj (ha.symm.trans hb)

/-! ## Looking -/

theorem decode_eq_ok {key : String} {bs : Bytes} :
    r.decode key bs = .ok a ↔ r.codec.ofBytes bs = .ok a := by
  unfold decode
  cases r.codec.ofBytes bs <;> simp

/-- Looking up what can be looked up. -/
theorem get_eq_ok {o : Option α} (hs : s.Plain) : r.get s id = .ok o ↔ id ≠ "" ∧
    ((s.data.get? (r.key id) = none ∧ o = none) ∨ ∃ a, o = some a ∧ r.Finds s.data id a) := by
  by_cases hid : id = ""
  · subst hid
    have herror : r.get s "" = .error (.emptyId r.kind) := rfl
    simp [herror]
  unfold get
  rw [requireId_of_ne hid, hs.get?]
  cases hv : s.data.get? (r.key id) with
  | none =>
    constructor
    · intro h
      exact ⟨hid, .inl ⟨rfl, (Except.ok.inj h).symm⟩⟩
    · rintro ⟨-, ⟨-, rfl⟩ | ⟨a, -, bs, hbs, -⟩⟩
      · rfl
      · rw [hv] at hbs
        cases hbs
  | some bs =>
    constructor
    · intro h
      obtain ⟨a, ha, rfl⟩ := Except.map_eq_ok.1 h
      exact ⟨hid, .inr ⟨a, rfl, bs, hv, decode_eq_ok.1 ha⟩⟩
    · rintro ⟨-, ⟨hn, -⟩ | ⟨a, rfl, bs', hbs, ha⟩⟩
      · cases hn
      · obtain rfl := Option.some.inj (hv.symm.trans hbs)
        exact Except.map_eq_ok.2 ⟨a, decode_eq_ok.2 ha, rfl⟩

/-- Looking up a record that is there. -/
theorem get_some_iff (hs : s.Plain) :
    r.get s id = .ok (some a) ↔ id ≠ "" ∧ r.Finds s.data id a := by
  rw [get_eq_ok hs]
  simp

/-- Looking up a record that is not there. -/
theorem get_none_iff (hs : s.Plain) :
    r.get s id = .ok none ↔ id ≠ "" ∧ s.data.get? (r.key id) = none := by
  rw [get_eq_ok hs]
  simp

/-- What has to be there is looked up as what is found. -/
theorem require_eq_ok (hs : s.Plain) :
    r.require s id = .ok a ↔ id ≠ "" ∧ r.Finds s.data id a := by
  unfold require
  rw [Except.bind_eq_ok]
  constructor
  · rintro ⟨o, ho, h⟩
    obtain ⟨hid, ⟨-, rfl⟩ | ⟨b, rfl, hb⟩⟩ := (get_eq_ok hs).1 ho
    · cases h
    · obtain rfl := Except.ok.inj h
      exact ⟨hid, hb⟩
  · rintro ⟨hid, h⟩
    exact ⟨some a, (get_eq_ok hs).2 ⟨hid, .inr ⟨a, rfl, h⟩⟩, rfl⟩

/-- Looking up ends in no want of later times. -/
theorem get_ne_noLaterTime (r : Registry α) (s : Store) (id : String) :
    r.get s id ≠ .error .noLaterTime := by
  by_cases hid : id = ""
  · subst hid
    nofun
  unfold get
  rw [requireId_of_ne hid]
  cases hv : s.get? (r.key id) with
  | none =>
    intro he
    cases he
  | some bs =>
    intro he
    cases hd : r.codec.ofBytes bs <;> simp [decode, hd, bind, Except.bind] at he

theorem require_ne_noLaterTime (r : Registry α) (s : Store) (id : String) :
    r.require s id ≠ .error .noLaterTime := by
  intro h
  rcases Except.bind_eq_error.1 h with hget | ⟨o, -, ho⟩
  · exact r.get_ne_noLaterTime s id hget
  · cases o <;> cases ho

/-- Where all records of the kind can be read, one with an id can be looked up. -/
theorem Keeps.exists_get {P : α → Prop} (h : r.Keeps P s) (hs : s.Plain) (hid : id ≠ "") :
    ∃ o, r.get s id = .ok o := by
  cases hv : s.data.get? (r.key id) with
  | none => exact ⟨none, (get_eq_ok hs).2 ⟨hid, .inl ⟨hv, rfl⟩⟩⟩
  | some bs =>
    obtain ⟨a, hd, -⟩ := h _ (KeyMap.mem_of_get? hv) (r.beginsWith_key id)
    exact ⟨some a, (get_eq_ok hs).2 ⟨hid, .inr ⟨a, rfl, bs, hv, hd⟩⟩⟩

/-- Where all records of the kind can be read, one that is found stands under its own id. -/
theorem Keeps.of_finds {P : α → Prop} (h : r.Keeps P s) (ha : r.Finds s.data id a) :
    id ≠ "" ∧ r.idOf a = id ∧ P a := by
  obtain ⟨bs, hbs, hd⟩ := ha
  obtain ⟨b, hb, hne, hk, hp⟩ := h _ (KeyMap.mem_of_get? hbs) (r.beginsWith_key id)
  obtain rfl := Except.ok.inj (hd.symm.trans hb)
  obtain rfl := key_inj hk
  exact ⟨hne, rfl, hp⟩

/-- Where all records of the kind can be read the store shows a map of records. -/
theorem Keeps.exists_shows {P : α → Prop} (h : r.Keeps P s) :
    ∃ f, r.Shows s.data f ∧ ∀ id a, f id = some a ↔ r.Finds s.data id a := by
  let f : String → Option α := fun id =>
    (s.data.get? (r.key id)).bind fun bs => (r.codec.ofBytes bs).toOption
  have hf : ∀ id a, f id = some a ↔ r.Finds s.data id a := by
    intro id a
    simp only [f, Option.bind_eq_some_iff]
    exact exists_congr fun bs => and_congr_right fun _ => Except.toOption_eq_some
  refine ⟨f, ⟨?_, ?_⟩, hf⟩
  · intro id
    cases hv : s.data.get? (r.key id) with
    | none => simp [f, hv]
    | some bs =>
      obtain ⟨a, ha, -⟩ := h _ (KeyMap.mem_of_get? hv) (r.beginsWith_key id)
      rw [(hf id a).2 ⟨bs, hv, ha⟩]
      exact congrArg some ha
  · intro id a ha
    obtain ⟨hne, hid, -⟩ := h.of_finds ((hf id a).1 ha)
    exact ⟨hne, hid⟩

/-- Where a map of records is shown all records of the kind can be read. -/
theorem Shows.keeps {f : String → Option α} {P : α → Prop} (h : r.Shows s.data f)
    (hp : ∀ id a, f id = some a → P a) : r.Keeps P s :=
  fun _ he hb => (h.holds he hb).mono fun _ ha => hp _ _ ha

/-- Where all records of the kind can be read they are listed in the order of their ids. -/
theorem Keeps.list {P : α → Prop} (h : r.Keeps P s) (hs : s.Plain) : ∃ as, r.list s = .ok as ∧
    (as.Pairwise fun a b => r.idOf a < r.idOf b) ∧
    ∀ a, a ∈ as ↔ r.Finds s.data (r.idOf a) a := by
  obtain ⟨f, hshows, hf⟩ := h.exists_shows
  obtain ⟨as, has, hsorted, hmem⟩ := hshows.list hs
  exact ⟨as, has, hsorted, fun a => (hmem a).trans (hf _ a)⟩

/-- One record that cannot be read spoils a list, and nothing else does. -/
theorem decodeAll_error_iff (es : List (String × Bytes)) : (∃ e, r.decodeAll es = .error e) ↔
    ∃ entry ∈ es, ∃ f, r.codec.ofBytes entry.2 = .error f := by
  induction es with
  | nil => simp [decodeAll]
  | cons entry es ih =>
    obtain ⟨key, bs⟩ := entry
    rw [decodeAll, decode]
    cases hd : r.codec.ofBytes bs with
    | error f => simp [hd, bind, Except.bind]
    | ok a =>
      simp only [List.exists_mem_cons_iff, hd, reduceCtorEq, exists_false, false_or, ← ih]
      exact exists_congr fun e => Except.bind_pure_eq_error

theorem list_error_iff {s : Store} (hs : s.Plain) : (∃ e, r.list s = .error e) ↔
    ∃ key bs f, KeyMap.beginsWith r.keyStart key = true ∧ s.get? key = some bs ∧
      r.codec.ofBytes bs = .error f := by
  rw [list, decodeAll_error_iff, hs.entriesUnder]
  constructor
  · rintro ⟨⟨key, bs⟩, he, f, hf⟩
    obtain ⟨hmem, hbegins⟩ := List.mem_filter.1 he
    exact ⟨key, bs, f, hbegins, (hs.get? key).trans (KeyMap.get?_eq_some_iff.2 hmem), hf⟩
  · rintro ⟨key, bs, f, hbegins, hbs, hf⟩
    rw [hs.get?] at hbs
    exact ⟨(key, bs), List.mem_filter.2 ⟨KeyMap.mem_of_get? hbs, hbegins⟩, f, hf⟩

/-! ## Changing -/

/-- A record that fits is found as it is read after it was written. -/
theorem finds_write (l : r.Laws) (hf : l.Fits a) (m : KeyMap) (id : String) :
    r.Finds ((r.write id a).apply m) id (l.codec.settle a) := by
  refine ⟨r.codec.toBytes a, ?_, l.codec.ofBytes_toBytes hf⟩
  show (m.insert (r.key id) (r.codec.toBytes a)).get? (r.key id) = _
  rw [KeyMap.get?_insert, if_pos rfl]

end Registry

namespace Backing

/-- A decision that is carried out leaves the map alone and comes to an error, or makes its change
there. -/
theorem perform_spec {β : Type} {b b' : Backing} (hs : b.store.Plain)
    {decision : Except RegistryError (Change × β)} {x : Except RegistryError β}
    (h : b.perform decision = (x, b')) : b'.store.Plain ∧
      ((∃ e, x = .error e ∧ b'.store.data = b.store.data) ∨
        ∃ c r, decision = .ok (c, r) ∧ x = .ok r ∧ b'.store.data = c.apply b.store.data) := by
  unfold perform at h
  split at h
  · rename_i e
    obtain ⟨rfl, rfl⟩ := Prod.mk.inj h
    exact ⟨hs, .inl ⟨e, rfl, rfl⟩⟩
  · rename_i c r
    rcases hc : b.store.commit b.disk c with ⟨_ | e, s', d'⟩
    · rw [commit, hc] at h
      obtain ⟨rfl, rfl⟩ := Prod.mk.inj h
      exact ⟨hs.commit hc, .inr ⟨c, r, rfl, rfl, Store.data_of_commit hc⟩⟩
    · rw [commit, hc] at h
      obtain ⟨rfl, rfl⟩ := Prod.mk.inj h
      exact ⟨hs.commit hc, .inl ⟨.store e, rfl, Store.data_of_commit_error hc⟩⟩

/-- Carrying a decision out finds no want of later times but that of the decision. -/
theorem perform_ne_noLaterTime {β : Type} {b : Backing}
    {decision : Except RegistryError (Change × β)} (h : decision ≠ .error .noLaterTime) :
    (b.perform decision).1 ≠ .error .noLaterTime := by
  unfold perform
  split
  · exact fun he => h (congrArg Except.error (Except.error.inj he))
  · split <;> nofun

end Backing

end ControlPlane
