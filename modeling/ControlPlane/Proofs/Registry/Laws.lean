import ControlPlane.Proofs.Entity.Laws
import ControlPlane.Proofs.Store.KeyMap
import ControlPlane.Registry.Kinds

/-!
# Registries: looking and deciding

In a store whose records of a kind are all readable and stand under their own ids
(`Registry.Keeps`), looking one up fails only by the fault of the caller
(`Registry.require_spec`), and listing them never does (`Registry.list_spec`).
-/

namespace ControlPlane

/-! ## Fair results -/

/-- Whether an error tells that the caller asked for something that cannot be or is not there. -/
def RegistryError.OfCaller (e : RegistryError) : Prop :=
  e.isInvalidArgument = true ∨ ∃ kind id, e = .notFound kind id

theorem RegistryError.OfCaller.ne_noLaterTime {e : RegistryError} (h : e.OfCaller) :
    e ≠ .noLaterTime := by
  rintro rfl
  rcases h with h | ⟨kind, id, h⟩
  · cases h
  · cases h

/-- Whether something comes to a result as described, or fails by the fault of the caller. -/
def Fair {β : Type} (Q : β → Prop) (x : Except RegistryError β) : Prop :=
  (∃ e, x = .error e ∧ e.OfCaller) ∨ ∃ b, x = .ok b ∧ Q b

namespace Fair

variable {β γ : Type} {Q : β → Prop} {R : γ → Prop}

theorem ok {b : β} (h : Q b) : Fair Q (.ok b) :=
  .inr ⟨b, rfl, h⟩

theorem error {e : RegistryError} (h : e.OfCaller) : Fair Q (.error e) :=
  .inl ⟨e, rfl, h⟩

theorem ne_noLaterTime {x : Except RegistryError β} (hx : Fair Q x) :
    x ≠ .error .noLaterTime := by
  rcases hx with ⟨e, rfl, he⟩ | ⟨b, rfl, -⟩
  · exact fun h => he.ne_noLaterTime (Except.error.inj h)
  · nofun

theorem bind {x : Except RegistryError β} {f : β → Except RegistryError γ} (hx : Fair Q x)
    (hf : ∀ b, Q b → Fair R (f b)) : Fair R (x >>= f) := by
  rcases hx with ⟨e, rfl, he⟩ | ⟨b, rfl, hb⟩
  · exact error he
  · exact hf b hb

theorem map {x : Except RegistryError β} {f : β → γ} (hx : Fair Q x) (hf : ∀ b, Q b → R (f b)) :
    Fair R (x.map f) := by
  rcases hx with ⟨e, rfl, he⟩ | ⟨b, rfl, hb⟩
  · exact error he
  · exact ok (hf b hb)

theorem mono {Q' : β → Prop} {x : Except RegistryError β} (hx : Fair Q x)
    (h : ∀ b, Q b → Q' b) : Fair Q' x := by
  rcases hx with ⟨e, rfl, he⟩ | ⟨b, rfl, hb⟩
  · exact error he
  · exact ok (h b hb)

end Fair

namespace Registry

variable {α : Type} {r : Registry α} {P : α → Prop}

/-- The laws of a registry: its records are read again, and their ids are kept. -/
structure Laws (r : Registry α) where
  codec : r.codec.Laws
  need_le : codec.need ≤ Tree.depthLimit
  idOf_settle : ∀ a, r.idOf (codec.settle a) = r.idOf a
  idOf_withId : ∀ id a, r.idOf (r.withId id a) = id
  fits_withId : ∀ {id a}, codec.Fits Tree.depthLimit a → codec.Fits Tree.depthLimit (r.withId id a)

/-- Whether a record can be written and read again. -/
def Laws.Fits (l : r.Laws) (a : α) : Prop :=
  l.codec.Fits Tree.depthLimit a

/-- Whether an entry is a record of the registry that stands under its own id. -/
def Holds (r : Registry α) (P : α → Prop) (e : String × Bytes) : Prop :=
  ∃ a, r.codec.ofBytes e.2 = .ok a ∧ r.idOf a ≠ "" ∧ e.1 = r.key (r.idOf a) ∧ P a

theorem Holds.mono {Q : α → Prop} {e : String × Bytes} (h : r.Holds P e) (hq : ∀ a, P a → Q a) :
    r.Holds Q e := by
  obtain ⟨a, hd, hne, hk, hp⟩ := h
  exact ⟨a, hd, hne, hk, hq a hp⟩

/-- What is written of a record is a record again. -/
theorem Laws.holds_write (l : r.Laws) {a : α} (hf : l.Fits a) (hne : r.idOf a ≠ "")
    (hp : P (l.codec.settle a)) : r.Holds P (r.key (r.idOf a), r.codec.toBytes a) := by
  refine ⟨l.codec.settle a, l.codec.ofBytes_toBytes hf, ?_, ?_, hp⟩
  · rwa [l.idOf_settle]
  · rw [l.idOf_settle]

theorem Laws.fits_of_ofBytes (l : r.Laws) {bs : Bytes} {a : α} (h : r.codec.ofBytes bs = .ok a) :
    l.Fits a :=
  l.codec.fits_of_readText l.need_le h

/-! ## Keys -/

theorem key_inj {id id' : String} (h : r.key id = r.key id') : id = id' := by
  have h := congrArg String.toList h
  simp only [key, String.toList_append] at h
  exact String.ext (List.append_cancel_left h)

theorem beginsWith_key (r : Registry α) (id : String) :
    KeyMap.beginsWith r.keyStart (r.key id) = true := by
  rw [KeyMap.beginsWith, key, String.toList_append, List.isPrefixOf_iff_prefix]
  exact List.prefix_append _ _

theorem key_ne_empty (r : Registry α) (id : String) : r.key id ≠ "" := by
  intro h
  have h := congrArg String.toList h
  simp [key, keyStart] at h

/-! ## Looking -/

/-- Whether all entries of a store that are of the kind are records under their own ids. -/
def Keeps (r : Registry α) (P : α → Prop) (s : Store) : Prop :=
  ∀ e ∈ s.data.entries, KeyMap.beginsWith r.keyStart e.1 = true → r.Holds P e

theorem requireId_of_ne {id : String} (h : id ≠ "") : r.requireId id = .ok () := by
  have he : id.isEmpty = false := by
    rw [Bool.eq_false_iff]
    exact fun he => h (String.isEmpty_iff.1 he)
  rw [requireId, he]
  rfl

/-- Looking a record up finds it or finds none. -/
theorem get_spec (l : r.Laws) {s : Store} (h : r.Keeps P s) (id : String) :
    Fair (fun o => id ≠ "" ∧ ∀ a, o = some a → r.idOf a = id ∧ P a ∧ l.Fits a) (r.get s id) := by
  by_cases hid : id = ""
  · subst hid
    exact .error (.inl rfl)
  · rw [get, requireId_of_ne hid]
    cases hv : s.get? (r.key id) with
    | none => exact .ok ⟨hid, fun a ha => by cases ha⟩
    | some value =>
      obtain ⟨a, hd, -, hk, hp⟩ := h _ (s.mem_of_get? hv) (r.beginsWith_key id)
      have hdecode : r.decode (r.key id) value = .ok a := by rw [decode, hd]
      show Fair _ (some <$> r.decode (r.key id) value)
      rw [hdecode]
      refine .ok ⟨hid, fun b hb => ?_⟩
      obtain rfl := Option.some.inj hb
      exact ⟨(key_inj hk).symm, hp, l.fits_of_ofBytes hd⟩

/-- Looking a record up that has to be there finds it. -/
theorem require_spec (l : r.Laws) {s : Store} (h : r.Keeps P s) (id : String) :
    Fair (fun a => id ≠ "" ∧ r.idOf a = id ∧ P a ∧ l.Fits a) (r.require s id) := by
  refine (get_spec l h id).bind fun o ⟨hid, ho⟩ => ?_
  cases o with
  | none => exact .error (.inr ⟨_, _, rfl⟩)
  | some a => exact .ok ⟨hid, ho a rfl⟩

theorem decodeAll_spec (es : List (String × Bytes)) (h : ∀ e ∈ es, r.Holds P e) :
    ∃ as, r.decodeAll es = .ok as ∧ (as.map r.idOf).map r.key = es.map (·.1) ∧
      ∀ a ∈ as, P a := by
  induction es with
  | nil => exact ⟨[], rfl, rfl, by simp⟩
  | cons e es ih =>
    obtain ⟨as, has, hkeys, hp⟩ := ih fun e he => h e (List.mem_cons_of_mem _ he)
    obtain ⟨a, hd, -, hk, hpa⟩ := h e List.mem_cons_self
    refine ⟨a :: as, ?_, ?_, List.forall_mem_cons.2 ⟨hpa, hp⟩⟩
    · rw [decodeAll, decode, hd, has]
      rfl
    · rw [List.map_cons, List.map_cons, List.map_cons, hkeys, hk]

/-- All records can be listed, each with an id of its own. -/
theorem list_spec {s : Store} (h : r.Keeps P s) :
    ∃ as, r.list s = .ok as ∧ (as.map r.idOf).Nodup ∧ ∀ a ∈ as, P a := by
  obtain ⟨as, has, hkeys, hp⟩ := decodeAll_spec (s.entriesUnder r.keyStart) fun e he => by
    obtain ⟨hm, hb⟩ := Store.mem_of_mem_entriesUnder he
    exact h e hm hb
  have hn := s.nodup_entriesUnder r.keyStart
  rw [← hkeys] at hn
  exact ⟨as, has, hn.of_map, hp⟩

/-! ## Deciding -/

/-- A record gets the id it is to be stored under. -/
theorem stamp_spec (r : Registry α) (id : String) (a : α) :
    Fair (fun b => id ≠ "" ∧ b = r.withId id a) (r.stamp id a) := by
  by_cases hid : id = ""
  · subst hid
    exact .error (.inl rfl)
  · unfold stamp
    rw [requireId_of_ne hid]
    show Fair _ (if _ then _ else _)
    split
    · exact .error (.inl rfl)
    · exact .ok ⟨hid, rfl⟩

/-- A record that is to be stored gets its id. -/
theorem put_spec (r : Registry α) (id : String) (a : α) :
    Fair (fun c => id ≠ "" ∧ c = r.write id (r.withId id a)) (r.put id a) := by
  refine (r.stamp_spec id a).bind fun b ⟨hid, hb⟩ => .ok ⟨hid, ?_⟩
  rw [hb]

/-- A key that is to be taken away is not empty. -/
theorem remove_spec (r : Registry α) (id : String) :
    Fair (fun c => c = .delete (r.key id)) (r.remove id) := by
  by_cases hid : id = ""
  · subst hid
    exact .error (.inl rfl)
  · rw [remove, requireId_of_ne hid]
    exact .ok rfl

end Registry

end ControlPlane
