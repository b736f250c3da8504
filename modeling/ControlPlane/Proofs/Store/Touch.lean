import ControlPlane.Proofs.Store.KeyMap
import Mathlib.Data.List.Sort

/-!
# Touches

A touch makes a new value out of the value of one key and adds no key. What touches make of a map is
told key by key: the value of a key is what the touches of that key, in their order, make of the
value before (`KeyMap.Touched`). So the keys stay (`Touched.keys_eq`), what is not touched stays
(`Touched.get?_eq`), and two maps with the same touches of every key are one (`Touched.unique`).
-/

namespace ControlPlane

/-! ## Maps by their values -/

namespace KeyMap

variable {m m' : KeyMap}

theorem mem_keys_iff {key : String} : key ∈ m.keys ↔ (m.get? key).isSome := by
  constructor
  · intro h
    obtain ⟨⟨k, value⟩, he, rfl⟩ := List.mem_map.1 h
    simp [get?_eq_some_iff.2 he]
  · intro h
    obtain ⟨value, hv⟩ := Option.isSome_iff_exists.1 h
    exact List.mem_map.2 ⟨_, mem_of_get? hv, rfl⟩

/-- Maps that have a value for the same keys have the same keys in the same order. -/
theorem keys_eq_of_isSome (h : ∀ key, (m.get? key).isSome = (m'.get? key).isSome) :
    m.keys = m'.keys := by
  have : Std.Irrefl fun a b : String => a < b := ⟨String.lt_irrefl⟩
  have sorted : ∀ m : KeyMap, m.keys.Pairwise (· < ·) := fun m => List.pairwise_map.2 m.sorted
  refine (sorted m).eq_of_mem_iff (sorted m') ?_
  intro key
  rw [mem_keys_iff, mem_keys_iff, h]

/-- Maps with the same values are one. -/
theorem ext_of_get? (h : ∀ key, m.get? key = m'.get? key) : m = m' := by
  have : Std.Irrefl fun a b : String × Bytes => a.1 < b.1 := ⟨fun a => String.lt_irrefl a.1⟩
  have hentries : m.entries = m'.entries := by
    refine m.sorted.eq_of_mem_iff m'.sorted ?_
    rintro ⟨key, value⟩
    rw [← get?_eq_some_iff, ← get?_eq_some_iff, h]
  cases m
  cases m'
  simpa using hentries

end KeyMap

/-! ## Touches -/

/-- A change of the value of one key that asks for nothing but that value. -/
structure Touch where
  key : String
  change : Bytes → Bytes

namespace Touch

/-- The touches of a key, in their order. -/
def on (key : String) (ts : List Touch) : List Touch :=
  ts.filter (·.key = key)

/-- What touches make of a value, if there is one. -/
def run (ts : List Touch) (v : Option Bytes) : Option Bytes :=
  ts.foldl (fun v t => v.map t.change) v

variable {t : Touch} {ts ts' : List Touch} {key : String} {v : Option Bytes}

@[simp] theorem on_nil : on key [] = [] := rfl

@[simp] theorem on_append : on key (ts ++ ts') = on key ts ++ on key ts' :=
  List.filter_append ..

theorem on_cons_self (t : Touch) (ts : List Touch) : on t.key (t :: ts) = t :: on t.key ts :=
  List.filter_cons_of_pos (by simp)

theorem on_cons_of_ne (h : t.key ≠ key) : on key (t :: ts) = on key ts :=
  List.filter_cons_of_neg (by simpa using h)

theorem on_flatMap {α : Type} (l : List α) (g : α → List Touch) :
    on key (l.flatMap g) = l.flatMap fun a => on key (g a) :=
  List.filter_flatMap ..

theorem on_eq_nil (h : ∀ t ∈ ts, t.key ≠ key) : on key ts = [] := by
  simpa [on] using h

@[simp] theorem run_nil : run [] v = v := rfl

@[simp] theorem run_cons : run (t :: ts) v = run ts (v.map t.change) := rfl

@[simp] theorem run_append : run (ts ++ ts') v = run ts' (run ts v) :=
  List.foldl_append

@[simp] theorem isSome_run : (run ts v).isSome = v.isSome := by
  induction ts generalizing v with
  | nil => rfl
  | cons t ts ih => simp [ih]

end Touch

/-- Whether a map is what touches make of another one. -/
def KeyMap.Touched (ts : List Touch) (m m' : KeyMap) : Prop :=
  ∀ key, m'.get? key = Touch.run (Touch.on key ts) (m.get? key)

namespace KeyMap.Touched

variable {ts ts' : List Touch} {m m' m'' : KeyMap} {key : String}

theorem refl (m : KeyMap) : Touched [] m m :=
  fun _ => rfl

theorem trans (h : Touched ts m m') (h' : Touched ts' m' m'') : Touched (ts ++ ts') m m'' := by
  intro key
  rw [h' key, h key, Touch.on_append, Touch.run_append]

/-- One touch. -/
theorem of_touch {t : Touch} (hkey : m'.get? t.key = (m.get? t.key).map t.change)
    (hothers : ∀ key, key ≠ t.key → m'.get? key = m.get? key) : Touched [t] m m' := by
  intro key
  by_cases h : key = t.key
  · subst h
    simp [Touch.on_cons_self, hkey]
  · simp [Touch.on_cons_of_ne (Ne.symm h), hothers key h]

/-- What is not touched stays. -/
theorem get?_eq (h : Touched ts m m') (hkey : Touch.on key ts = []) : m'.get? key = m.get? key := by
  rw [h key, hkey, Touch.run_nil]

theorem isSome_eq (h : Touched ts m m') (key : String) :
    (m'.get? key).isSome = (m.get? key).isSome := by
  rw [h key, Touch.isSome_run]

/-- The keys stay. -/
theorem keys_eq (h : Touched ts m m') : m'.keys = m.keys :=
  keys_eq_of_isSome h.isSome_eq

/-- The same touches of a key come to the same value. -/
theorem get?_congr (h : Touched ts m m') (h' : Touched ts' m m'')
    (hkey : Touch.on key ts = Touch.on key ts') : m'.get? key = m''.get? key := by
  rw [h key, h' key, hkey]

/-- The same touches of every key come to the same map. -/
theorem unique (h : Touched ts m m') (h' : Touched ts' m m'')
    (hkeys : ∀ key, Touch.on key ts = Touch.on key ts') : m' = m'' :=
  ext_of_get? fun key => h.get?_congr h' (hkeys key)

end KeyMap.Touched

/-! ## Touches in another order -/

/-- Of lists of which no two have something, the order does not matter. -/
theorem flatMap_eq_of_perm {α β : Type} {l l' : List α} {g : α → List β} (h : l.Perm l')
    (hg : l.Pairwise fun a b => g a = [] ∨ g b = []) : l.flatMap g = l'.flatMap g := by
  induction h with
  | nil => rfl
  | cons a _ ih => rw [List.flatMap_cons, List.flatMap_cons, ih (List.pairwise_cons.1 hg).2]
  | swap a b l =>
    simp only [List.flatMap_cons]
    rcases (List.pairwise_cons.1 hg).1 a List.mem_cons_self with h | h <;> simp [h]
  | trans h _ ih ih' =>
    have hsymm : ∀ {a b : α}, g a = [] ∨ g b = [] → g b = [] ∨ g a = [] := Or.symm
    exact (ih hg).trans (ih' (h.pairwise hg hsymm))

end ControlPlane
