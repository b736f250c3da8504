import ControlPlane.Proofs.Store.Durable
import ControlPlane.Store.Basic

/-!
# Stores that work

A store works if it is open and, where it is kept on a disk, nothing fails there
(`Store.Healthy`). It makes every change that has a key and goes on working.
-/

namespace ControlPlane.Store

/-- Whether a store is open and nothing is going to fail on the disk that it is kept on. -/
def Healthy (s : Store) (d : Disk) : Prop :=
  match s with
  | .volatile v | .masked v _ => v.closed = false
  | .durable v => v.poisoned = false ∧ v.file.isSome ∧ Durable.Faultless d

/-- A volatile store that is open makes every change that has a key. -/
theorem commit_volatile {v : Volatile} (hv : v.closed = false) {c : Change} (hk : c.key ≠ "") :
    v.commit c = (none, { v with data := c.apply v.data }) := by
  rw [Volatile.commit, Durable.isEmpty_key hk, hv]
  rfl

/-- A store that works makes every change that has a key. -/
theorem commit_of_healthy {s : Store} {d : Disk} (h : s.Healthy d) {c : Change}
    (hk : c.key ≠ "") : ∃ s' d', s.commit d c = (none, s', d') ∧ s'.Healthy d' ∧
      s'.data = c.apply s.data := by
  cases s with
  | volatile v =>
    refine ⟨.volatile { v with data := c.apply v.data }, d, ?_, h, rfl⟩
    rw [commit, commit_volatile h hk]
  | masked v hidden =>
    refine ⟨.masked { v with data := c.apply v.data } hidden, d, ?_, h, rfl⟩
    rw [commit, commit_volatile h hk]
  | durable v =>
    obtain ⟨hp, hf, hd⟩ := h
    obtain ⟨file, hf⟩ := Option.isSome_iff_exists.1 hf
    obtain ⟨v', d', hc, hd', hp', hf', hdata⟩ := Durable.commit_of_faultless hd hp hf hk
    refine ⟨.durable v', d', ?_, ⟨hp', ?_, hd'⟩, hdata⟩
    · rw [commit, hc]
    · rw [hf']
      rfl

end ControlPlane.Store
