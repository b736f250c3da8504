import ControlPlane.Proofs.Registry.Sound
import ControlPlane.Proofs.Store.Healthy

/-!
# Sound stores that work

A store that is sound and works (`Backing.Sound`) stays so when a decision is carried out that is
fair and comes to a sound change, and carrying it out fails only by the fault of the caller
(`Backing.Sound.perform`).
-/

namespace ControlPlane.Backing

/-- Whether a store works and is sound. -/
structure Sound (bound : String → Int) (b : Backing) : Prop where
  healthy : b.store.Healthy b.disk
  data : b.store.data.Sound bound

variable {bound bound' : String → Int} {b : Backing}

theorem Sound.mono (h : b.Sound bound) (hb : ∀ id, bound id ≤ bound' id) : b.Sound bound' :=
  ⟨h.healthy, h.data.mono hb⟩

/-- A sound change is made. -/
theorem Sound.commit (h : b.Sound bound) (hb : ∀ id, bound id ≤ bound' id) {c : Change}
    (hc : c.Sound bound') : ∃ b', b.commit c = (none, b') ∧ b'.Sound bound' := by
  obtain ⟨s', d', hcommit, hhealthy, hdata⟩ := Store.commit_of_healthy h.healthy hc.key_ne
  refine ⟨⟨s', d'⟩, ?_, hhealthy, ?_⟩
  · rw [Backing.commit, hcommit]
  · show s'.data.Sound bound'
    rw [hdata]
    exact (h.data.mono hb).apply hc

/-- A fair decision is carried out. -/
theorem Sound.perform {β : Type} (h : b.Sound bound) (hb : ∀ id, bound id ≤ bound' id)
    {decision : Except RegistryError (Change × β)}
    (hd : Fair (fun r => r.1.Sound bound') decision) :
    ∃ x b', b.perform decision = (x, b') ∧ b'.Sound bound' ∧ Fair (fun _ => True) x := by
  rcases hd with ⟨e, rfl, he⟩ | ⟨⟨c, result⟩, rfl, hc⟩
  · exact ⟨_, b, rfl, h.mono hb, .error he⟩
  · obtain ⟨b', hcommit, hb'⟩ := h.commit hb hc
    exact ⟨.ok result, b', by rw [Backing.perform, hcommit], hb', .ok trivial⟩

end ControlPlane.Backing
