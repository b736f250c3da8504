import ControlPlane.Proofs.Store.Durable
import ControlPlane.Store.Basic

/-!
# Changes and the map of a store

Whatever the state of a store and of its disk: a change that the store makes is made in its map
(`Store.data_of_commit`), and one that it refuses is not seen there (`Store.data_of_commit_error`).
-/

namespace ControlPlane

theorem Volatile.eq_of_commit {v v' : Volatile} {c : Change} (h : v.commit c = (none, v')) :
    v' = { v with data := c.apply v.data } := by
  unfold commit at h
  split at h
  · cases h
  · split at h
    · cases h
    · cases h
      rfl

theorem Volatile.eq_of_commit_error {v v' : Volatile} {c : Change} {e : StoreError}
    (h : v.commit c = (some e, v')) : v' = v := by
  unfold commit at h
  split at h
  · cases h
    rfl
  · split at h
    · cases h
      rfl
    · cases h

theorem Durable.data_of_commit {s s' : Durable} {d d' : Disk} {c : Change}
    (h : s.commit d c = (none, s', d')) : s'.data = c.apply s.data := by
  unfold commit at h
  split at h
  · cases h
  · have hdata := data_record s d c.line
    generalize s.record d c.line = x at h hdata
    obtain ⟨_ | e, t, d₁⟩ := x
    · cases h
      exact congrArg c.apply hdata
    · cases h

namespace Store

variable {s s' : Store} {d d' : Disk} {c : Change}

/-- A change that a store made is seen in its map. -/
theorem data_of_commit (h : s.commit d c = (none, s', d')) : s'.data = c.apply s.data := by
  cases s with
  | volatile v | masked v hidden =>
    rcases hc : v.commit c with ⟨e, v'⟩
    rw [commit, hc] at h
    cases h
    rw [Volatile.eq_of_commit hc]
    rfl
  | durable v =>
    rcases hc : v.commit d c with ⟨e, v', d₁⟩
    rw [commit, hc] at h
    cases h
    exact Durable.data_of_commit hc

/-- A change that a store refused is not seen in its map. -/
theorem data_of_commit_error {e : StoreError} (h : s.commit d c = (some e, s', d')) :
    s'.data = s.data := by
  cases s with
  | volatile v | masked v hidden =>
    rcases hc : v.commit c with ⟨e', v'⟩
    rw [commit, hc] at h
    cases h
    rw [Volatile.eq_of_commit_error hc]
  | durable v =>
    rcases hc : v.commit d c with ⟨e', v', d₁⟩
    rw [commit, hc] at h
    cases h
    exact Durable.data_of_commit_error hc

end Store

end ControlPlane
