import ControlPlane.Proofs.Time.Genuine

/-!
# Stamps: order and room

A stamp is later than the one before it (`nextStamp_later`), and there is one as long as the stamp
before is a microsecond away from the last instant. How many stamps in a row an instant leaves room
for is counted (`Instant.Lasts`): a stamp takes one away, unless it is the time of the clock
(`exists_nextStamp`).
-/

namespace ControlPlane

namespace Instant

variable {t : Instant} {k l : Nat}

/-! ## Room -/

/-- Whether there are so many later instants, each a microsecond after the one before. -/
def Lasts : Nat → Instant → Prop
  | 0, _ => True
  | k + 1, t => ∃ u, t.plus? microsecond = some u ∧ Lasts k u

@[simp] theorem lasts_zero : Lasts 0 t :=
  trivial

theorem Lasts.of_succ (h : Lasts (k + 1) t) : Lasts k t := by
  induction k generalizing t with
  | zero => exact lasts_zero
  | succ k ih =>
    obtain ⟨u, hu, hl⟩ := h
    exact ⟨u, hu, ih hl⟩

theorem Lasts.mono (h : Lasts k t) (hl : l ≤ k) : Lasts l t := by
  induction hl with
  | refl => exact h
  | step _ ih => exact ih h.of_succ

/-- An instant that is so many microseconds away from the last one leaves room for as many. -/
theorem lasts_of_ticks (h : t.inRange = true) (hl : t.ticks + 1000 * k ≤ lastTick) :
    Lasts k t := by
  induction k generalizing t with
  | zero => exact lasts_zero
  | succ k ih =>
    obtain ⟨u, hu, hr, ht⟩ := plus?_microsecond h (by omega)
    exact ⟨u, hu, ih hr (by omega)⟩

end Instant

/-! ## Stamps -/

variable {now stamp : Instant} {previous : Option Instant} {k : Nat}

/-- A stamp is later than the one before. -/
theorem nextStamp_later {t : Instant} (h : nextStamp now (some t) = .ok stamp) :
    t.before stamp = true := by
  unfold nextStamp at h
  dsimp only at h
  split at h
  · rename_i hb
    exact Except.ok.inj h ▸ hb
  · split at h
    · rename_i u hu
      obtain rfl := Except.ok.inj h
      unfold Instant.plus? at hu
      dsimp only at hu
      split at hu
      · exact Option.some.inj hu ▸ t.before_moved_microsecond
      · cases hu
    · cases h

/-- There is a stamp after one that leaves room for another. If the clock leaves room for the rest
too, so does the stamp. -/
theorem exists_nextStamp (hn : now.Lasts k) (hp : ∀ t, previous = some t → t.Lasts (k + 1)) :
    ∃ stamp, nextStamp now previous = .ok stamp ∧ stamp.Lasts k := by
  cases previous with
  | none => exact ⟨now, rfl, hn⟩
  | some t =>
    obtain ⟨u, hu, hl⟩ := hp t rfl
    by_cases hb : t.before now = true
    · exact ⟨now, if_pos hb, hn⟩
    · refine ⟨u, ?_, hl⟩
      rw [nextStamp, if_neg hb, hu]

/-- Whether the stamp of a node, if it has one, leaves room for so many more. -/
def Node.Lasts (k : Nat) (n : Node) : Prop :=
  ∀ t, n.updatedAt = some t → t.Lasts k

theorem Node.Lasts.mono {n : Node} {l : Nat} (h : n.Lasts k) (hl : l ≤ k) : n.Lasts l :=
  fun t ht => (h t ht).mono hl

end ControlPlane
