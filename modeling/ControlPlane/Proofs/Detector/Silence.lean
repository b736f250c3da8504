import ControlPlane.Detector.Silence
import ControlPlane.Proofs.Time.Span

/-!
# Silence is compared exactly

In the years of the calendar no silence is too long for a span of time, so that a node which failed
to answer always gets a status, the one that the detector finds by counting nanoseconds
(`Detector.verdict?_eq`). Outside leap seconds that is offline exactly if it was never heard of or
if there are more nanoseconds between the two times than are tolerated (`Detector.verdict?_exact`).
-/

namespace ControlPlane.Detector

variable {seen now later : Instant} {seen? : Option Instant} {grace : Duration}

/-! ## The two ways to measure -/

/-- A span of time has all nanoseconds of the silence, and none if the clock went backwards. -/
theorem silentFor?_spec (hs : seen.inRange = true) (hn : now.inRange = true) :
    ∃ d, silentFor? seen now = some d ∧ d.ticks = silence seen now := by
  obtain ⟨s, he, ht⟩ := Instant.elapsed?_spec hn hs
  refine ⟨s.toDuration?.getD .zero, ?_, ?_⟩
  · rw [silentFor?, he]
    rfl
  · rw [s.ticks_toDuration?, ht]
    rfl

/-- Measured in spans of time a verdict is the same, leap seconds or not. -/
theorem verdict?_eq (hs : ∀ t ∈ seen?, t.inRange = true) (hn : now.inRange = true)
    (grace : Duration) : verdict? seen? now grace = some (verdict seen? now grace.ticks) := by
  cases seen? with
  | none => rfl
  | some seen =>
    obtain ⟨d, hd, ht⟩ := silentFor?_spec (hs seen rfl) hn
    unfold verdict? verdict
    dsimp only
    rw [hd, Option.map_some, ← ht]
    simp only [Duration.shorter_iff]

/-! ## Verdicts by nanoseconds -/

theorem verdict_eq (hs : seen.isLeap = false) (hn : now.isLeap = false) (grace : Nat) :
    verdict (some seen) now grace =
      if (grace : Int) < now.ticks - seen.ticks then .offline else .unknown := by
  unfold verdict silence
  dsimp only
  rw [Instant.since_eq hn hs]
  by_cases h : (grace : Int) < now.ticks - seen.ticks
  · rw [if_pos h, if_pos (by omega)]
  · rw [if_neg h, if_neg (by omega)]

theorem verdict?_some_eq (hs : seen.Regular) (hn : now.Regular) (grace : Duration) :
    verdict? (some seen) now grace =
      some (if (grace.ticks : Int) < now.ticks - seen.ticks then .offline else .unknown) := by
  have hin : ∀ t ∈ some seen, t.inRange = true := by
    rintro t ⟨⟩
    exact hs.inRange
  rw [verdict?_eq hin hn.inRange, verdict_eq hs.isLeap hn.isLeap]

theorem verdict?_eq_offline (hs : ∀ t ∈ seen?, t.Regular) (hn : now.Regular) :
    verdict? seen? now grace = some .offline ↔
      ∀ t ∈ seen?, (grace.ticks : Int) < now.ticks - t.ticks := by
  cases seen? with
  | none => exact iff_of_true rfl fun t ht => by cases ht
  | some seen =>
    rw [verdict?_some_eq (hs seen rfl) hn]
    by_cases h : (grace.ticks : Int) < now.ticks - seen.ticks
    · rw [if_pos h]
      exact iff_of_true rfl fun t ht => Option.some.inj ht ▸ h
    · rw [if_neg h]
      exact iff_of_false (fun he => by cases he) fun hall => h (hall seen rfl)

/-- A node that is offline stays so at any later time and where less silence is tolerated. -/
theorem verdict?_mono (hs : ∀ t ∈ seen?, t.Regular) (hn : now.Regular)
    (h : verdict? seen? now grace = some .offline) {d : Duration} (hl : later.Regular)
    (hlater : later.before now = false) (hd : grace.shorter d = false) :
    verdict? seen? later d = some .offline := by
  rw [verdict?_eq_offline hs hn] at h
  rw [verdict?_eq_offline hs hl]
  intro t ht
  have hgrace := h t ht
  rw [Bool.eq_false_iff, Ne, hl.before_iff hn] at hlater
  rw [Bool.eq_false_iff, Ne, Duration.shorter_iff] at hd
  omega

/-- A node is not offline as long as the clock is not past the time it was heard of. -/
theorem verdict?_of_not_before (hs : seen.Regular) (hn : now.Regular)
    (hb : seen.before now = false) : verdict? (some seen) now grace = some .unknown := by
  rw [Bool.eq_false_iff, Ne, hs.before_iff hn] at hb
  rw [verdict?_some_eq hs hn, if_neg (by omega)]

/-- Outside leap seconds a node that failed to answer gets a status, whenever it was heard of and
however long silence is tolerated, and the detector finds the same one: it is offline if it was
never heard of or if the exact number of nanoseconds since then is greater than what is tolerated,
and unknown otherwise. So it stays offline at any later time and where less is tolerated, and it is
not offline as long as the clock is not past the time it was heard of. -/
theorem verdict?_exact (hs : ∀ t ∈ seen?, t.Regular) (hn : now.Regular) (grace : Duration) :
    verdict? seen? now grace = some (verdict seen? now grace.ticks) ∧
    verdict? seen? now grace = some (match seen? with
      | none => .offline
      | some seen =>
        if (grace.ticks : Int) < now.ticks - seen.ticks then .offline else .unknown) ∧
    (verdict? seen? now grace = some .offline →
      ∀ (later : Instant) (d : Duration), later.Regular → later.before now = false →
        grace.shorter d = false → verdict? seen? later d = some .offline) ∧
    ∀ seen ∈ seen?, seen.before now = false → verdict? seen? now grace = some .unknown := by
  refine ⟨verdict?_eq (fun t ht => (hs t ht).inRange) hn.inRange grace, ?_,
    fun h later d hl => verdict?_mono hs hn h hl, ?_⟩
  · cases seen? with
    | none => rfl
    | some seen => exact verdict?_some_eq (hs seen rfl) hn grace
  · rintro seen hseen hb
    obtain rfl := Option.mem_def.1 hseen
    exact verdict?_of_not_before (hs seen rfl) hn hb

/-- A nanosecond over forty seconds, across the carry of a second. -/
theorem verdict?_exact_boundary :
    verdict? (some ⟨0, 999999999⟩) ⟨41, 0⟩ ⟨40, 0, by decide⟩ = some .offline ∧
      verdict? (some ⟨0, 999999999⟩) ⟨41, 0⟩ ⟨40, 1, by decide⟩ = some .unknown := by
  have hseen : ∀ t ∈ some (⟨0, 999999999⟩ : Instant), t.Regular := by
    rintro t ⟨⟩
    exact ⟨by decide, by decide⟩
  have hnow : (⟨41, 0⟩ : Instant).Regular := ⟨by decide, by decide⟩
  exact ⟨(verdict?_exact hseen hnow _).2.1.trans (congrArg some (if_pos (by decide))),
    (verdict?_exact hseen hnow _).2.1.trans (congrArg some (if_neg (by decide)))⟩

end ControlPlane.Detector
