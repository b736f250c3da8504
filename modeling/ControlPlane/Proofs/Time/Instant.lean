import ControlPlane.Proofs.Json.Codec
import ControlPlane.Proofs.Time.Rfc3339
import ControlPlane.Registry.Node

/-!
# Instants: range and stamps

Instants that are read lie within the years of the calendar (`Instant.inRange_of_parse?`), and so do
those that are written and read again. Counted in nanoseconds (`Instant.ticks`), a stamp moves on by
at most a microsecond where the clock does not (`nextStamp_spec`).
-/

namespace ControlPlane

namespace Instant

/-! ## Instants in range -/

theorem inRange_of_ofLocal? {date : Date} {h m s fraction : Nat} {offset : Int} {t : Instant}
    (ht : ofLocal? date h m s fraction offset = some t) : t.inRange = true := by
  unfold ofLocal? at ht
  dsimp only at ht
  split at ht
  · cases ht
  · split at ht
    · cases ht
    · split at ht
      all_goals
        split at ht
        · rename_i hr
          rwa [← Option.some.inj ht]
        · cases ht

/-- An instant that is read is that of a local time, whose fraction and offset were read. -/
theorem exists_ofLocal?_of_parse? {cs : List Char} {t : Instant} (h : parse? cs = some t) :
    ∃ date hour minute s fraction offset, (∃ text rest, fraction? text = some (fraction, rest)) ∧
      (∃ text rest, offset? text = some (offset, rest)) ∧
      ofLocal? date hour minute s fraction offset = some t := by
  unfold parse? at h
  obtain ⟨⟨year, cs⟩, -, h⟩ := Option.bind_eq_some_iff.1 h
  obtain ⟨_, -, h⟩ := Option.bind_eq_some_iff.1 h
  obtain ⟨⟨month, cs⟩, -, h⟩ := Option.bind_eq_some_iff.1 h
  obtain ⟨_, -, h⟩ := Option.bind_eq_some_iff.1 h
  obtain ⟨⟨day, cs⟩, -, h⟩ := Option.bind_eq_some_iff.1 h
  dsimp only at h
  split at h
  case h_4 => cases h
  case h_1 | h_2 | h_3 =>
    obtain ⟨_, -, h⟩ := Option.bind_eq_some_iff.1 h
    obtain ⟨⟨hour, cs⟩, -, h⟩ := Option.bind_eq_some_iff.1 h
    obtain ⟨_, -, h⟩ := Option.bind_eq_some_iff.1 h
    obtain ⟨⟨minute, cs⟩, -, h⟩ := Option.bind_eq_some_iff.1 h
    obtain ⟨_, -, h⟩ := Option.bind_eq_some_iff.1 h
    obtain ⟨⟨s, cs⟩, -, h⟩ := Option.bind_eq_some_iff.1 h
    obtain ⟨⟨fraction, cs⟩, hf, h⟩ := Option.bind_eq_some_iff.1 h
    obtain ⟨⟨offset, cs⟩, ho, h⟩ := Option.bind_eq_some_iff.1 h
    dsimp only at h
    split at h
    · cases h
    · exact ⟨_, _, _, _, _, _, ⟨_, _, hf⟩, ⟨_, _, ho⟩, h⟩

theorem inRange_of_parse? {cs : List Char} {t : Instant} (h : parse? cs = some t) :
    t.inRange = true := by
  obtain ⟨_, _, _, _, _, _, -, -, hlocal⟩ := exists_ofLocal?_of_parse? h
  exact inRange_of_ofLocal? hlocal

/-- Whether an instant lies within the years of the calendar and in no leap second. -/
structure Regular (t : Instant) : Prop where
  inRange : t.inRange = true
  isLeap : t.isLeap = false

/-! ## Order -/

theorem before_iff {t u : Instant} :
    t.before u = true ↔ t.seconds < u.seconds ∨ t.seconds = u.seconds ∧ t.nanos < u.nanos := by
  unfold before
  rw [Bool.or_eq_true, Bool.and_eq_true, decide_eq_true_eq, decide_eq_true_eq, beq_iff_eq]

theorem before_irrefl (t : Instant) : t.before t = false := by
  rw [Bool.eq_false_iff, Ne, before_iff]
  omega

theorem before_trans {t u v : Instant} (h : t.before u = true) (h' : u.before v = true) :
    t.before v = true := by
  rw [before_iff] at h h' ⊢
  omega

theorem not_before_of_before {t u : Instant} (h : t.before u = true) : u.before t = false := by
  rw [Bool.eq_false_iff, Ne]
  rw [before_iff] at h ⊢
  omega

theorem not_before_trans {t u v : Instant} (h : t.before u = false) (h' : u.before v = false) :
    t.before v = false := by
  rw [Bool.eq_false_iff, Ne, before_iff] at h h' ⊢
  omega

/-! ## Nanoseconds -/

/-- The number of an instant in nanoseconds; a leap second has those of the second after it. -/
def ticks (t : Instant) : Int :=
  t.seconds * second + t.nanos

/-- The number of the last nanosecond of the calendar. -/
def lastTick : Int :=
  beyondSecond * second - 1

/-- Outside leap seconds instants differ by their nanoseconds. -/
theorem since_eq {a b : Instant} (ha : a.isLeap = false) (hb : b.isLeap = false) :
    a.since b = a.ticks - b.ticks := by
  have hleap : leapBetween a b = 0 := by
    unfold leapBetween
    simp [ha, hb]
  unfold since ticks
  rw [hleap]
  unfold second
  omega

theorem Regular.before_iff {t u : Instant} (ht : t.Regular) (hu : u.Regular) :
    t.before u = true ↔ t.ticks < u.ticks := by
  have hn := of_decide_eq_false ht.isLeap
  have hm := of_decide_eq_false hu.isLeap
  rw [Instant.before_iff]
  unfold ticks second at *
  omega

theorem ticks_settled {t : Instant} : t.settled.ticks = t.ticks := by
  unfold settled
  split
  · rename_i hc
    simp only [isLeap, Bool.and_eq_true, decide_eq_true_eq] at hc
    unfold ticks second at *
    dsimp only
    omega
  · rfl

/-! ## A microsecond later -/

/-- A microsecond later there are a thousand nanoseconds more, within the leap second, after it or
outside of one. -/
theorem moved_microsecond_cases (t : Instant) :
    (second ≤ t.nanos ∧ t.nanos + 1000 < 2 * second ∧
      t.moved microsecond = ⟨t.seconds, t.nanos + 1000⟩) ∨
    (2 * second ≤ t.nanos + 1000 ∧
      t.moved microsecond = normal t.seconds (t.nanos - second + 1000)) ∨
    (t.nanos < second ∧ t.moved microsecond = normal t.seconds (t.nanos + 1000)) := by
  have hw : microsecond.tdiv second = 0 := by decide
  have hp : microsecond.tmod second = 1000 := by decide
  unfold moved isLeap
  simp only [hw, hp, decide_eq_true_eq, Int.add_zero]
  by_cases hleap : second ≤ t.nanos
  · rw [if_pos hleap]
    by_cases hin : t.nanos + 1000 < 2 * second
    · rw [if_neg (by omega), if_neg (by omega)]
      exact .inl ⟨hleap, hin, rfl⟩
    · rw [if_pos (by omega)]
      exact .inr (.inl ⟨by omega, rfl⟩)
  · rw [if_neg hleap]
    exact .inr (.inr ⟨by omega, rfl⟩)

theorem isLeap_normal (seconds nanos : Int) : (normal seconds nanos).isLeap = false := by
  unfold isLeap normal second
  rw [decide_eq_false_iff_not]
  dsimp only
  omega

/-- A microsecond after an instant in no leap second there is none either. -/
theorem isLeap_moved_microsecond {t : Instant} (h : t.isLeap = false) :
    (t.moved microsecond).isLeap = false := by
  rcases t.moved_microsecond_cases with ⟨hl, -, -⟩ | ⟨-, hm⟩ | ⟨-, hm⟩
  · exact absurd hl (of_decide_eq_false h)
  all_goals
    rw [hm]
    exact isLeap_normal ..

theorem before_moved_microsecond (t : Instant) : t.before (t.moved microsecond) = true := by
  rw [before_iff]
  rcases t.moved_microsecond_cases with ⟨-, -, ht⟩ | ⟨hleap, ht⟩ | ⟨hleap, ht⟩
  · rw [ht]
    exact .inr ⟨rfl, Nat.lt_add_of_pos_right (by decide)⟩
  all_goals
    rw [ht]
    unfold normal second at *
    dsimp only
    omega

/-- A microsecond later there are at most a thousand nanoseconds more. -/
theorem ticks_moved_le {t : Instant} (h : t.inRange = true) :
    (t.moved microsecond).ticks ≤ t.ticks + 1000 ∧ t.seconds ≤ (t.moved microsecond).seconds ∧
      (t.moved microsecond).nanos < 2 * second := by
  obtain ⟨-, -, hn⟩ := inRange_iff.1 h
  unfold ticks
  rcases t.moved_microsecond_cases with ⟨-, hin, ht⟩ | ⟨hleap, ht⟩ | ⟨hleap, ht⟩
  · rw [ht]
    dsimp only
    omega
  all_goals
    rw [ht]
    unfold normal second at *
    dsimp only
    omega

theorem plus?_microsecond {t : Instant} (h : t.inRange = true) (hl : t.ticks + 1000 ≤ lastTick) :
    ∃ u, t.plus? microsecond = some u ∧ u.inRange = true ∧ u.ticks ≤ t.ticks + 1000 := by
  obtain ⟨ht, hs, hn⟩ := ticks_moved_le h
  obtain ⟨hfirst, -, -⟩ := inRange_iff.1 h
  have hr : (t.moved microsecond).inRange = true := by
    refine inRange_iff.2 ⟨hfirst.trans hs, ?_, hn⟩
    unfold lastTick ticks second at *
    omega
  refine ⟨_, ?_, hr, ht⟩
  rw [plus?]
  exact if_pos hr

end Instant

/-- A stamp is the time of the clock or a microsecond after the one before, as long as there is such
a time. -/
theorem nextStamp_spec {now : Instant} {previous : Option Instant} {bound : Int}
    (hn : now.inRange = true) (hb : now.ticks ≤ bound)
    (hp : ∀ t, previous = some t → t.inRange = true ∧ t.ticks + 1000 ≤ bound)
    (hl : bound ≤ Instant.lastTick) :
    ∃ stamp, nextStamp now previous = .ok stamp ∧ stamp.inRange = true ∧ stamp.ticks ≤ bound := by
  cases previous with
  | none => exact ⟨now, rfl, hn, hb⟩
  | some t =>
    obtain ⟨hr, ht⟩ := hp t rfl
    unfold nextStamp
    dsimp only
    split
    · exact ⟨now, rfl, hn, hb⟩
    · obtain ⟨u, hu, hur, hut⟩ := Instant.plus?_microsecond hr (ht.trans hl)
      rw [hu]
      exact ⟨u, rfl, hur, hut.trans ht⟩

/-- Instants within the years of the calendar. -/
def Codec.Laws.instant : Laws Codec.instant where
  need := 0
  Fits _ t := t.inRange = true
  settle := Instant.settled
  fits_of_read {room t a} _ _ h := by
    unfold Codec.instant at h
    dsimp only at h
    split at h
    · split at h
      · rename_i time ht
        rw [← Except.ok.inj h]
        exact Instant.inRange_of_parse? ht
      · cases h
    · cases h
  read_write {room a} h := by
    simp only [Codec.instant, Tree.ofJson, String.toList_ofList, Instant.parse?_render h]
  fits_mono _ h := h

end ControlPlane
