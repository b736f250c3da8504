import ControlPlane.Proofs.Text.Numeral
import ControlPlane.Proofs.Time.Calendar
import ControlPlane.Time.Rfc3339

/-!
# Times as text: what is written is read

The text of an instant is read as the instant (`Instant.parse?_render`), but for a leap second that
is not the last second of a minute, which becomes the ordinary second that follows
(`Instant.settled`).
-/

namespace ControlPlane.Numeral

/-- A number that is filled up with zeros is made of digits, whatever its width. -/
theorem padded_eq (width n : Nat) : ∃ ds : List Nat, padded width (decimal n) = ds.map digit ∧
    ds ≠ [] ∧ (∀ d ∈ ds, d < 10) ∧ ofDigits 10 ds = n := by
  obtain ⟨ds, he, hne, hd, hv⟩ := decimal_eq n
  refine ⟨List.replicate (width - ds.length) 0 ++ ds, ?_, by simp [hne], fun d h => ?_, ?_⟩
  · rw [padded, he, List.length_map, List.map_append, List.map_replicate]
    rfl
  · rcases List.mem_append.1 h with h | h
    · rw [List.eq_of_mem_replicate h]
      decide
    · exact hd d h
  · rw [ofDigits_replicate_zero, hv]

end ControlPlane.Numeral

namespace ControlPlane.Instant

open ControlPlane.Text ControlPlane.Numeral

/-! ## Parts of the text -/

theorem not_isBlank_digit : ∀ d < 10, isBlank (digit d) = false := by decide

theorem skipBlank_of_not_blank {c : Char} (h : isBlank c = false) (cs : List Char) :
    skipBlank (c :: cs) = c :: cs :=
  List.dropWhile_cons_of_neg (by simp [h])

theorem skipBlank_digits {ds : List Nat} (hne : ds ≠ []) (hd : ∀ d ∈ ds, d < 10)
    (rest : List Char) : skipBlank (ds.map digit ++ rest) = ds.map digit ++ rest := by
  obtain ⟨d, ds, rfl⟩ := List.exists_cons_of_ne_nil hne
  exact skipBlank_of_not_blank (not_isBlank_digit d (hd d List.mem_cons_self)) _

/-- A number filled up to a width is read in that width. -/
theorem number?_padded {width n : Nat} (hw : 0 < width) (h : n < 10 ^ width) (rest : List Char) :
    number? width (padded width (decimal n) ++ rest) = some (n, rest) := by
  obtain ⟨ds, he, hl, hd, hv⟩ := padded_decimal hw h
  have hne : ds ≠ [] := by
    rintro rfl
    simp at hl
    omega
  rw [number?, he, skipBlank_digits hne hd, takeDigits_map_digit hd (Nat.le_of_eq hl) (.inl hl)]
  cases ds with
  | nil => exact absurd rfl hne
  | cons d ds => simp [hv]

theorem number?_two {n : Nat} (h : n < 100) (rest : List Char) :
    number? 2 (two n ++ rest) = some (n, rest) :=
  number?_padded (by decide) h rest

theorem mark?_cons {c : Char} (h : isBlank c = false) (rest : List Char) :
    mark? c (c :: rest) = some rest := by
  rw [mark?, skipBlank_of_not_blank h]
  simp

theorem signedYear_padded (sign : Int) (width n : Nat) {rest : List Char} (hr : NoDigit rest) :
    year?.signedYear sign (padded width (decimal n) ++ rest) = some (sign * n, rest) := by
  obtain ⟨ds, he, hne, hd, hv⟩ := padded_eq width n
  rw [year?.signedYear, he, takeDigits_map_digit hd (by simp) (.inr hr)]
  cases ds with
  | nil => exact absurd rfl hne
  | cons d ds => simp [hv]

theorem digit_ne_sign : ∀ d < 10, digit d ≠ '-' ∧ digit d ≠ '+' := by decide

/-- A year is read up to the mark behind it. -/
theorem year?_yearText (y : Int) {rest : List Char} (hr : NoDigit rest) :
    year? (yearText y ++ rest) = some (y, rest) := by
  unfold yearText
  dsimp only
  split
  · rename_i h
    rw [List.cons_append, year?, skipBlank_of_not_blank (by decide)]
    show year?.signedYear (-1) _ = _
    rw [signedYear_padded _ _ _ hr]
    congr 2
    omega
  · rename_i h
    split
    · rw [List.cons_append, year?, skipBlank_of_not_blank (by decide)]
      show year?.signedYear 1 _ = _
      rw [signedYear_padded _ _ _ hr]
      congr 2
      omega
    · rename_i h'
      have hlt : y.natAbs < 10 ^ 4 := by omega
      have hw : 0 < 4 := by decide
      have hnumber := number?_padded hw hlt rest
      obtain ⟨ds, he, hl, hd, -⟩ := padded_decimal hw hlt
      have hne : ds ≠ [] := by
        rintro rfl
        simp at hl
      unfold year?
      rw [he] at hnumber ⊢
      rw [skipBlank_digits hne hd]
      obtain ⟨d, ds, rfl⟩ := List.exists_cons_of_ne_nil hne
      obtain ⟨hminus, hplus⟩ := digit_ne_sign d (hd d List.mem_cons_self)
      rw [List.map_cons, List.cons_append] at hnumber ⊢
      split
      · rename_i heq
        exact absurd (List.cons.inj heq).1 hminus
      · rename_i heq
        exact absurd (List.cons.inj heq).1 hplus
      · rw [hnumber]
        show some (((y.natAbs : Nat) : Int), rest) = _
        congr 2
        omega

theorem noDigit_cons {c : Char} (h : decimal? c = none) (rest : List Char) :
    NoDigit (c :: rest) := by
  intro d hd
  obtain rfl := Option.some.inj hd
  exact h

theorem fraction?_padded {width n : Nat} (hw : 0 < width) (hw' : width ≤ 9) (h : n < 10 ^ width) :
    fraction? ('.' :: padded width (decimal n) ++ ['Z']) = some (n * 10 ^ (9 - width), ['Z']) := by
  obtain ⟨ds, he, hl, hd, hv⟩ := padded_decimal hw h
  rw [List.cons_append, fraction?, he,
    takeDigits_map_digit hd (by omega) (.inr (noDigit_cons (by decide) []))]
  cases ds with
  | nil =>
    simp at hl
    omega
  | cons d ds =>
    dsimp only
    rw [hv, hl]
    rfl

/-- A fraction is read up to the letter behind it. -/
theorem fraction?_fractionText {n : Nat} (h : n < second) :
    fraction? (fractionText n ++ ['Z']) = some (n, ['Z']) := by
  have hs : second = 1000000000 := rfl
  unfold fractionText
  split
  · rename_i hn
    rw [hn]
    rfl
  · split
    · rw [fraction?_padded (by decide) (by decide) (by omega)]
      congr 2
      omega
    · split
      · rw [fraction?_padded (by decide) (by decide) (by omega)]
        congr 2
        omega
      · rw [fraction?_padded (by decide) (by decide) (by omega)]
        congr 2
        omega

/-! ## Instants -/

/-- An instant as it is read. The last second of a minute alone is prolonged. -/
def settled (t : Instant) : Instant :=
  if t.isLeap && t.seconds % 60 != 59 then ⟨t.seconds + 1, t.nanos - second⟩ else t

theorem inRange_iff {t : Instant} : t.inRange = true ↔
    firstSecond ≤ t.seconds ∧ t.seconds < beyondSecond ∧ t.nanos < 2 * second := by
  simp only [inRange, Bool.and_eq_true, decide_eq_true_eq, and_assoc]

/-- The years of an instant are those of the calendar. -/
theorem year_bounds {t : Instant} (h : t.inRange = true) :
    Date.firstYear ≤ (Date.ofDays (t.seconds / daySeconds)).year ∧
      (Date.ofDays (t.seconds / daySeconds)).year ≤ Date.lastYear := by
  obtain ⟨hl, hu, -⟩ := inRange_iff.1 h
  unfold firstSecond daySeconds at hl
  unfold beyondSecond daySeconds at hu
  obtain ⟨hy, hy'⟩ := Date.year_ofDays_bounds (t.seconds / 86400) Date.firstYear
    (Date.lastYear + 1) (by omega) (by omega)
  exact ⟨hy, Int.lt_add_one_iff.1 hy'⟩

/-- The time of day of an instant. -/
theorem secondOfDay_spec (t : Instant) : (t.seconds % daySeconds).toNat < 86400 ∧
    t.seconds = t.seconds / daySeconds * daySeconds + (t.seconds % daySeconds).toNat := by
  unfold daySeconds
  omega

/-- The whole second of the fraction of an instant, which only a leap second has. -/
theorem nanos_spec {t : Instant} (h : t.inRange = true) :
    t.nanos % second < second ∧
      (t.nanos / second = 0 ∧ t.isLeap = false ∧ t.nanos = t.nanos % second ∨
        t.nanos / second = 1 ∧ t.isLeap = true ∧ t.nanos = t.nanos % second + second) := by
  obtain ⟨-, -, hn⟩ := inRange_iff.1 h
  unfold isLeap second at *
  simp only [decide_eq_true_eq, decide_eq_false_iff_not]
  omega

theorem settled_inRange {t : Instant} (h : t.inRange = true) : t.settled.inRange = true := by
  obtain ⟨hl, hu, hn⟩ := inRange_iff.1 h
  -- The last instant lies at the end of a minute.
  have hb : beyondSecond = 60 * 137873901600 := by decide
  unfold settled
  split
  · rename_i hc
    simp only [Bool.and_eq_true, bne_iff_ne] at hc
    refine inRange_iff.2 ⟨?_, ?_, ?_⟩
    · show firstSecond ≤ t.seconds + 1
      omega
    · show t.seconds + 1 < beyondSecond
      omega
    · show t.nanos - second < 2 * second
      omega
  · exact h

/-- The instant of the time of day that is written. -/
theorem settled_eq {t : Instant} (h : t.inRange = true) {s : Nat}
    (hs : (t.seconds % daySeconds).toNat = s) :
    t.settled = if s % 60 + t.nanos / second = 60
      then ⟨t.seconds / daySeconds * daySeconds +
        ((s / 3600 * 3600 + s / 60 % 60 * 60 + 59 : Nat) : Int) - 0, t.nanos % second + second⟩
      else ⟨t.seconds / daySeconds * daySeconds +
        ((s / 3600 * 3600 + s / 60 % 60 * 60 + (s % 60 + t.nanos / second) : Nat) : Int) - 0,
        t.nanos % second⟩ := by
  obtain ⟨hlt, ht⟩ := secondOfDay_spec t
  obtain ⟨-, hq⟩ := nanos_spec h
  rw [hs] at hlt ht
  unfold daySeconds at ht ⊢
  have hsec : t.seconds % 60 = (s % 60 : Nat) := by omega
  obtain ⟨seconds, nanos⟩ := t
  dsimp only at ht hsec hq ⊢
  unfold settled
  rcases hq with ⟨hq, hleap, hn⟩ | ⟨hq, hleap, hn⟩
  · rw [hleap, hq, Bool.false_and, if_neg Bool.false_ne_true, if_neg (by omega)]
    simp only [Instant.mk.injEq]
    omega
  · rw [hleap, hq, Bool.true_and]
    simp only [bne_iff_ne]
    split
    · rw [if_neg (by omega)]
      simp only [Instant.mk.injEq]
      omega
    · rw [if_pos (by omega)]
      simp only [Instant.mk.injEq]
      omega

/-- The instant with the date and the time of day of an instant. -/
theorem ofLocal?_eq {t : Instant} (h : t.inRange = true) {s : Nat}
    (hs : (t.seconds % daySeconds).toNat = s) :
    ofLocal? (Date.ofDays (t.seconds / daySeconds)) (s / 3600) (s / 60 % 60)
      (s % 60 + t.nanos / second) (t.nanos % second) 0 = some t.settled := by
  obtain ⟨hfirst, hlast⟩ := year_bounds h
  obtain ⟨hlt, -⟩ := secondOfDay_spec t
  obtain ⟨-, hq⟩ := nanos_spec h
  have hrange := settled_inRange h
  have hsettled := settled_eq h hs
  have hdate : ¬(!(Date.ofDays (t.seconds / daySeconds)).exists? ||
      decide ((Date.ofDays (t.seconds / daySeconds)).year < Date.firstYear) ||
      decide (Date.lastYear < (Date.ofDays (t.seconds / daySeconds)).year)) = true := by
    rw [Date.exists_ofDays]
    simp only [Bool.or_eq_true, decide_eq_true_eq, Bool.not_true, Bool.false_eq_true, false_or]
    omega
  have htime : ¬(24 ≤ s / 3600 ∨ 60 ≤ s / 60 % 60 ∨ 61 ≤ s % 60 + t.nanos / second) := by
    omega
  unfold ofLocal?
  simp only [if_neg hdate, if_neg htime, Date.toDays_ofDays]
  by_cases h60 : s % 60 + t.nanos / second = 60
  · rw [if_pos h60] at hsettled
    simp only [if_pos h60]
    rw [← hsettled, if_pos hrange]
  · rw [if_neg h60] at hsettled
    simp only [if_neg h60]
    rw [← hsettled, if_pos hrange]

/-- What is written of an instant is read. -/
theorem parse?_render {t : Instant} (h : t.inRange = true) : parse? t.render = some t.settled := by
  have hlocal := ofLocal?_eq h rfl
  obtain ⟨hlt, -⟩ := secondOfDay_spec t
  obtain ⟨hn, hq⟩ := nanos_spec h
  have hdash : isBlank '-' = false := by decide
  have hcolon : isBlank ':' = false := by decide
  have hmonth := Date.month_ofDays_lt (t.seconds / daySeconds)
  have hday := Date.day_ofDays_lt (t.seconds / daySeconds)
  have hhour : (t.seconds % daySeconds).toNat / 3600 < 100 := by omega
  have hminute : (t.seconds % daySeconds).toNat / 60 % 60 < 100 := by omega
  have hsecond : (t.seconds % daySeconds).toNat % 60 + t.nanos / second < 100 := by omega
  unfold parse?
  simp only [render, secondText, List.append_assoc, List.cons_append, List.nil_append]
  refine Option.bind_eq_some_iff.2 ⟨_, year?_yearText _ (noDigit_cons (by decide) _), ?_⟩
  refine Option.bind_eq_some_iff.2 ⟨_, mark?_cons hdash _, ?_⟩
  refine Option.bind_eq_some_iff.2 ⟨_, number?_two hmonth _, ?_⟩
  refine Option.bind_eq_some_iff.2 ⟨_, mark?_cons hdash _, ?_⟩
  refine Option.bind_eq_some_iff.2 ⟨_, number?_two hday _, ?_⟩
  refine Option.bind_eq_some_iff.2 ⟨_, rfl, ?_⟩
  refine Option.bind_eq_some_iff.2 ⟨_, number?_two hhour _, ?_⟩
  refine Option.bind_eq_some_iff.2 ⟨_, mark?_cons hcolon _, ?_⟩
  refine Option.bind_eq_some_iff.2 ⟨_, number?_two hminute _, ?_⟩
  refine Option.bind_eq_some_iff.2 ⟨_, mark?_cons hcolon _, ?_⟩
  refine Option.bind_eq_some_iff.2 ⟨_, number?_two hsecond _, ?_⟩
  refine Option.bind_eq_some_iff.2 ⟨_, fraction?_fractionText hn, ?_⟩
  exact hlocal

end ControlPlane.Instant
