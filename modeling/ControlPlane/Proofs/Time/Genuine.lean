import ControlPlane.Proofs.Time.Instant

/-!
# Instants: those that are kept

An instant is genuine if it is written and read again unchanged: it lies in the years of the
calendar, and if it lies in a leap second, that one is the last second of a minute. Every instant
that is read is genuine (`Instant.genuine_of_parse?`), and a stamp is if the time of the clock and
the stamp before are (`genuine_nextStamp`).
-/

namespace ControlPlane

namespace Numeral

/-- The digits at the front of a text are digits, and no more than asked for. -/
theorem takeDigits_spec (limit : Nat) (cs : List Char) :
    (takeDigits limit cs).1.length ≤ limit ∧ ∀ d ∈ (takeDigits limit cs).1, d < 10 := by
  induction limit generalizing cs with
  | zero => simp [takeDigits]
  | succ limit ih =>
    cases cs with
    | nil => simp [takeDigits]
    | cons c cs =>
      rw [takeDigits]
      cases hc : decimal? c with
      | none => simp
      | some d =>
        obtain ⟨hl, hd⟩ := ih cs
        have hlt : d < 10 := (decimal?_eq_some.1 hc).1
        exact ⟨Nat.succ_le_succ hl, List.forall_mem_cons.2 ⟨hlt, hd⟩⟩

end Numeral

namespace Instant

open Numeral

/-- Whether an instant is written and read again unchanged. -/
structure Genuine (t : Instant) : Prop where
  inRange : t.inRange = true
  lastSecond : t.isLeap = true → t.seconds % 60 = 59

theorem Genuine.settled_eq {t : Instant} (h : t.Genuine) : t.settled = t := by
  unfold settled
  split
  · rename_i hc
    simp only [Bool.and_eq_true, bne_iff_ne] at hc
    exact absurd (h.lastSecond hc.1) hc.2
  · rfl

/-! ## What is read -/

theorem fraction?_lt {cs rest : List Char} {n : Nat} (h : fraction? cs = some (n, rest)) :
    n < second := by
  unfold fraction? at h
  split at h
  · rename_i digits
    obtain ⟨hl, hd⟩ := takeDigits_spec 9 digits
    split at h
    · cases h
    · rename_i ds rest' _ hds
      rw [hds] at hl hd
      dsimp only at hl hd
      obtain ⟨rfl, -⟩ := Prod.mk.inj (Option.some.inj h)
      have hlt := ofDigits_lt hd
      have hpow : 10 ^ ds.length * 10 ^ (9 - ds.length) = 10 ^ 9 := by
        rw [← Nat.pow_add]
        congr 1
        omega
      calc ofDigits 10 ds * 10 ^ (9 - ds.length)
          < 10 ^ ds.length * 10 ^ (9 - ds.length) :=
            Nat.mul_lt_mul_of_pos_right hlt (Nat.pow_pos (by decide))
        _ = second := hpow
  · obtain ⟨rfl, -⟩ := Prod.mk.inj (Option.some.inj h)
    decide

/-- An offset has whole minutes. -/
theorem offset?_mod {cs rest : List Char} {o : Int} (h : offset? cs = some (o, rest)) :
    o % 60 = 0 := by
  have amount : ∀ {sign : Int} {cs}, offset?.amount sign cs = some (o, rest) → o % 60 = 0 := by
    intro sign cs h
    unfold offset?.amount at h
    obtain ⟨⟨hours, r⟩, -, h⟩ := Option.bind_eq_some_iff.1 h
    obtain ⟨⟨minutes, r'⟩, -, h⟩ := Option.bind_eq_some_iff.1 h
    dsimp only at h
    split at h
    · cases h
    · obtain ⟨rfl, -⟩ := Prod.mk.inj (Option.some.inj h)
      have hwhole : ((hours * 3600 + minutes * 60 : Nat) : Int) = 60 * (hours * 60 + minutes) := by
        omega
      rw [hwhole, Int.mul_left_comm]
      exact Int.mul_emod_right _ _
  unfold offset? at h
  split at h
  case h_1 | h_2 =>
    obtain ⟨rfl, -⟩ := Prod.mk.inj (Option.some.inj h)
    rfl
  case h_3 | h_4 | h_5 => exact amount h
  case h_6 =>
    split at h
    · obtain ⟨rfl, -⟩ := Prod.mk.inj (Option.some.inj h)
      rfl
    · cases h
  case h_7 => cases h

theorem genuine_of_ofLocal? {date : Date} {h m s fraction : Nat} {offset : Int} {t : Instant}
    (hf : fraction < second) (ho : offset % 60 = 0)
    (ht : ofLocal? date h m s fraction offset = some t) : t.Genuine := by
  refine ⟨inRange_of_ofLocal? ht, ?_⟩
  intro hleap
  unfold ofLocal? at ht
  dsimp only at ht
  split at ht
  · cases ht
  · split at ht
    · cases ht
    · simp only [isLeap, decide_eq_true_eq] at hleap
      unfold daySeconds at ht
      split at ht
      · dsimp only at ht
        split at ht
        · obtain rfl := Option.some.inj ht
          dsimp only
          omega
        · cases ht
      · dsimp only at ht
        split at ht
        · obtain rfl := Option.some.inj ht
          dsimp only at hleap
          omega
        · cases ht

/-- Every instant that is read is genuine. -/
theorem genuine_of_parse? {cs : List Char} {t : Instant} (h : parse? cs = some t) :
    t.Genuine := by
  obtain ⟨_, _, _, _, _, _, ⟨_, _, hf⟩, ⟨_, _, ho⟩, hlocal⟩ := exists_ofLocal?_of_parse? h
  exact genuine_of_ofLocal? (fraction?_lt hf) (offset?_mod ho) hlocal

/-! ## Stamps -/

theorem Genuine.moved_microsecond {t : Instant} (h : t.Genuine)
    (hr : (t.moved microsecond).inRange = true) : (t.moved microsecond).Genuine := by
  refine ⟨hr, ?_⟩
  intro hleap
  rcases t.moved_microsecond_cases with ⟨hl, -, ht⟩ | ⟨-, ht⟩ | ⟨-, ht⟩
  · rw [ht]
    exact h.lastSecond (decide_eq_true hl)
  all_goals
    rw [ht, isLeap_normal] at hleap
    cases hleap

end Instant

/-- A stamp is genuine if the time of the clock and the stamp before are. -/
theorem genuine_nextStamp {now stamp : Instant} {previous : Option Instant} (hn : now.Genuine)
    (hp : ∀ t, previous = some t → t.Genuine) (h : nextStamp now previous = .ok stamp) :
    stamp.Genuine := by
  unfold nextStamp at h
  split at h
  · exact Except.ok.inj h ▸ hn
  · rename_i t
    split at h
    · exact Except.ok.inj h ▸ hn
    · split at h
      · rename_i u hu
        obtain rfl := Except.ok.inj h
        unfold Instant.plus? at hu
        dsimp only at hu
        split at hu
        · rename_i hr
          obtain rfl := Option.some.inj hu
          exact (hp t rfl).moved_microsecond hr
        · cases hu
      · cases h

/-- Genuine instants. -/
def Codec.Laws.genuineInstant : Laws Codec.instant where
  need := 0
  Fits _ t := t.Genuine
  settle t := t
  fits_of_read {room t a} _ _ h := by
    unfold Codec.instant at h
    dsimp only at h
    split at h
    · split at h
      · rename_i time ht
        rw [← Except.ok.inj h]
        exact Instant.genuine_of_parse? ht
      · cases h
    · cases h
  read_write {room a} h := by
    simp only [Codec.instant, Tree.ofJson, String.toList_ofList, Instant.parse?_render h.inRange,
      h.settled_eq]
  fits_mono _ h := h

end ControlPlane
