import ControlPlane.Proofs.Store.Run
import ControlPlane.Store.Basic

/-!
# Durable stores: changes that are broken off

When the machine stops in a change, or a change fails and cannot be cut off the log again, the log
holds the changes that were made and some part of the line of that one. Opening the folder then
leads to the map without the change, to the one with it or to an error that names its line
(`Durable.Run.torn_tail`). The store that is poisoned makes no change any more and touches nothing.
-/

namespace ControlPlane.Durable

/-- What becomes of a store and its disk while the folder is not opened again. -/
inductive Later (s : Durable) (d : Disk) : Durable → Disk → Prop
  | now : Later s d s d
  | committed {s₁ d₁ c e s₂ d₂} : Later s d s₁ d₁ → s₁.commit d₁ c = (e, s₂, d₂) → Later s d s₂ d₂
  | closed {s₁ d₁ e s₂ d₂} : Later s d s₁ d₁ → s₁.close d₁ = (e, s₂, d₂) → Later s d s₂ d₂
  | faulted {s₁ d₁} (faults : DiskFaults) : Later s d s₁ d₁ → Later s d s₁ { d₁ with faults }

/-- The disks that a change leaves behind that is broken off. -/
inductive Interrupted (s : Durable) (d : Disk) (c : Change) : Disk → Prop
  /-- The machine stops in the write, however far it has got. -/
  | crashed {file} (faults : DiskFaults) : s.file = some file →
      Interrupted s d c (Disk.append { d with faults } file c.line).2
  /-- The change fails and poisons the store, and the folder is not opened again. -/
  | poisoned {e s₁ d₁ s₂ d₂} : s.commit d c = (some e, s₁, d₁) → s₁.poisoned = true →
      Later s₁ d₁ s₂ d₂ → Interrupted s d c d₂

/-- What opening a folder leads to whose log holds changes and then a part of the line of one. -/
structure Reopens (folder : String) (cs : List Change) (c : Change) (p : Bytes) (d : Disk) :
    Prop where
  nothing : p = [] → ∃ s, openFolder d folder = (.ok s, d) ∧ s.data = cs.foldl Change.apply .empty
  whole : p = c.line ∨ p ++ [Change.lineEnd] = c.line →
    ∃ s, openFolder d folder = (.ok s, d) ∧ s.data = c.apply (cs.foldl Change.apply .empty)
  part : p ≠ [] → p ≠ c.line → p ++ [Change.lineEnd] ≠ c.line →
    ∃ e, Log.TornError (cs.length + 1) e ∧ openFolder d folder = (.error e, d)

variable {folder : String} {d₀ : Disk} {cs : List Change} {s s' : Durable} {d d' : Disk}
  {c : Change}

/-- Whatever becomes of a store, it serves its folder. -/
theorem Later.serves {file : Nat} {log : Bytes} (h : Later s d s' d')
    (hs : Serves folder file log s d) : ∃ log', Serves folder file log' s' d' := by
  induction h with
  | now => exact ⟨log, hs⟩
  | committed _ hc ih =>
    obtain ⟨log₁, hs₁⟩ := ih
    cases commit_spec hs₁ hc with
    | made _ _ _ _ serves | undone serves | torn _ _ _ _ serves => exact ⟨_, serves⟩
  | closed _ hc ih =>
    obtain ⟨log₁, hs₁⟩ := ih
    obtain ⟨rfl, hsame⟩ := close_eq hc
    exact ⟨log₁, hs₁.of_same hsame rfl fun f hf => by cases hf⟩
  | faulted faults _ ih =>
    obtain ⟨log₁, hs₁⟩ := ih
    exact ⟨log₁, hs₁.of_same ⟨rfl, rfl, rfl⟩ rfl hs₁.handle⟩

/-! ## Poisoned stores -/

/-- A poisoned store stays poisoned and touches nothing. -/
theorem Later.of_poisoned (h : Later s d s' d') (hp : s.poisoned = true) :
    s'.poisoned = true ∧ s'.data = s.data ∧ d.Same d' := by
  induction h with
  | now => exact ⟨hp, rfl, .refl d⟩
  | @committed s₁ d₁ c e s₂ d₂ _ hc ih =>
    obtain ⟨hp₁, hdata, hd⟩ := ih
    by_cases hk : c.key = ""
    · rw [commit, hk] at hc
      cases hc
      exact ⟨hp₁, hdata, hd⟩
    · rw [commit_of_poisoned hp₁ hk] at hc
      cases hc
      exact ⟨hp₁, hdata, hd⟩
  | @closed s₁ d₁ e s₂ d₂ _ hc ih =>
    obtain ⟨hp₁, hdata, hd⟩ := ih
    obtain ⟨rfl, hd₂⟩ := close_eq hc
    exact ⟨hp₁, hdata, hd.trans hd₂⟩
  | faulted faults _ ih =>
    obtain ⟨hp₁, hdata, hd⟩ := ih
    exact ⟨hp₁, hdata, hd.trans ⟨rfl, rfl, rfl⟩⟩

/-! ## Logs with a part of a line -/

theorem Serves.reopens {file : Nat} {p : Bytes} (hp : p <+: c.line)
    (h : Serves folder file (Log.ofChanges cs ++ p) s d) : Reopens folder cs c p d := by
  have hbody : p ++ [Change.lineEnd] = c.line ↔ p = c.body := by
    rw [c.line_eq]
    exact List.append_left_inj _
  rcases Log.replay_torn cs hp with ⟨hnil, hr⟩ | ⟨hl, hr⟩ | ⟨⟨hnil, hb, hl⟩, e, he, hr⟩
  · have hline : c.line ≠ [] := by simp [c.line_eq]
    have hbody' := c.body_ne_nil
    refine ⟨fun _ => ⟨_, h.openFolder_of_ok hr, rfl⟩, fun hw => ?_, fun hn => absurd hnil hn⟩
    rw [hbody] at hw
    subst hnil
    rcases hw with hw | hw
    · exact absurd hw.symm hline
    · exact absurd hw.symm hbody'
  · refine ⟨fun hnil => ?_, fun _ => ⟨_, h.openFolder_of_ok hr, rfl⟩, fun _ hl' hb' => ?_⟩
    · subst hnil
      rcases hl with hl | hl
      · exact absurd hl.symm c.body_ne_nil
      · simp [c.line_eq] at hl
    · rw [Ne, hbody] at hb'
      rcases hl with hl | hl
      · exact absurd hl hb'
      · exact absurd hl hl'
  · refine ⟨fun hn => absurd hn hnil, fun hw => ?_, fun _ _ _ => ⟨e, he, h.openFolder_of_error hr⟩⟩
    rw [hbody] at hw
    rcases hw with hw | hw
    · exact absurd hw hl
    · exact absurd hw hb

/-- A disk that a broken change leaves behind serves the folder with a part of its line. -/
theorem Interrupted.serves {file : Nat} {log : Bytes} (hs : Serves folder file log s d)
    (hp : s.poisoned = false) (h : Interrupted s d c d') :
    ∃ p t, p <+: c.line ∧ Serves folder file (log ++ p) t d' := by
  cases h with
  | @crashed f faults hf =>
    obtain ⟨rfl, -⟩ := hs.handle f hf
    have hs' : Serves folder f log s { d with faults } := hs.of_same ⟨rfl, rfl, rfl⟩ rfl hs.handle
    rcases happ : Disk.append { d with faults } f c.line with ⟨e, d₁⟩
    obtain ⟨p, hp, hw, -⟩ := Disk.append_spec happ
    rw [hs'.content] at hw
    exact ⟨p, { s with file := none }, hp, hs'.wrote hw rfl fun f hf => by cases hf⟩
  | poisoned hc hp₁ hl =>
    cases commit_spec hs hc with
    | undone =>
      rw [hp] at hp₁
      cases hp₁
    | torn part _ _ _ serves =>
      obtain ⟨-, -, hsame⟩ := hl.of_poisoned hp₁
      exact ⟨_, { s with file := none }, part, serves.of_same hsame
        (hs.path.trans serves.path.symm) fun f hf => by cases hf⟩

/-- Every part of the line of a change can be what is left of it. -/
theorem exists_interrupted {file : Nat} {log p : Bytes} (hs : Serves folder file log s d)
    (hf : s.file.isSome) (hp : p <+: c.line) :
    ∃ d', Interrupted s d c d' ∧ d'.load (inFolder folder logName) = .ok (log ++ p) := by
  obtain ⟨f, hf⟩ := Option.isSome_iff_exists.1 hf
  obtain ⟨rfl, -⟩ := hs.handle f hf
  let faults : DiskFaults := { writes := fun _ => some p.length }
  have hs' : Serves folder f log s { d with faults } := hs.of_same ⟨rfl, rfl, rfl⟩ rfl hs.handle
  have hw : Disk.Wrote { d with faults } f (log ++ p)
      (Disk.append { d with faults } f c.line).2 := by
    have htake : c.line.take p.length = p := (List.prefix_iff_eq_take.1 hp).symm
    refine ⟨rfl, rfl, ?_⟩
    show d.contents.set f (d.content f ++ c.line.take p.length) = _
    rw [htake, hs.content]
  have hend : Serves folder f (log ++ p) { s with file := none } _ :=
    hs'.wrote hw rfl fun f hf => by cases hf
  exact ⟨_, .crashed faults hf, hend.load⟩

/-- What opening the folder leads to after a change was broken off, for every part of its line that
may be left, and what a poisoned store still does: it makes no change, touches nothing and goes on
answering from the changes that were made. -/
theorem Run.torn_tail (h : Run folder d₀ cs s d) (hp : s.poisoned = false) (c : Change) :
    (∀ d', Interrupted s d c d' → ∃ p, p <+: c.line ∧
      d'.load (inFolder folder logName) = .ok (Log.ofChanges cs ++ p) ∧
      Reopens folder cs c p d') ∧
    (∀ p, p <+: c.line → s.file.isSome → ∃ d', Interrupted s d c d' ∧
      d'.load (inFolder folder logName) = .ok (Log.ofChanges cs ++ p)) ∧
    ∀ e s₁ d₁, s.commit d c = (some e, s₁, d₁) → s₁.poisoned = true →
      ∀ s₂ d₂, Later s₁ d₁ s₂ d₂ →
        (∀ c', c'.key ≠ "" → s₂.commit d₂ c' = (some .poisoned, s₂, d₂)) ∧ d₁.Same d₂ ∧
        (∀ key, (Store.durable s₂).get? key = (cs.foldl Change.apply .empty).get? key) ∧
        (Store.durable s₂).keys = (cs.foldl Change.apply .empty).keys ∧
        ∀ start, (Store.durable s₂).entriesUnder start =
          (cs.foldl Change.apply .empty).scan start := by
  obtain ⟨file, log, hs, hdata, hlog⟩ := h.serves
  obtain rfl := hlog hp
  refine ⟨fun d' hi => ?_, fun p hp hf => exists_interrupted hs hf hp,
    fun e s₁ d₁ hc hp₁ s₂ d₂ hl => ?_⟩
  · obtain ⟨p, t, hpre, ht⟩ := hi.serves hs hp
    exact ⟨p, hpre, ht.load, ht.reopens hpre⟩
  · obtain ⟨hp₂, hdata₂, hsame⟩ := hl.of_poisoned hp₁
    have hm : s₂.data = cs.foldl Change.apply .empty := by
      cases commit_spec hs hc with
      | undone => exact hdata₂.trans hdata
      | torn _ _ data => exact hdata₂.trans (data.trans hdata)
    refine ⟨fun c' hk => commit_of_poisoned hp₂ hk d₂, hsame, fun key => ?_, ?_, fun start => ?_⟩
    · exact congrArg (·.get? key) hm
    · exact congrArg KeyMap.keys hm
    · exact congrArg (·.scan start) hm

/-- The first byte of a removal is left behind a change that was made. -/
theorem Run.torn_tail_put : ∃ s d d', Run "d" {} [.put "a" [49]] s d ∧ s.poisoned = false ∧
    Interrupted s d (.delete "a") d' ∧
    d'.load (inFolder "d" logName) = .ok (Log.ofChanges [.put "a" [49]] ++ [123]) ∧
    Reopens "d" [.put "a" [49]] (.delete "a") [123] d' := by
  obtain ⟨s, d, hr, hp, hf⟩ := exists_run_put
  obtain ⟨hreopens, hparts, -⟩ := hr.torn_tail hp (.delete "a")
  have hpre : [123] <+: (Change.delete "a").line := ⟨_, rfl⟩
  obtain ⟨d₂, hi, hl⟩ := hparts [123] hpre (by rw [hf]; rfl)
  obtain ⟨p, -, hl', hre⟩ := hreopens d₂ hi
  obtain rfl : p = [123] := List.append_cancel_left (Except.ok.inj (hl'.symm.trans hl))
  exact ⟨s, d, d₂, hr, hp, hi, hl, hre⟩

end ControlPlane.Durable
