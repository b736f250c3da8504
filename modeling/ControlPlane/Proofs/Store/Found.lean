import ControlPlane.Proofs.Store.Run

/-!
# Durable stores: logs that were found

A store can be opened on a log that it did not write. Changes that are then made are there when the
folder is opened again if the log ended where a line does. If it did not, the first of them is
written behind the last line that was there, and the folder cannot be opened again
(`Durable.openFolder_after_changes`).
-/

namespace ControlPlane.Durable

/-- A store makes changes one after the other, and all of them succeed. -/
inductive Makes : Durable → Disk → List Change → Durable → Disk → Prop
  | none {s d} : Makes s d [] s d
  | one {s d c s₁ d₁ cs s₂ d₂} : s.commit d c = (Option.none, s₁, d₁) → Makes s₁ d₁ cs s₂ d₂ →
      Makes s d (c :: cs) s₂ d₂

variable {folder : String} {file : Nat} {log : Bytes} {s s' : Durable} {d₀ d d' : Disk}
  {cs : List Change}

/-- The lines of changes that are made are added to the log. -/
theorem Makes.serves (h : Makes s d cs s' d') (hs : Serves folder file log s d) :
    Serves folder file (log ++ Log.ofChanges cs) s' d' ∧
      s'.data = cs.foldl Change.apply s.data := by
  induction h generalizing log with
  | none =>
    rw [Log.ofChanges, List.flatMap_nil, List.append_nil]
    exact ⟨hs, rfl⟩
  | @one s d c s₁ d₁ cs s₂ d₂ hc _ ih =>
    cases commit_spec hs hc with
    | made data _ _ _ serves =>
      obtain ⟨hs₂, hdata⟩ := ih serves
      rw [List.append_assoc] at hs₂
      exact ⟨hs₂, by rw [hdata, data, List.foldl_cons]⟩

/-- Changes behind the end of a line are there when the folder is opened again. -/
theorem Makes.openFolder_of_ended (h : Makes s d cs s' d') (hs : Serves folder file log s d)
    (hr : Log.replay log = .ok s.data) (he : Log.Ended log) :
    openFolder d' folder = (.ok ⟨inFolder folder logName, cs.foldl Change.apply s.data, some file,
      (log ++ Log.ofChanges cs).length, false⟩, d') :=
  (h.serves hs).1.openFolder_of_ok (Log.replay_append hr he cs)

/-- Changes behind a line without end take the folder away. -/
theorem Makes.openFolder_of_not_ended (h : Makes s d cs s' d') (hs : Serves folder file log s d)
    (hr : Log.replay log = .ok s.data) (he : ¬Log.Ended log) (hc : cs ≠ []) :
    openFolder d' folder = (.error (.badRecord (Log.lines log).length .malformed), d') :=
  (h.serves hs).1.openFolder_of_error (Log.replay_append_of_not_ended hr he hc)

/-- An opened store serves its folder with a log that leads to its map. -/
theorem exists_serves (hv : d₀.FilesValid) (ho : openFolder d₀ folder = (.ok s, d)) :
    ∃ file log, Serves folder file log s d ∧ Log.replay log = .ok s.data := by
  obtain ⟨d₁, file, hd₁, -, -, ⟨hr, rfl, hdata, hs⟩ | ⟨-, hdata, hs⟩⟩ := serves_of_openFolder ho
  · exact ⟨file, _, hs ((hv.makeFolders hd₁).lt hr), hdata⟩
  · exact ⟨file, [], hs, by rw [hdata]; rfl⟩

/-- Whether a folder can be opened again after changes were made in it depends on the end of the log
that was found. -/
theorem openFolder_after_changes (hv : d₀.FilesValid) (ho : openFolder d₀ folder = (.ok s, d))
    (hm : Makes s d cs s' d') (hc : cs ≠ []) :
    ∃ log, d.load (inFolder folder logName) = .ok log ∧
      (Log.Ended log → ∃ s'', openFolder d' folder = (.ok s'', d') ∧
        s''.data = cs.foldl Change.apply s.data) ∧
      (¬Log.Ended log →
        openFolder d' folder = (.error (.badRecord (Log.lines log).length .malformed), d')) := by
  obtain ⟨file, log, hs, hr⟩ := exists_serves hv ho
  exact ⟨log, hs.load, fun he => ⟨_, hm.openFolder_of_ended hs hr he, rfl⟩,
    fun he => hm.openFolder_of_not_ended hs hr he hc⟩

/-- A change that is made in a new folder is there when the folder is opened again. -/
theorem openFolder_after_put : ∃ s d s' d', openFolder {} "d" = (.ok s, d) ∧
    Makes s d [.put "a" [49]] s' d' ∧ ∃ s'', openFolder d' "d" = (.ok s'', d') ∧
      s''.data = s.data.insert "a" [49] := by
  obtain ⟨hvacant, s, d, ho, hp, hf, hd⟩ := openFolder_new
  have hv : Disk.FilesValid {} := by
    intro p n hn
    cases p <;> simp [Disk.entry?] at hn
  have hk : (Change.put "a" [49]).key ≠ "" := by decide
  obtain ⟨s', d', hc, -⟩ := commit_of_faultless hd hp hf hk
  have hm : Makes s d [.put "a" [49]] s' d' := .one hc .none
  obtain ⟨log, hlog, he, -⟩ := openFolder_after_changes hv ho hm (List.cons_ne_nil _ _)
  obtain ⟨file, hs, -⟩ := serves_of_vacant hvacant ho
  obtain rfl : [] = log := Except.ok.inj (hs.load.symm.trans hlog)
  exact ⟨s, d, s', d', ho, hm, he Log.ended_nil⟩

/-! ## A record without the end of its line -/

/-- A disk with a log of one record without the end of its line. -/
def unended : Disk :=
  { names := [(["d", "store.wal"], .file 0), (["d"], .folder)]
    contents := [(Change.put "a" [49]).body] }

theorem serves_unended (s : Durable) (hs : s.path = inFolder "d" logName) (hf : s.file = none) :
    Serves "d" 0 (Change.put "a" [49]).body s unended := by
  have hpath : inFolder "d" logName = "d/store.wal" := by decide +kernel
  have hparts : unended.parts (inFolder "d" logName) = ["d", "store.wal"] := by
    rw [hpath]
    decide
  have hfolder : ∀ last, unended.locate last ["d"] = .ok ["d"] := by
    intro last
    rw [Disk.locate, Disk.follow_cons (by decide)]
    exact Disk.follow_nil _ _ _ _
  have hlog : unended.locate true ["d", "store.wal"] = .ok ["d", "store.wal"] := by
    rw [Disk.locate, Disk.follow_cons (by decide)]
    show Disk.follow _ _ _ ["d"] ["store.wal"] = _
    rw [Disk.follow_cons (by decide)]
    rfl
  refine ⟨hs, .inr ⟨Disk.isFolder_eq_true.2 ⟨_, hfolder true, rfl⟩, _, hfolder false, rfl⟩,
    Disk.openToRead_eq_ok.2 ⟨["d", "store.wal"], ?_, rfl⟩, Nat.zero_lt_one, rfl, fun f h => ?_⟩
  · rw [hparts, hlog]
  · rw [hf] at h
    cases h

/-- The log is accepted and a change is made, and then the folder cannot be opened any more. -/
theorem openFolder_unended : ∃ s d s' d', openFolder unended "d" = (.ok s, d) ∧
    s.commit d (.put "b" [50]) = (none, s', d') ∧
    openFolder d' "d" = (.error (.badRecord 1 .malformed), d') := by
  have hs := serves_unended ⟨inFolder "d" logName, .empty, none, 0, false⟩ rfl rfl
  have hn := Log.lineEnd_not_mem_body (.put "a" [49])
  have hl := Log.lines_of_not_mem hn (Change.body_ne_nil _)
  have hr : Log.replay (Change.put "a" [49]).body = .ok (KeyMap.empty.insert "a" [49]) := by
    rw [Log.replay, hl, Log.replayFrom, Change.ofLine_body]
    rfl
  have ho := hs.openFolder_of_ok hr
  have he : ¬Log.Ended (Change.put "a" [49]).body := by
    obtain ⟨bs, hb⟩ := Change.body_eq_concat (.put "a" [49])
    rw [hb, Log.ended_concat]
    decide
  have hf : Faultless unended := ⟨fun _ => rfl, fun _ => rfl⟩
  let s : Durable := ⟨inFolder "d" logName, KeyMap.empty.insert "a" [49], some 0,
    (Change.put "a" [49]).body.length, false⟩
  have hopened : Serves "d" 0 (Change.put "a" [49]).body s unended := hs.opened _
  obtain ⟨s', d', hc, -⟩ :=
    commit_of_faultless (c := .put "b" [50]) (s := s) hf rfl rfl (by decide)
  refine ⟨s, _, s', d', ho, hc, ?_⟩
  have hm := (Makes.one hc .none).openFolder_of_not_ended hopened hr he (List.cons_ne_nil _ _)
  rwa [hl] at hm

end ControlPlane.Durable
