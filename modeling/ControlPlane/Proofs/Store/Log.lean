import ControlPlane.Proofs.Except
import ControlPlane.Proofs.Store.Record
import ControlPlane.Store.Log

/-!
# The log: replaying

A log that ends at the end of a line is replayed as far as it goes, and what is added to it from
there (`Log.replay_append`). One that ends inside a line loses that line to the first change that
is added (`Log.replay_append_of_not_ended`). What a change that was broken off leaves behind is
nothing, the whole change or a line that is not read (`Log.replay_torn`).
-/

namespace ControlPlane.Log

open Change (lineEnd)

/-! ## Lines -/

/-- Whether a content ends where a line does. -/
def Ended (content : Bytes) : Prop :=
  ∀ b ∈ content.getLast?, b = lineEnd

theorem ended_nil : Ended [] := by
  intro b hb
  simp at hb

theorem ended_concat {bs : Bytes} {b : UInt8} : Ended (bs ++ [b]) ↔ b = lineEnd := by
  simp [Ended]

theorem ended_singleton {b : UInt8} : Ended [b] ↔ b = lineEnd := by
  simp [Ended]

theorem ended_line (c : Change) : Ended c.line := by
  rw [c.line_eq, ended_concat]

theorem Ended.append {bs cs : Bytes} (hb : Ended bs) (hc : Ended cs) : Ended (bs ++ cs) := by
  rcases List.eq_nil_or_concat cs with rfl | ⟨ds, b, rfl⟩
  · rwa [List.append_nil]
  · rw [List.concat_eq_append] at hc ⊢
    rw [← List.append_assoc, ended_concat]
    exact ended_concat.1 hc

theorem ended_ofChanges (cs : List Change) : Ended (ofChanges cs) := by
  induction cs with
  | nil => exact ended_nil
  | cons c cs ih => exact (ended_line c).append ih

/-- What stands behind the last line end of a content that does not end at one. -/
theorem exists_lastLine {content : Bytes} (h : ¬Ended content) :
    ∃ front last, content = front ++ last ∧ Ended front ∧ last ≠ [] ∧ lineEnd ∉ last := by
  induction content with
  | nil => exact absurd ended_nil h
  | cons b rest ih =>
    by_cases hr : Ended rest
    · have hnil : rest = [] := by
        by_contra hne
        refine h fun a ha => hr a ?_
        rwa [List.getLast?_cons_of_ne_nil hne] at ha
      subst hnil
      refine ⟨[], [b], rfl, ended_nil, List.cons_ne_nil _ _, fun hm => h ?_⟩
      rw [List.mem_singleton] at hm
      exact ended_singleton.2 hm.symm
    · obtain ⟨front, last, rfl, hf, hl, hn⟩ := ih hr
      by_cases hfront : front = []
      · subst hfront
        by_cases hb : b = lineEnd
        · exact ⟨[b], last, rfl, ended_singleton.2 hb, hl, hn⟩
        · refine ⟨[], b :: last, rfl, ended_nil, List.cons_ne_nil _ _, fun hm => ?_⟩
          rcases List.mem_cons.1 hm with rfl | hm
          · exact hb rfl
          · exact hn hm
      · refine ⟨b :: front, last, rfl, fun a ha => hf a ?_, hl, hn⟩
        rwa [List.getLast?_cons_of_ne_nil hfront] at ha

/-- Bytes that end no line are added to the line under way. -/
theorem linesFrom_append {p : Bytes} (h : lineEnd ∉ p) (line rest : Bytes) :
    linesFrom line (p ++ rest) = linesFrom (p.reverse ++ line) rest := by
  induction p generalizing line with
  | nil => rfl
  | cons b p ih =>
    rw [List.mem_cons, not_or] at h
    rw [List.cons_append, linesFrom, if_neg (Ne.symm h.1), ih h.2]
    simp

/-- Bytes that end no line are one line. -/
theorem lines_of_not_mem {p : Bytes} (h : lineEnd ∉ p) (hp : p ≠ []) : lines p = [p] := by
  have := linesFrom_append h [] []
  rw [List.append_nil, List.append_nil] at this
  rw [lines, this, linesFrom, if_neg (by simpa using hp), List.reverse_reverse]

theorem linesFrom_concat_append (bs line rest : Bytes) :
    linesFrom line (bs ++ [lineEnd] ++ rest) = linesFrom line (bs ++ [lineEnd]) ++ lines rest := by
  induction bs generalizing line with
  | nil => simp [linesFrom, lines]
  | cons b bs ih =>
    rw [List.cons_append, List.cons_append, linesFrom, linesFrom]
    split
    · rw [ih, List.cons_append]
    · exact ih _

/-- What follows a line end begins a line. -/
theorem lines_append {content : Bytes} (h : Ended content) (rest : Bytes) :
    lines (content ++ rest) = lines content ++ lines rest := by
  rcases List.eq_nil_or_concat content with rfl | ⟨bs, b, rfl⟩
  · rfl
  · rw [List.concat_eq_append] at h ⊢
    obtain rfl := ended_concat.1 h
    exact linesFrom_concat_append bs [] rest

theorem lineEnd_not_mem_body (c : Change) : lineEnd ∉ c.body :=
  fun h => Change.ne_lineEnd_of_mem_body h rfl

/-- The line of a change goes to the line under way. -/
theorem lines_body {l : Bytes} (hl : lineEnd ∉ l) (c : Change) :
    lines (l ++ c.line) = [l ++ c.body] := by
  obtain ⟨bs, hb⟩ := c.body_eq_concat
  have hn : lineEnd ∉ l ++ c.body := by
    rw [List.mem_append, not_or]
    exact ⟨hl, lineEnd_not_mem_body c⟩
  rw [c.line_eq, ← List.append_assoc, lines, linesFrom_append hn, linesFrom, if_pos rfl, hb]
  simp [dropReturn, linesFrom]

theorem lines_line (c : Change) : lines c.line = [c.body] :=
  lines_body (List.not_mem_nil) c

theorem lines_ofChanges (cs : List Change) : lines (ofChanges cs) = cs.map Change.body := by
  induction cs with
  | nil => rfl
  | cons c cs ih =>
    rw [ofChanges, List.flatMap_cons, lines_append (ended_line c), lines_line, ← ofChanges, ih]
    rfl

theorem ofChanges_append (cs ds : List Change) :
    ofChanges (cs ++ ds) = ofChanges cs ++ ofChanges ds :=
  List.flatMap_append

theorem ofChanges_singleton (c : Change) : ofChanges [c] = c.line :=
  List.flatMap_singleton _ _

/-! ## Replaying -/

theorem replayFrom_append (number : Nat) (m : KeyMap) (ls more : List Bytes) :
    replayFrom number m (ls ++ more) =
      (replayFrom number m ls >>= fun m => replayFrom (number + ls.length) m more) := by
  induction ls generalizing number m with
  | nil => rfl
  | cons l ls ih =>
    rw [List.cons_append, replayFrom, replayFrom, List.length_cons]
    cases Change.ofLine l with
    | error f => rfl
    | ok c =>
      dsimp only
      rw [ih, Nat.add_right_comm, Nat.add_assoc]

/-- The lines of changes are replayed as the changes. -/
theorem replayFrom_bodies (number : Nat) (m : KeyMap) (cs : List Change) :
    replayFrom number m (cs.map Change.body) = .ok (cs.foldl Change.apply m) := by
  induction cs generalizing number m with
  | nil => rfl
  | cons c cs ih =>
    rw [List.map_cons, replayFrom, Change.ofLine_body]
    exact ih _ _

/-- The lines of changes, replayed on any map from any line number on, are the changes. -/
theorem replayFrom_ofChanges (number : Nat) (m : KeyMap) (cs : List Change) :
    replayFrom number m (lines (ofChanges cs)) = .ok (cs.foldl Change.apply m) := by
  rw [lines_ofChanges, replayFrom_bodies]

/-- The log of changes is replayed as the changes. -/
theorem replay_ofChanges (cs : List Change) :
    replay (ofChanges cs) = .ok (cs.foldl Change.apply .empty) :=
  replayFrom_ofChanges 1 .empty cs

/-- Changes are added to a log that ends at the end of a line. -/
theorem replay_append {content : Bytes} {m : KeyMap} (h : replay content = .ok m)
    (he : Ended content) (cs : List Change) :
    replay (content ++ ofChanges cs) = .ok (cs.foldl Change.apply m) := by
  rw [replay, lines_append he, replayFrom_append, ← replay, h]
  exact replayFrom_ofChanges _ _ _

/-- A log that ends inside a line loses the line to the first change that is added. -/
theorem replay_append_of_not_ended {content : Bytes} {m : KeyMap} (h : replay content = .ok m)
    (he : ¬Ended content) {cs : List Change} (hc : cs ≠ []) :
    replay (content ++ ofChanges cs) =
      .error (.badRecord (lines content).length .malformed) := by
  obtain ⟨front, last, rfl, hf, hl, hn⟩ := exists_lastLine he
  have hlines : lines (front ++ last) = lines front ++ [last] := by
    rw [lines_append hf, lines_of_not_mem hn hl]
  rw [replay, hlines, replayFrom_append] at h
  obtain ⟨m₁, hm, h⟩ := Except.bind_eq_ok.1 h
  obtain ⟨d, hd⟩ : ∃ d, Change.ofLine last = .ok d := by
    cases hd : Change.ofLine last with
    | ok d => exact ⟨d, rfl⟩
    | error f =>
      rw [replayFrom, hd] at h
      simp at h
  obtain ⟨c, cs, rfl⟩ := List.exists_cons_of_ne_nil hc
  have hglued : lines (front ++ last ++ ofChanges (c :: cs)) =
      lines front ++ (last ++ c.body) :: lines (ofChanges cs) := by
    have he : Ended (front ++ (last ++ c.line)) := by
      rw [c.line_eq, ← List.append_assoc, ← List.append_assoc, ended_concat]
    rw [show front ++ last ++ ofChanges (c :: cs) = front ++ (last ++ c.line) ++ ofChanges cs by
      simp [ofChanges], lines_append he, lines_append hf, lines_body hn, List.append_assoc]
    rfl
  rw [replay, hglued, replayFrom_append, hm, hlines, List.length_append, List.length_singleton,
    Nat.add_comm]
  show replayFrom _ _ _ = _
  rw [replayFrom, Change.ofLine_append hd]
  rfl

/-! ## Changes that were broken off -/

/-- Why the line that a broken change left behind is not read. -/
inductive TornError (number : Nat) : StoreError → Prop where
  | notText : TornError number (.readLog number .notText)
  | badRecord (fault : Fault) : TornError number (.badRecord number fault)

/-- The part of a line before its end is a whole one or breaks off inside the record. -/
theorem prefix_line {c : Change} {p : Bytes} (h : p <+: c.line) :
    p = c.line ∨ ∃ q, p ++ q = c.body := by
  obtain ⟨q, hq⟩ := h
  rcases List.eq_nil_or_concat q with rfl | ⟨qs, b, rfl⟩
  · rw [List.append_nil] at hq
    exact .inl hq
  · rw [List.concat_eq_append, ← List.append_assoc, c.line_eq] at hq
    exact .inr ⟨qs, (List.append_inj' hq rfl).1⟩

/-- A log with a change that was broken off: what is left of it is nothing, the whole change with or
without the end of its line, or a line that is not read. -/
theorem replay_torn (cs : List Change) {c : Change} {p : Bytes} (h : p <+: c.line) :
    p = [] ∧ replay (ofChanges cs ++ p) = .ok (cs.foldl Change.apply .empty) ∨
    (p = c.body ∨ p = c.line) ∧
      replay (ofChanges cs ++ p) = .ok (c.apply (cs.foldl Change.apply .empty)) ∨
    (p ≠ [] ∧ p ≠ c.body ∧ p ≠ c.line) ∧
      ∃ e, TornError (cs.length + 1) e ∧ replay (ofChanges cs ++ p) = .error e := by
  have hreplay : replay (ofChanges cs ++ p) =
      replayFrom (1 + cs.length) (cs.foldl Change.apply .empty) (lines p) := by
    rw [replay, lines_append (ended_ofChanges cs), replayFrom_append, ← replay, replay_ofChanges,
      lines_ofChanges, List.length_map]
    rfl
  rw [hreplay]
  by_cases hp : p = []
  · subst hp
    exact .inl ⟨rfl, rfl⟩
  right
  by_cases hl : p = c.line
  · subst hl
    refine .inl ⟨.inr rfl, ?_⟩
    rw [lines_line, replayFrom, Change.ofLine_body]
    rfl
  obtain ⟨q, hq⟩ := (prefix_line h).resolve_left hl
  have hlines : lines p = [p] := by
    refine lines_of_not_mem (fun hm => lineEnd_not_mem_body c ?_) hp
    rw [← hq]
    exact List.mem_append_left _ hm
  rw [hlines, replayFrom]
  by_cases hb : p = c.body
  · subst hb
    refine .inl ⟨.inl rfl, ?_⟩
    rw [Change.ofLine_body]
    rfl
  · right
    refine ⟨⟨hp, hb, hl⟩, ?_⟩
    have hqne : q ≠ [] := by
      rintro rfl
      rw [List.append_nil] at hq
      exact hb hq
    rw [Nat.add_comm]
    rcases Change.ofLine_of_prefix hq hqne with hf | ⟨f, hf⟩
    · exact ⟨_, .notText, by rw [hf]; rfl⟩
    · exact ⟨_, .badRecord f, by rw [hf]; rfl⟩

end ControlPlane.Log
