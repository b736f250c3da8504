import ControlPlane.Proofs.Store.Reading

/-!
# Lines and what they change

The line of a change is text, ends with the one line end in it, and changes the map that it is
applied to by this change and nothing else; the lines of several changes, one behind the other, are
these changes in their order (`Change.lines_exact`). Nothing is asked of the key or of the value.
-/

namespace ControlPlane

/-- A line is the text of its record and a line break. -/
theorem Change.line_eq_encode (c : Change) : c.line = Utf8.encode (c.text ++ ['\n']) := by
  rw [line_eq, body, Utf8.encode, Utf8.encode, List.flatMap_append]
  rfl

/-- A change that was made is in the log with its line. -/
theorem Durable.content_of_commit {folder : String} {file : Nat} {log : Bytes} {s s' : Durable}
    {d d' : Disk} {c : Change} (h : Serves folder file log s d)
    (hc : s.commit d c = (none, s', d')) : d'.content file = log ++ c.line := by
  cases commit_spec h hc with
  | made data kept healthy healthy' serves => exact serves.content

open Log (replayFrom lines ofChanges)

/-- What a store writes for a change is text with one line end, the last byte of it. Without the
line end it is read, on whatever map, as a change of this key to this value and of no other key. The
lines of a list of changes are read as these changes in order, so that the last one of a key
decides. -/
theorem Change.lines_exact :
    (∀ (folder : String) (file : Nat) (log : Bytes) (s s' : Durable) (d d' : Disk) (c : Change),
      Durable.Serves folder file log s d → s.commit d c = (none, s', d') →
        d'.content file = log ++ c.line) ∧
    (∀ c : Change,
      (∃ cs, c.line = Utf8.encode cs ∧ Utf8.decode? c.line = some cs) ∧
      ∃ body, c.line = body ++ [lineEnd] ∧ lineEnd ∉ body ∧
        ∀ (number : Nat) (m : KeyMap), replayFrom number m [body] = .ok (c.apply m) ∧
          ∀ key value, (c.apply m).get? key = some value ↔
            c = .put key value ∨ c.key ≠ key ∧ m.get? key = some value) ∧
    ∀ (cs : List Change) (number : Nat) (m : KeyMap),
      replayFrom number m (lines (ofChanges cs)) = .ok (cs.foldl apply m) ∧
        ∀ key value, (cs.foldl apply m).get? key = some value ↔
          (∃ front rest, cs = front ++ .put key value :: rest ∧ ∀ c ∈ rest, c.key ≠ key) ∨
            m.get? key = some value ∧ ∀ c ∈ cs, c.key ≠ key := by
  refine ⟨fun folder file log s s' d d' c hs hc => Durable.content_of_commit hs hc,
    fun c => ⟨⟨c.text ++ ['\n'], c.line_eq_encode, ?_⟩, ?_⟩, fun cs number m => ?_⟩
  · rw [c.line_eq_encode, Utf8.decode?_encode]
  · refine ⟨c.body, c.line_eq, Log.lineEnd_not_mem_body c,
      fun number m => ⟨?_, fun key value => get?_apply⟩⟩
    exact Log.replayFrom_bodies number m [c]
  · exact ⟨Log.replayFrom_ofChanges number m cs, fun key value => get?_foldl_apply⟩

/-- The key holds a line break, quotes, a backslash and a letter beyond ASCII. -/
theorem Change.lines_exact_put : ∃ s d s' d' file,
    Durable.openFolder {} "d" = (.ok s, d) ∧
      s.commit d (.put "a\n\"\\é" [10, 255]) = (none, s', d') ∧
      d'.content file = Change.line (.put "a\n\"\\é" [10, 255]) := by
  obtain ⟨hv, s, d, ho, hp, hf, hd⟩ := Durable.openFolder_new
  have hk : (Change.put "a\n\"\\é" [10, 255]).key ≠ "" := by decide
  obtain ⟨s', d', hc, -⟩ := Durable.commit_of_faultless hd hp hf hk
  obtain ⟨file, hs, -⟩ := Durable.serves_of_vacant hv ho
  exact ⟨s, d, s', d', file, ho, hc, Change.lines_exact.1 "d" file [] s s' d d' _ hs hc⟩

end ControlPlane
