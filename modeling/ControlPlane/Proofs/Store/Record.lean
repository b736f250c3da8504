import ControlPlane.Proofs.Json.Record
import ControlPlane.Proofs.Json.Writer
import ControlPlane.Proofs.Text.Base64
import ControlPlane.Store.Record

/-!
# Log records: reading lines

The line of a change is read back as the change (`Change.ofLine_body`). No part of it is read as
anything: a line that breaks off early is no text or no record (`Change.ofLine_of_prefix`), and one
with a second record behind the first is no record (`Change.ofLine_append`).
-/

namespace ControlPlane

/-- The laws of log records. -/
def LogRecord.laws : LogRecord.codec.Laws :=
  .record (.cons (.required .string) <| .cons (.required .string) <|
    .cons (.optional .string Codec.write_string_ne_null) .nil) (by decide) fun _ => rfl

namespace Change

/-! ## Lines -/

/-- The text on the line of a change. -/
def text (c : Change) : List Char :=
  (LogRecord.codec.write c.toRecord).render

/-- The line of a change without its end. -/
def body (c : Change) : Bytes :=
  Utf8.encode c.text

theorem line_eq (c : Change) : c.line = c.body ++ [lineEnd] := rfl

theorem text_eq_cons (c : Change) : ∃ cs, c.text = '\x7b' :: cs := ⟨_, rfl⟩

theorem text_eq_concat (c : Change) : ∃ cs, c.text = cs ++ ['\x7d'] := ⟨_, rfl⟩

/-- Only the last byte of a line is a line end. -/
theorem ne_lineEnd_of_mem_body {c : Change} {b : UInt8} (h : b ∈ c.body) : b ≠ lineEnd := by
  rintro rfl
  obtain ⟨d, hd, hb⟩ := List.mem_flatMap.1 h
  have hd := Json.not_control_of_mem_render hd
  have ht : lineEnd.toNat = 10 := rfl
  rcases Utf8.toNat_of_mem_encodeChar hb with hb | hb <;> omega

/-- A line ends with its closing brace, not with a carriage return. -/
theorem body_eq_concat (c : Change) : ∃ bs, c.body = bs ++ [125] := by
  obtain ⟨cs, hc⟩ := c.text_eq_concat
  refine ⟨Utf8.encode cs, ?_⟩
  rw [body, hc, Utf8.encode, List.flatMap_append]
  rfl

theorem body_ne_nil (c : Change) : c.body ≠ [] := by
  obtain ⟨bs, hb⟩ := c.body_eq_concat
  simp [hb]

/-! ## Reading a line -/

/-- A record is read back as itself. -/
theorem readText_text (c : Change) :
    LogRecord.codec.readText (Text.ofChars c.text) = .ok c.toRecord := by
  have hf : LogRecord.laws.Fits Tree.depthLimit c.toRecord :=
    ⟨by decide, trivial, trivial, fun _ _ => trivial, trivial⟩
  have hs : LogRecord.laws.settle c.toRecord = c.toRecord := by
    cases c <;> rfl
  rw [text, LogRecord.laws.readText_write hf, hs]

theorem ofRecord_toRecord (c : Change) : ofRecord c.toRecord = .ok c := by
  cases c with
  | put key value =>
    unfold ofRecord toRecord
    rw [if_pos rfl]
    dsimp only
    rw [Base64.decode_encode]
  | delete key =>
    have hne : ¬"delete" = "put" := by decide
    unfold ofRecord toRecord
    rw [if_neg hne, if_pos rfl]

theorem ofLine_of_decode? {bs : Bytes} {cs : List Char} (h : Utf8.decode? bs = some cs) :
    ofLine bs = match LogRecord.codec.readText (Text.ofChars cs) with
      | .ok r => ofRecord r
      | .error f => .error (.badRecord f) := by
  unfold ofLine
  split
  · rename_i hn
    rw [h] at hn
    cases hn
  · rename_i ds hs
    obtain rfl : ds = cs := Option.some.inj (hs.symm.trans h)
    rfl

/-- A line is read back as the change it was written for. -/
theorem ofLine_body (c : Change) : ofLine c.body = .ok c := by
  rw [body, ofLine_of_decode? (Utf8.decode?_encode c.text), readText_text]
  exact ofRecord_toRecord c

/-! ## Where a record ends -/

/-- A text with a record holds a tree that is no number, and white space behind it. -/
theorem ofText_of_readText {t : Text} {r : LogRecord} (h : LogRecord.codec.readText t = .ok r) :
    ∃ u rest, Tree.ofText t = (u, some rest) ∧ ¬u.IsNumber ∧ Text.skipSpace rest = [] := by
  unfold Codec.readText at h
  rcases ht : Tree.ofText t with ⟨u, rest⟩
  rw [ht] at h
  obtain ⟨s, hs, h⟩ := Except.bind_eq_ok.1 h
  refine ⟨u, ?_⟩
  cases rest with
  | none => simp at h
  | some rest =>
    refine ⟨rest, rfl, ?_, ?_⟩
    · intro hu
      cases u with
      | number n => simp [LogRecord.codec, Codec.record] at hs
      | _ => exact hu
    · dsimp only at h
      split at h
      · exact List.isEmpty_iff.1 ‹_›
      · simp at h

/-- A text that breaks off before the end of a record holds no record. -/
theorem readText_of_append {c : Change} {cs es : List Char} (h : c.text = cs ++ es)
    (he : es ≠ []) : ∃ f, LogRecord.codec.readText (Text.ofChars cs) = .error f := by
  cases hr : LogRecord.codec.readText (Text.ofChars cs) with
  | error f => exact ⟨f, rfl⟩
  | ok r =>
    exfalso
    obtain ⟨u, rest, hu, hn, -⟩ := ofText_of_readText hr
    have h₁ := Tree.ofText_append hu (.inr hn) (Text.ofChars es)
    have h₂ := Tree.ofText_render (LogRecord.codec.write c.toRecord) Number.ends_nil
    rw [List.append_nil] at h₂
    rw [← Text.ofChars_append, ← h, text, h₂] at h₁
    have hrest := Option.some.inj (Prod.mk.inj h₁).2
    have := congrArg List.length hrest
    rw [List.length_append, Text.length_ofChars, List.length_nil] at this
    exact he (List.eq_nil_of_length_eq_zero (by omega))

/-- A line that breaks off early is no text or no record. -/
theorem ofLine_of_prefix {c : Change} {p q : Bytes} (h : p ++ q = c.body) (hq : q ≠ []) :
    ofLine p = .error .notText ∨ ∃ f, ofLine p = .error (.badRecord f) := by
  cases hd : Utf8.decode? p with
  | none => exact .inl (by rw [ofLine, hd])
  | some cs =>
    right
    obtain ⟨es, hc, hq'⟩ := Utf8.prefix_of_decode? h hd
    have he : es ≠ [] := by
      rintro rfl
      exact hq (Utf8.eq_nil_of_decode? hq')
    obtain ⟨f, hf⟩ := readText_of_append hc he
    exact ⟨f, by rw [ofLine_of_decode? hd, hf]⟩

/-- A line that goes on behind its record is no record. -/
theorem ofLine_append {l : Bytes} {d : Change} (h : ofLine l = .ok d) (c : Change) :
    ofLine (l ++ c.body) = .error (.badRecord .malformed) := by
  cases hd : Utf8.decode? l with
  | none =>
    rw [ofLine, hd] at h
    simp at h
  | some cs =>
    rw [ofLine_of_decode? hd] at h
    cases hr : LogRecord.codec.readText (Text.ofChars cs) with
    | error f =>
      rw [hr] at h
      simp at h
    | ok r =>
      obtain ⟨u, rest, hu, hn, hs⟩ := ofText_of_readText hr
      have ht := Tree.ofText_append hu (.inr hn) (Text.ofChars c.text)
      rw [← Text.ofChars_append] at ht
      obtain ⟨ds, hc⟩ := c.text_eq_cons
      have hspace : Text.skipSpace (rest ++ Text.ofChars c.text) = Text.ofChars c.text := by
        rw [Text.skipSpace_append_of_nil hs, hc]
        rfl
      have hread : LogRecord.codec.readText (Text.ofChars (cs ++ c.text)) = .error .malformed := by
        unfold Codec.readText at hr ⊢
        rw [hu] at hr
        rw [ht]
        obtain ⟨s, hs, -⟩ := Except.bind_eq_ok.1 hr
        show (LogRecord.codec.read Tree.depthLimit u >>= _) = _
        rw [hs]
        show (if (Text.skipSpace (rest ++ Text.ofChars c.text)).isEmpty then Except.ok s
          else .error Fault.malformed) = _
        rw [hspace, hc]
        rfl
      rw [body, ofLine_of_decode? (Utf8.decode?_append hd (Utf8.decode?_encode c.text)), hread]

end Change

end ControlPlane
