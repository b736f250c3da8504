import ControlPlane.Proofs.Store.Folder
import ControlPlane.Proofs.Store.Found
import ControlPlane.Proofs.Store.KeyMap
import ControlPlane.Proofs.Text.Exact

/-!
# Opening a log

What a content must be to be a log, said without the reader: its lines (`Log.Lined`), the change
that a line says (`Change.Says`) and what is wrong with a line that says none (`Change.Breaks`).
A store is opened if every line of its log says a change, and then holds the changes; otherwise the
first line that says none is named. Nothing on the disk is changed (`Durable.openFolder_of_log`).
-/

namespace ControlPlane

/-! ## Lines -/

namespace Log

open Change (lineEnd)

/-- Whether a content has the given lines. A line ends at a line feed, before which one carriage
return is not part of it. What stands behind the last line feed is a line if it is not empty. -/
inductive Lined : Bytes → List Bytes → Prop
  | none : Lined [] []
  | last {line : Bytes} : line ≠ [] → lineEnd ∉ line → Lined line [line]
  | ended {line rest : Bytes} {ls : List Bytes} : lineEnd ∉ line → line.getLast? ≠ some 13 →
      Lined rest ls → Lined (line ++ lineEnd :: rest) (line :: ls)
  | returned {line rest : Bytes} {ls : List Bytes} : lineEnd ∉ line →
      Lined rest ls → Lined (line ++ 13 :: lineEnd :: rest) (line :: ls)

theorem lines_append_lineEnd {line : Bytes} (h : lineEnd ∉ line) (rest : Bytes) :
    lines (line ++ lineEnd :: rest) = (dropReturn line.reverse).reverse :: lines rest := by
  rw [lines, linesFrom_append h, List.append_nil, linesFrom, if_pos rfl]
  rfl

theorem dropReturn_of_ne {line : Bytes} (h : line.head? ≠ some 13) : dropReturn line = line := by
  unfold dropReturn
  split
  · exact absurd rfl h
  · rfl

theorem lines_of_ended {line : Bytes} (h : lineEnd ∉ line) (hr : line.getLast? ≠ some 13)
    (rest : Bytes) : lines (line ++ lineEnd :: rest) = line :: lines rest := by
  rw [lines_append_lineEnd h, dropReturn_of_ne (by rwa [List.head?_reverse]), List.reverse_reverse]

theorem lines_of_returned {line : Bytes} (h : lineEnd ∉ line) (rest : Bytes) :
    lines (line ++ 13 :: lineEnd :: rest) = line :: lines rest := by
  have h' : lineEnd ∉ line ++ [13] := by
    rw [List.mem_append, not_or]
    exact ⟨h, by decide⟩
  rw [show line ++ 13 :: lineEnd :: rest = (line ++ [13]) ++ lineEnd :: rest by simp,
    lines_append_lineEnd h', List.reverse_append]
  show (line.reverse.reverse :: _) = _
  rw [List.reverse_reverse]

/-- A content has the lines that the reader finds in it. -/
theorem lined_lines (content : Bytes) : Lined content (lines content) := by
  -- on the length: behind the first line feed stands a shorter content
  induction hk : content.length using Nat.strongRecOn generalizing content with
  | ind k ih =>
    subst hk
    by_cases h : lineEnd ∈ content
    · obtain ⟨line, rest, rfl, hn⟩ := List.eq_append_cons_of_mem h
      have hrest : Lined rest (lines rest) := by
        refine ih rest.length ?_ rest rfl
        rw [List.length_append, List.length_cons]
        omega
      by_cases hr : line.getLast? = some 13
      · obtain ⟨line, rfl⟩ := List.getLast?_eq_some_iff.1 hr
        rw [List.mem_append, not_or] at hn
        rw [List.append_assoc, List.singleton_append, lines_of_returned hn.1]
        exact .returned hn.1 hrest
      · rw [lines_of_ended hn hr]
        exact .ended hn hr hrest
    · by_cases hc : content = []
      · subst hc
        exact .none
      · rw [lines_of_not_mem h hc]
        exact .last hc h

theorem lined_iff {content : Bytes} {ls : List Bytes} :
    Lined content ls ↔ lines content = ls := by
  constructor
  · intro h
    induction h with
    | none => rfl
    | last hc h => exact lines_of_not_mem h hc
    | ended hn hr _ ih => rw [lines_of_ended hn hr, ih]
    | returned hn _ ih => rw [lines_of_returned hn, ih]
  · rintro rfl
    exact lined_lines content

end Log

/-! ## What a line says -/

/-- The change that a record means. A value is written in Base64; a record that puts no value puts
the empty one, and the value of one that deletes is not looked at. -/
inductive LogRecord.Means : LogRecord → Change → Prop
  | put (key : String) (value : Bytes) :
      Means ⟨"put", key, some (Base64.encode value)⟩ (.put key value)
  | putEmpty (key : String) : Means ⟨"put", key, none⟩ (.put key [])
  | delete (key : String) (value : Option String) : Means ⟨"delete", key, value⟩ (.delete key)

namespace Change

/-- Whether a line is a record that means a change. -/
def Says (line : Bytes) (c : Change) : Prop :=
  ∃ cs r, line = Utf8.encode cs ∧ LogRecord.codec.readText (Text.ofChars cs) = .ok r ∧ r.Means c

/-- What is wrong with a line of the given number that says nothing. -/
inductive Breaks (number : Nat) (line : Bytes) : StoreError → Prop
  | notText : (∀ cs, line ≠ Utf8.encode cs) → Breaks number line (.readLog number .notText)
  | badRecord {cs : List Char} {fault : Fault} : line = Utf8.encode cs →
      LogRecord.codec.readText (Text.ofChars cs) = .error fault →
      Breaks number line (.badRecord number fault)
  | unknownOperation {cs : List Char} {r : LogRecord} : line = Utf8.encode cs →
      LogRecord.codec.readText (Text.ofChars cs) = .ok r →
      r.operation ≠ "put" → r.operation ≠ "delete" →
      Breaks number line (.unknownOperation number r.operation)
  | badValue {cs : List Char} {key text : String} {e : Base64.Error} : line = Utf8.encode cs →
      LogRecord.codec.readText (Text.ofChars cs) = .ok ⟨"put", key, some text⟩ →
      (∀ value, text ≠ Base64.encode value) → Base64.decode text = .error e →
      Breaks number line (.badValue number e)

theorem ofRecord_eq_ok {r : LogRecord} {c : Change} : ofRecord r = .ok c ↔ r.Means c := by
  constructor
  · intro h
    obtain ⟨operation, key, value⟩ := r
    unfold ofRecord at h
    dsimp only at h
    split at h
    · rename_i ho
      subst ho
      cases value with
      | none =>
        obtain rfl := Except.ok.inj h
        exact .putEmpty key
      | some text =>
        dsimp only at h
        split at h
        · rename_i bs hd
          obtain rfl := Except.ok.inj h
          rw [Base64.decode_iff.1 hd]
          exact .put key bs
        · cases h
    · split at h
      · rename_i ho
        subst ho
        obtain rfl := Except.ok.inj h
        exact .delete key value
      · cases h
  · intro h
    cases h with
    | put key value => exact ofRecord_toRecord (.put key value)
    | putEmpty key => rfl
    | delete key value => rfl

/-- A record means no change if its operation is unknown, or if it puts a value that stands for no
bytes. -/
theorem ofRecord_eq_error {r : LogRecord} {f : LineFault} : ofRecord r = .error f ↔
    (r.operation ≠ "put" ∧ r.operation ≠ "delete" ∧ f = .unknownOperation r.operation) ∨
      ∃ key text e, r = ⟨"put", key, some text⟩ ∧ Base64.decode text = .error e ∧
        f = .badValue e := by
  constructor
  · intro h
    obtain ⟨operation, key, value⟩ := r
    unfold ofRecord at h
    dsimp only at h
    split at h
    · rename_i ho
      subst ho
      cases value with
      | none => cases h
      | some text =>
        dsimp only at h
        split at h
        · cases h
        · rename_i e he
          exact .inr ⟨key, text, e, rfl, he, (Except.error.inj h).symm⟩
    · rename_i hp
      split at h
      · cases h
      · rename_i hd
        exact .inl ⟨hp, hd, (Except.error.inj h).symm⟩
  · rintro (⟨hp, hd, rfl⟩ | ⟨key, text, e, rfl, he, rfl⟩)
    · rw [ofRecord, if_neg hp, if_neg hd]
    · rw [ofRecord, if_pos rfl]
      dsimp only
      rw [he]

theorem ofLine_encode (cs : List Char) : ofLine (Utf8.encode cs) =
    match LogRecord.codec.readText (Text.ofChars cs) with
    | .ok r => ofRecord r
    | .error f => .error (.badRecord f) :=
  ofLine_of_decode? (Utf8.decode?_encode cs)

/-- The reader reads a change from the lines that say it. -/
theorem ofLine_eq_ok {line : Bytes} {c : Change} : ofLine line = .ok c ↔ Says line c := by
  constructor
  · intro h
    cases hd : Utf8.decode? line with
    | none =>
      rw [ofLine, hd] at h
      cases h
    | some cs =>
      rw [ofLine_of_decode? hd] at h
      split at h
      · rename_i r hr
        exact ⟨cs, r, Utf8.decode?_iff.1 hd, hr, ofRecord_eq_ok.1 h⟩
      · cases h
  · rintro ⟨cs, r, rfl, hr, hm⟩
    rw [ofLine_encode, hr]
    exact ofRecord_eq_ok.2 hm

/-- The reader finds wrong with a line what is wrong with it. -/
theorem breaks_iff {number : Nat} {line : Bytes} {e : StoreError} :
    Breaks number line e ↔ ∃ f, ofLine line = .error f ∧ e = .ofLine number f := by
  constructor
  · intro h
    cases h with
    | notText h =>
      refine ⟨.notText, ?_, rfl⟩
      cases hd : Utf8.decode? line with
      | none => rw [ofLine, hd]
      | some cs => exact absurd (Utf8.decode?_iff.1 hd) (h cs)
    | badRecord ht hr =>
      subst ht
      exact ⟨.badRecord _, by rw [ofLine_encode, hr], rfl⟩
    | unknownOperation ht hr hp hd =>
      subst ht
      refine ⟨.unknownOperation _, ?_, rfl⟩
      rw [ofLine_encode, hr]
      exact ofRecord_eq_error.2 (.inl ⟨hp, hd, rfl⟩)
    | badValue ht hr _ he =>
      subst ht
      refine ⟨.badValue _, ?_, rfl⟩
      rw [ofLine_encode, hr]
      exact ofRecord_eq_error.2 (.inr ⟨_, _, _, rfl, he, rfl⟩)
  · rintro ⟨f, hf, rfl⟩
    cases hd : Utf8.decode? line with
    | none =>
      rw [ofLine, hd] at hf
      obtain rfl := Except.error.inj hf
      refine .notText fun cs hcs => ?_
      rw [hcs, Utf8.decode?_encode] at hd
      cases hd
    | some cs =>
      have ht := Utf8.decode?_iff.1 hd
      rw [ofLine_of_decode? hd] at hf
      split at hf
      · rename_i r hr
        rcases ofRecord_eq_error.1 hf with ⟨hp, hdel, rfl⟩ | ⟨key, text, e, rfl, he, rfl⟩
        · exact .unknownOperation ht hr hp hdel
        · refine .badValue ht hr (fun value hv => ?_) he
          rw [hv, Base64.decode_encode] at he
          cases he
      · rename_i f' hr
        obtain rfl := Except.error.inj hf
        exact .badRecord ht hr

/-! ## What changes come to -/

theorem get?_apply {c : Change} {m : KeyMap} {key : String} {value : Bytes} :
    (c.apply m).get? key = some value ↔
      c = .put key value ∨ c.key ≠ key ∧ m.get? key = some value := by
  by_cases h : key = c.key
  · subst h
    cases c with
    | put k v =>
      rw [apply, KeyMap.get?_insert]
      simp [Change.key]
    | delete k =>
      rw [apply, KeyMap.get?_erase]
      simp [Change.key]
  · rw [get?_apply_of_ne h]
    constructor
    · exact fun hv => .inr ⟨Ne.symm h, hv⟩
    · rintro (rfl | ⟨-, hv⟩)
      · exact absurd rfl h
      · exact hv

/-- A key has the value that the last of the changes that concern it has put there, and the one it
had before if there is none. -/
theorem get?_foldl_apply {cs : List Change} {m : KeyMap} {key : String} {value : Bytes} :
    (cs.foldl apply m).get? key = some value ↔
      (∃ front rest, cs = front ++ .put key value :: rest ∧ ∀ c ∈ rest, c.key ≠ key) ∨
        m.get? key = some value ∧ ∀ c ∈ cs, c.key ≠ key := by
  induction cs generalizing m with
  | nil => simp
  | cons c cs ih =>
    rw [List.foldl_cons, ih, get?_apply]
    constructor
    · rintro (⟨front, rest, rfl, hr⟩ | ⟨rfl | ⟨hc, hm⟩, hcs⟩)
      · exact .inl ⟨c :: front, rest, rfl, hr⟩
      · exact .inl ⟨[], cs, rfl, hcs⟩
      · exact .inr ⟨hm, List.forall_mem_cons.2 ⟨hc, hcs⟩⟩
    · rintro (⟨_ | ⟨b, front⟩, rest, he, hr⟩ | ⟨hm, hcs⟩)
      · obtain ⟨rfl, rfl⟩ := List.cons.inj he
        exact .inr ⟨.inl rfl, hr⟩
      · exact .inl ⟨front, rest, (List.cons.inj he).2, hr⟩
      · obtain ⟨hc, hcs⟩ := List.forall_mem_cons.1 hcs
        exact .inr ⟨.inr ⟨hc, hm⟩, hcs⟩

theorem get?_foldl_apply_empty {cs : List Change} {key : String} {value : Bytes} :
    (cs.foldl apply .empty).get? key = some value ↔
      ∃ front rest, cs = front ++ .put key value :: rest ∧ ∀ c ∈ rest, c.key ≠ key := by
  have hn : KeyMap.empty.get? key ≠ some value := by
    rintro ⟨⟩
  simp [get?_foldl_apply, hn]

end Change

/-! ## Replaying -/

namespace Log

open Change (Says Breaks)

/-- Lines are replayed to what the changes they say come to. -/
theorem replayFrom_eq_ok {number : Nat} {m m' : KeyMap} {ls : List Bytes} :
    replayFrom number m ls = .ok m' ↔
      ∃ cs, List.Forall₂ Says ls cs ∧ m' = cs.foldl Change.apply m := by
  induction ls generalizing number m with
  | nil =>
    rw [replayFrom, Except.ok.injEq]
    constructor
    · rintro rfl
      exact ⟨[], .nil, rfl⟩
    · rintro ⟨cs, hcs, rfl⟩
      cases hcs
      rfl
  | cons line ls ih =>
    constructor
    · intro h
      rw [replayFrom] at h
      split at h
      · rename_i c hc
        obtain ⟨cs, hcs, hm⟩ := ih.1 h
        exact ⟨c :: cs, .cons (Change.ofLine_eq_ok.1 hc) hcs, hm⟩
      · cases h
    · rintro ⟨_, @⟨⟩ | @⟨_, c, _, cs, hc, hcs⟩, hm⟩
      rw [replayFrom, Change.ofLine_eq_ok.2 hc]
      exact ih.2 ⟨cs, hcs, hm⟩

theorem exists_says {ls : List Bytes} :
    (∃ cs, List.Forall₂ Says ls cs) ↔ ∀ line ∈ ls, ∃ c, Says line c := by
  induction ls with
  | nil => exact ⟨fun _ => by simp, fun _ => ⟨[], .nil⟩⟩
  | cons line ls ih =>
    rw [List.forall_mem_cons, ← ih]
    constructor
    · rintro ⟨_, @⟨⟩ | @⟨_, c, _, cs, hc, hcs⟩⟩
      exact ⟨⟨c, hc⟩, cs, hcs⟩
    · rintro ⟨⟨c, hc⟩, cs, hcs⟩
      exact ⟨c :: cs, .cons hc hcs⟩

/-- Lines cannot be replayed for what is wrong with the first of them that says nothing. -/
theorem replayFrom_eq_error {number : Nat} {m : KeyMap} {ls : List Bytes} {e : StoreError} :
    replayFrom number m ls = .error e ↔
      ∃ front bad rest, ls = front ++ bad :: rest ∧ (∀ line ∈ front, ∃ c, Says line c) ∧
        Breaks (number + front.length) bad e := by
  induction ls generalizing number m with
  | nil => simp [replayFrom]
  | cons line ls ih =>
    rw [replayFrom]
    cases hl : Change.ofLine line with
    | ok c =>
      dsimp only
      rw [ih]
      constructor
      · rintro ⟨front, bad, rest, rfl, hf, hb⟩
        refine ⟨line :: front, bad, rest, rfl, ?_, ?_⟩
        · exact List.forall_mem_cons.2 ⟨⟨c, Change.ofLine_eq_ok.1 hl⟩, hf⟩
        · rwa [List.length_cons, Nat.add_comm front.length, ← Nat.add_assoc]
      · rintro ⟨_ | ⟨line', front⟩, bad, rest, he, hf, hb⟩
        · obtain ⟨rfl, rfl⟩ := List.cons.inj he
          obtain ⟨f, hf, -⟩ := Change.breaks_iff.1 hb
          rw [hl] at hf
          cases hf
        · rw [List.length_cons, Nat.add_comm front.length, ← Nat.add_assoc] at hb
          exact ⟨front, bad, rest, (List.cons.inj he).2, (List.forall_mem_cons.1 hf).2, hb⟩
    | error f =>
      dsimp only
      rw [Except.error.injEq]
      constructor
      · rintro rfl
        exact ⟨[], line, ls, rfl, by simp, Change.breaks_iff.2 ⟨f, hl, rfl⟩⟩
      · rintro ⟨_ | ⟨line', front⟩, bad, rest, he, hf, hb⟩
        · obtain ⟨rfl, rfl⟩ := List.cons.inj he
          obtain ⟨f', hf', rfl⟩ := Change.breaks_iff.1 hb
          rw [hl] at hf'
          rw [Except.error.inj hf']
          rfl
        · obtain ⟨rfl, rfl⟩ := List.cons.inj he
          obtain ⟨c, hc⟩ := hf line (List.mem_cons_self)
          rw [Change.ofLine_eq_ok.2 hc] at hl
          cases hl

end Log

/-! ## Opening -/

namespace Durable

open Change (Says Breaks)

variable {d : Disk} {folder : String} {file : Nat}

/-- Opening a folder with a log leaves the disk alone and comes to what replaying the log does. -/
theorem openFolder_of_openToRead
    (h : d.openToRead (inFolder folder logName) = .ok (some file)) :
    openFolder d folder = ((Log.replay (d.content file)).map fun m =>
      ⟨inFolder folder logName, m, some file, (d.content file).length, false⟩, d) := by
  rw [openFolder, Disk.makeFolders_of_hasFolder (hasFolder_of_openToRead h)]
  dsimp only
  rw [load_of_openToRead h]
  cases Log.replay (d.content file) with
  | error e => rfl
  | ok m =>
    dsimp only
    rw [Disk.openToWrite_of_openToRead h]
    rfl

/-- A folder with a log is opened if every line of the log says a change. The store then has for a
key what the last change that concerns it has put there. Otherwise what is said is what is wrong
with the first line that says nothing. The disk is left as it was. -/
theorem openFolder_of_log (h : d.openToRead (inFolder folder logName) = .ok (some file)) :
    ∃ ls, Log.Lined (d.content file) ls ∧ (openFolder d folder).2 = d ∧
      ((∃ s, (openFolder d folder).1 = .ok s) ↔ ∀ line ∈ ls, ∃ c, Says line c) ∧
      (∀ s, (openFolder d folder).1 = .ok s → ∃ cs, List.Forall₂ Says ls cs ∧
        ∀ key value, s.data.get? key = some value ↔
          ∃ front rest, cs = front ++ .put key value :: rest ∧ ∀ c ∈ rest, c.key ≠ key) ∧
      ∀ e, (openFolder d folder).1 = .error e ↔
        ∃ front bad rest, ls = front ++ bad :: rest ∧ (∀ line ∈ front, ∃ c, Says line c) ∧
          Breaks (front.length + 1) bad e := by
  have ho := openFolder_of_openToRead h
  have hlined := Log.lined_lines (d.content file)
  generalize hls : Log.lines (d.content file) = ls at hlined
  have hok : ∀ s, (openFolder d folder).1 = .ok s → ∃ cs, List.Forall₂ Says ls cs ∧
      s.data = cs.foldl Change.apply .empty := by
    intro s hs
    rw [ho, Log.replay, hls] at hs
    obtain ⟨m, hm, rfl⟩ := Except.map_eq_ok.1 hs
    exact Log.replayFrom_eq_ok.1 hm
  refine ⟨ls, hlined, by rw [ho], ?_, fun s hs => ?_, fun e => ?_⟩
  · rw [← Log.exists_says]
    constructor
    · rintro ⟨s, hs⟩
      obtain ⟨cs, hcs, -⟩ := hok s hs
      exact ⟨cs, hcs⟩
    · rintro ⟨cs, hcs⟩
      rw [ho, Log.replay, hls, Log.replayFrom_eq_ok.2 ⟨cs, hcs, rfl⟩]
      exact ⟨_, rfl⟩
  · obtain ⟨cs, hcs, hm⟩ := hok s hs
    refine ⟨cs, hcs, fun key value => ?_⟩
    rw [hm]
    exact Change.get?_foldl_apply_empty
  · rw [ho, Log.replay, hls]
    have herror : Log.replayFrom 1 .empty ls = .error e ↔ _ := Log.replayFrom_eq_error
    simp only [Nat.add_comm 1] at herror
    rw [← herror]
    cases Log.replayFrom 1 .empty ls with
    | error f => simp only [Except.map, Except.error.injEq]
    | ok m => simp only [Except.map, reduceCtorEq]

/-- A log of one line, which has no end, is opened to the change that the line says. -/
theorem openFolder_of_log_unended : unended.openToRead (inFolder "d" logName) = .ok (some 0) ∧
    ∃ s, openFolder unended "d" = (.ok s, unended) ∧ s.data.get? "a" = some [49] := by
  have hs := serves_unended ⟨inFolder "d" logName, .empty, none, 0, false⟩ rfl rfl
  have hfound : unended.openToRead (inFolder "d" logName) = .ok (some 0) := hs.found
  refine ⟨hfound, ?_⟩
  have hbody := Change.ofLine_eq_ok.1 (Change.ofLine_body (.put "a" [49]))
  obtain ⟨ls, hlined, hd, hok, hmap, -⟩ := openFolder_of_log hfound
  rw [Log.lined_iff, hs.content, Log.lines_of_not_mem (Log.lineEnd_not_mem_body _)
    (Change.body_ne_nil _)] at hlined
  subst hlined
  obtain ⟨s, ho⟩ := hok.2 (by simpa using ⟨_, hbody⟩)
  obtain ⟨cs, hcs, hget⟩ := hmap s ho
  refine ⟨s, Prod.ext ho hd, (hget _ _).2 ⟨[], [], ?_, by simp⟩⟩
  obtain _ | ⟨hc, _ | _⟩ := hcs
  rw [Except.ok.inj ((Change.ofLine_eq_ok.2 hc).symm.trans (Change.ofLine_body _))]
  rfl

end Durable

end ControlPlane
