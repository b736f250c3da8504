import ControlPlane.Proofs.Store.Disk
import ControlPlane.Proofs.Store.Log
import ControlPlane.Store.Durable

/-!
# Durable stores: one operation

What a store keeps between operations (`Durable.Serves`): its folder is there, its log is found in
it, and its handle, while it has one, knows the length of the log. Opening establishes it, and
`Durable.commit_spec` says what a change makes of it, whatever the disk refuses.
-/

namespace ControlPlane.Durable

variable {folder : String} {file : Nat} {log : Bytes} {s s' : Durable} {d d' : Disk}

/-- Whether a store serves a folder on a disk, with the given log in the given file. -/
structure Serves (folder : String) (file : Nat) (log : Bytes) (s : Durable) (d : Disk) : Prop where
  path : s.path = inFolder folder logName
  made : d.HasFolder folder
  found : d.openToRead (inFolder folder logName) = .ok (some file)
  valid : file < d.contents.length
  content : d.content file = log
  handle : ∀ f, s.file = some f → f = file ∧ s.poisoned = false ∧ s.committed = log.length

/-- What the disk keeps of a store when the content of its log is another one. -/
theorem Serves.wrote {log' : Bytes} (h : Serves folder file log s d) (hw : d.Wrote file log' d')
    (hp : s'.path = s.path)
    (hh : ∀ f, s'.file = some f → f = file ∧ s'.poisoned = false ∧ s'.committed = log'.length) :
    Serves folder file log' s' d' where
  path := hp.trans h.path
  made := h.made.of_extends hw.extends
  found := Disk.openToRead_of_extends h.found hw.extends
  valid := by rw [hw.length]; exact h.valid
  content := hw.content h.valid
  handle := hh

theorem Serves.load (h : Serves folder file log s d) :
    d.load (inFolder folder logName) = .ok log := by
  rw [Disk.load, h.found]
  exact congrArg Except.ok h.content

/-! ## Opening -/

theorem load_of_openToRead {path : String} (h : d.openToRead path = .ok (some file)) :
    load d path = Log.replay (d.content file) := by
  rw [load, h]

/-- The store in a folder whose log can be replayed is opened with what the log leads to. -/
theorem Serves.openFolder_of_ok {m : KeyMap} (h : Serves folder file log s d)
    (hm : Log.replay log = .ok m) :
    openFolder d folder =
      (.ok ⟨inFolder folder logName, m, some file, log.length, false⟩, d) := by
  rw [openFolder, Disk.makeFolders_of_hasFolder h.made]
  dsimp only
  rw [load_of_openToRead h.found, h.content, hm]
  dsimp only
  rw [Disk.openToWrite_of_openToRead h.found]
  dsimp only
  rw [h.content]

/-- A store that is opened anew serves the folder with the same log. -/
theorem Serves.opened (h : Serves folder file log s d) (m : KeyMap) :
    Serves folder file log ⟨inFolder folder logName, m, some file, log.length, false⟩ d where
  path := rfl
  made := h.made
  found := h.found
  valid := h.valid
  content := h.content
  handle _ hf := ⟨(Option.some.inj hf).symm, rfl, rfl⟩

theorem Serves.openFolder_of_error {e : StoreError} (h : Serves folder file log s d)
    (he : Log.replay log = .error e) : openFolder d folder = (.error e, d) := by
  rw [openFolder, Disk.makeFolders_of_hasFolder h.made]
  dsimp only
  rw [load_of_openToRead h.found, h.content, he]

/-- An opened store serves its folder. Its log is one that was there or a new one. -/
theorem serves_of_openFolder {d₀ : Disk} (h : openFolder d₀ folder = (.ok s, d)) :
    ∃ d₁ file, d₀.makeFolders folder = .ok d₁ ∧ s.poisoned = false ∧ s.file = some file ∧
      (d₁.openToRead (inFolder folder logName) = .ok (some file) ∧ d = d₁ ∧
          Log.replay (d₁.content file) = .ok s.data ∧
          (file < d₁.contents.length → Serves folder file (d₁.content file) s d) ∨
        d₁.openToRead (inFolder folder logName) = .error .notFound ∧ s.data = .empty ∧
          Serves folder file [] s d) := by
  rw [openFolder] at h
  split at h
  · cases (Prod.mk.inj h).1
  rename_i d₁ hd₁
  have hmade := Disk.hasFolder_of_makeFolders hd₁
  dsimp only at h
  split at h
  · cases (Prod.mk.inj h).1
  rename_i data hdata
  split at h
  · cases (Prod.mk.inj h).1
  rename_i file d₂ hw
  obtain ⟨hs, rfl⟩ := Prod.mk.inj h
  obtain rfl := Except.ok.inj hs
  refine ⟨d₁, file, hd₁, rfl, rfl, ?_⟩
  rcases Disk.openToWrite_eq_ok hw with ⟨hr, rfl⟩ | ⟨hr, hx, hr', hn, hc⟩
  · left
    rw [load_of_openToRead hr] at hdata
    refine ⟨hr, rfl, hdata, fun hf => ⟨rfl, hmade, hr, hf, rfl, fun f h => ?_⟩⟩
    exact ⟨(Option.some.inj h).symm, rfl, rfl⟩
  · right
    rw [load, hr] at hdata
    have hcontent : d₂.content file = [] := by
      rw [Disk.content, hc, hn, List.getElem?_concat_length]
      rfl
    refine ⟨hr, (Except.ok.inj hdata).symm, rfl, hmade.of_extends hx, hr', ?_, hcontent,
      fun f h => ⟨(Option.some.inj h).symm, rfl, ?_⟩⟩
    · rw [hc, hn, List.length_append]
      exact Nat.lt_succ_self _
    · exact congrArg List.length hcontent

/-! ## Changing -/

/-- What comes of adding a line to the log and going over to a map: both are done, nothing of the
line stays or, if the log could not be cut back, some of it does. -/
inductive Outcome (folder : String) (file : Nat) (log line : Bytes) (m : KeyMap) (s : Durable) :
    Option StoreError → Durable → Disk → Prop
  | made {t : Durable} {d : Disk} (data : t.data = m) (kept : t.file = s.file)
      (healthy : s.poisoned = false) (healthy' : t.poisoned = false)
      (serves : Serves folder file (log ++ line) t d) : Outcome folder file log line m s none t d
  | undone {e : StoreError} {d : Disk} (serves : Serves folder file log s d) :
      Outcome folder file log line m s (some e) s d
  | torn {e : StoreError} {t : Durable} {d : Disk} {p : Bytes} (part : p <+: line)
      (healthy : s.poisoned = false) (data : t.data = s.data) (poisoned : t.poisoned = true)
      (serves : Serves folder file (log ++ p) t d) : Outcome folder file log line m s (some e) t d

/-- A part of a line that was written is cut off the log again, or the store is poisoned. -/
theorem rollBack_spec {p line : Bytes} {m : KeyMap} {e : StoreError} {d₁ : Disk} (hp : p <+: line)
    (h : Serves folder file log s d) (hf : s.file = some file) (hw : d.Wrote file (log ++ p) d₁) :
    Outcome folder file log line m s (some e) (s.rollBack d₁ file).1 (s.rollBack d₁ file).2 := by
  obtain ⟨-, hpoison, hcommitted⟩ := h.handle file hf
  have hcontent := hw.content h.valid
  have poisoned : ∀ {p d₂}, p <+: line → d.Wrote file (log ++ p) d₂ →
      Outcome folder file log line m s (some e) { s with file := none, poisoned := true } d₂ := by
    intro p d₂ hp hw
    exact .torn hp hpoison rfl rfl (h.wrote hw rfl fun f hf => by cases hf)
  unfold rollBack
  rcases hcut : d₁.cut file s.committed with ⟨e₂, d₂⟩
  have hw₂ := hw.trans (Disk.cut_spec hcut)
  cases e₂ with
  | some e₂ =>
    rw [if_neg (Option.some_ne_none _), hcontent] at hw₂
    exact poisoned hp hw₂
  | none =>
    rw [if_pos rfl, hcontent, hcommitted, Disk.resize_append] at hw₂
    dsimp only
    rcases hsync : d₂.sync with ⟨e₃, d₃⟩
    have hw₃ := hw₂.trans ((Disk.sync_spec hsync).wrote file)
    rw [hw₂.content h.valid] at hw₃
    cases e₃ with
    | some e₃ =>
      refine poisoned (List.nil_prefix) ?_
      rwa [List.append_nil]
    | none => exact .undone (h.wrote hw₃ rfl h.handle)

/-- What adding a line does to a store. -/
theorem record_spec {line : Bytes} {e : Option StoreError} (h : Serves folder file log s d)
    (hr : s.record d line = (e, s', d')) : Outcome folder file log line s.data s e s' d' := by
  unfold record at hr
  split at hr
  · cases hr
    exact .undone h
  rename_i hp
  cases hf : s.file with
  | none =>
    rw [hf] at hr
    cases hr
    exact .undone h
  | some f =>
    obtain ⟨rfl, hpoison, hcommitted⟩ := h.handle f hf
    rw [hf] at hr
    dsimp only at hr
    unfold writeSynced at hr
    rcases happ : d.append f line with ⟨e₁, d₁⟩
    obtain ⟨p, hp, hw₁, hall⟩ := Disk.append_spec happ
    rw [h.content] at hw₁
    rw [happ] at hr
    cases e₁ with
    | some e₁ =>
      obtain ⟨rfl, ht⟩ := Prod.mk.inj hr
      obtain ⟨rfl, rfl⟩ := Prod.mk.inj ht
      exact rollBack_spec hp h hf hw₁
    | none =>
      obtain rfl := hall rfl
      dsimp only at hr
      rcases hsync : d₁.sync with ⟨e₂, d₂⟩
      have hw₂ := hw₁.trans ((Disk.sync_spec hsync).wrote f)
      rw [hw₁.content h.valid] at hw₂
      rw [hsync] at hr
      cases e₂ with
      | some e₂ =>
        obtain ⟨rfl, ht⟩ := Prod.mk.inj hr
        obtain ⟨rfl, rfl⟩ := Prod.mk.inj ht
        exact rollBack_spec hp h hf hw₂
      | none =>
        cases hr
        refine .made rfl hf.symm hpoison hpoison (h.wrote hw₂ rfl fun g hg => ?_)
        refine ⟨(Option.some.inj hg).symm, hpoison, ?_⟩
        show s.committed + _ = _
        rw [List.length_append, hcommitted]

/-- A change is made in the log and the map or, but for what is left of its line in the log of a
store that it poisons, nowhere. -/
theorem commit_spec {c : Change} {e : Option StoreError} (h : Serves folder file log s d)
    (hc : s.commit d c = (e, s', d')) :
    Outcome folder file log c.line (c.apply s.data) s e s' d' := by
  unfold commit at hc
  split at hc
  · cases hc
    exact .undone h
  rcases hr : s.record d c.line with ⟨e₁, s₁, d₁⟩
  rw [hr] at hc
  cases record_spec h hr with
  | made data kept healthy healthy' serves =>
    cases hc
    exact .made (congrArg c.apply data) kept healthy healthy'
      ⟨serves.path, serves.made, serves.found, serves.valid, serves.content, serves.handle⟩
  | undone serves =>
    cases hc
    exact .undone serves
  | torn part healthy data poisoned serves =>
    cases hc
    exact .torn part healthy data poisoned serves

theorem data_rollBack (s : Durable) (d : Disk) (file : Nat) :
    (s.rollBack d file).1.data = s.data := by
  unfold rollBack
  split
  · rfl
  · split <;> rfl

/-- Adding a line to the log is not seen in the map. -/
theorem data_record (s : Durable) (d : Disk) (line : Bytes) :
    (s.record d line).2.1.data = s.data := by
  unfold record
  split
  · rfl
  · split
    · rfl
    · split
      · rfl
      · exact data_rollBack _ _ _

/-- A change that is not made is not seen in the map, whatever the store was like before. -/
theorem data_of_commit_error {c : Change} {e : StoreError}
    (hc : s.commit d c = (some e, s', d')) : s'.data = s.data := by
  unfold commit at hc
  split at hc
  · cases hc
    rfl
  · have hdata := data_record s d c.line
    generalize s.record d c.line = x at hc hdata
    obtain ⟨_ | e', t, d₁⟩ := x
    · cases hc
    · cases hc
      exact hdata

/-- Closing a store takes its handle away and touches nothing. -/
theorem close_eq {e : Option StoreError} (hc : s.close d = (e, s', d')) :
    s' = { s with file := none } ∧ d.Same d' := by
  unfold close at hc
  cases hf : s.file with
  | none =>
    rw [hf] at hc
    cases hc
    refine ⟨?_, .refl d⟩
    rw [← hf]
  | some f =>
    rw [hf] at hc
    dsimp only at hc
    rcases hsync : d.sync with ⟨e₁, d₁⟩
    rw [hsync] at hc
    have hsame := Disk.sync_spec hsync
    cases e₁ with
    | none =>
      cases hc
      exact ⟨rfl, hsame⟩
    | some e₁ =>
      cases hc
      exact ⟨rfl, hsame⟩

theorem Serves.of_same {t : Durable} (h : Serves folder file log s d) (hd : d.Same d')
    (hp : t.path = s.path)
    (hh : ∀ f, t.file = some f → f = file ∧ t.poisoned = false ∧ t.committed = log.length) :
    Serves folder file log t d' := by
  have hw := hd.wrote file
  rw [h.content] at hw
  exact h.wrote hw hp hh

theorem isEmpty_key {c : Change} (hk : c.key ≠ "") : c.key.isEmpty = false := by
  rw [Bool.eq_false_iff]
  exact fun he => hk (String.isEmpty_iff.1 he)

/-- A poisoned store refuses every change and touches nothing. -/
theorem commit_of_poisoned {c : Change} (h : s.poisoned = true) (hk : c.key ≠ "") (d : Disk) :
    s.commit d c = (some .poisoned, s, d) := by
  rw [commit, isEmpty_key hk, record, h]
  rfl

/-- Where no attempt fails, what was written is brought safely to the disk. -/
theorem exists_sync (h : ∀ n, d.faults.syncs n = false) :
    ∃ d', d.sync = (none, d') ∧ d'.faults = d.faults.afterSync := by
  refine ⟨_, Prod.ext ?_ rfl, rfl⟩
  rw [Disk.sync, h]
  rfl

/-- A line of which not all is written is cut off the log again, and the store is as it was. -/
theorem commit_of_stopped {c : Change} {n : Nat} (hw : d.faults.writes d.faults.written = some n)
    (hn : n < c.line.length) (hcuts : ∀ k, d.faults.cuts k = false)
    (hsyncs : ∀ k, d.faults.syncs k = false) (hs : s.poisoned = false) (hf : s.file = some file)
    (hk : c.key ≠ "") : ∃ d', s.commit d c = (some (.write .noSpace), s, d') := by
  obtain ⟨d₁, happ, hfaults₁⟩ : ∃ d₁, d.append file c.line = (some .noSpace, d₁) ∧
      d₁.faults = d.faults.afterWrite := by
    refine ⟨_, Prod.ext ?_ rfl, rfl⟩
    rw [Disk.append, hw]
    exact if_neg (Nat.not_le.2 hn)
  obtain ⟨d₂, hcut, hfaults₂⟩ : ∃ d₂, d₁.cut file s.committed = (none, d₂) ∧
      d₂.faults = d₁.faults.afterCut := by
    have hcut : d₁.faults.cuts d₁.faults.cut = false := by
      rw [hfaults₁]
      exact hcuts _
    rw [Disk.cut, hcut]
    exact ⟨_, rfl, rfl⟩
  have hsyncs₂ : ∀ k, d₂.faults.syncs k = false := by
    rw [hfaults₂, hfaults₁]
    exact hsyncs
  obtain ⟨d₃, hsync, -⟩ := exists_sync hsyncs₂
  refine ⟨d₃, ?_⟩
  rw [commit, isEmpty_key hk, record, hs, hf]
  dsimp only
  rw [writeSynced, happ]
  dsimp only
  rw [rollBack, hcut]
  dsimp only
  rw [hsync]
  rfl

/-! ## Without faults -/

/-- Whether nothing is going to fail on a disk. -/
def Faultless (d : Disk) : Prop :=
  (∀ n, d.faults.writes n = none) ∧ ∀ n, d.faults.syncs n = false

/-- On a disk on which nothing fails a store that is open makes every change that has a key. -/
theorem commit_of_faultless {c : Change} (hd : Faultless d) (hs : s.poisoned = false)
    (hf : s.file = some file) (hk : c.key ≠ "") :
    ∃ s' d', s.commit d c = (none, s', d') ∧ Faultless d' ∧ s'.poisoned = false ∧
      s'.file = some file ∧ s'.data = c.apply s.data := by
  have happ : ∃ d₁, d.append file c.line = (none, d₁) ∧ Faultless d₁ := by
    refine ⟨_, Prod.ext ?_ rfl, hd.1, hd.2⟩
    have hle : c.line.length ≤ (none : Option Nat).getD c.line.length := Nat.le_refl _
    rw [Disk.append, hd.1]
    dsimp only
    rw [if_pos hle]
  obtain ⟨d₁, happ, hd₁⟩ := happ
  obtain ⟨d₂, hsync, hfaults⟩ := exists_sync hd₁.2
  have hd₂ : Faultless d₂ := by
    rw [Faultless, hfaults]
    exact hd₁
  refine ⟨{ s with committed := s.committed + c.line.length, data := c.apply s.data }, d₂, ?_, hd₂,
    hs, hf, rfl⟩
  rw [commit, isEmpty_key hk, record, hs, hf]
  dsimp only
  rw [writeSynced, happ]
  dsimp only
  rw [hsync]
  rfl

end ControlPlane.Durable
