import ControlPlane.Proofs.Store.Healthy
import ControlPlane.Proofs.Store.Run

/-!
# Sessions with a store

A session asks a store one thing after the other: to make a change, to show a value, keys or
entries, to close (`Store.Question`). A volatile store and a durable one in a new folder on a disk
on which nothing fails are twins: whatever they are asked, they answer alike, and the folder opened
anew goes on where the volatile store stands (`Store.answers_alike`).
-/

namespace ControlPlane

/-! ## Opening keeps what is going to fail -/

namespace Disk

variable {d d' : Disk}

theorem faults_of_makeFolder {path : List String} (h : d.makeFolder path = .ok d') :
    d'.faults = d.faults := by
  obtain ⟨p, -, h⟩ := Except.bind_eq_ok.1 h
  split at h
  · cases h
  · obtain rfl := Except.ok.inj h
    rfl

theorem faults_of_makeFolders {path : String} (h : d.makeFolders path = .ok d') :
    d'.faults = d.faults :=
  of_makeFoldersRev (P := fun x => x.faults = d.faults)
    (fun hx hm => (faults_of_makeFolder hm).trans hx) rfl h

theorem faults_of_openToWrite {path : String} {n : Nat} (h : d.openToWrite path = .ok (n, d')) :
    d'.faults = d.faults := by
  obtain ⟨p, -, h⟩ := Except.bind_eq_ok.1 h
  split at h
  · obtain ⟨-, rfl⟩ := Prod.mk.inj (Except.ok.inj h)
    rfl
  · cases h
  · obtain ⟨-, rfl⟩ := Prod.mk.inj (Except.ok.inj h)
    rfl

end Disk

theorem Durable.faults_of_openFolder {folder : String} {s : Durable} {d₀ d : Disk}
    (h : openFolder d₀ folder = (.ok s, d)) : d.faults = d₀.faults := by
  unfold openFolder at h
  split at h
  · cases (Prod.mk.inj h).1
  · rename_i d₁ hd₁
    dsimp only at h
    split at h
    · cases (Prod.mk.inj h).1
    · split at h
      · cases (Prod.mk.inj h).1
      · rename_i file d₂ hd₂
        obtain ⟨-, rfl⟩ := Prod.mk.inj h
        rw [Disk.faults_of_openToWrite hd₂, Disk.faults_of_makeFolders hd₁]

namespace Store

/-! ## Questions and answers -/

/-- What a store can be asked. -/
inductive Question where
  | change (c : Change)
  | get (key : String)
  | keys
  | entriesUnder (start : String)
  | close
  deriving DecidableEq, Repr

/-- What a store answers. -/
inductive Answer where
  /-- A change or closing was done or failed. -/
  | done (e : Option StoreError)
  | value (v : Option Bytes)
  | keys (ks : List String)
  | entries (es : List (String × Bytes))
  deriving DecidableEq, Repr

/-- Asks a store one thing. -/
def ask (s : Store) (d : Disk) : Question → Answer × Store × Disk
  | .change c => let (e, s, d) := s.commit d c; (.done e, s, d)
  | .get key => (.value (s.get? key), s, d)
  | .keys => (.keys s.keys, s, d)
  | .entriesUnder start => (.entries (s.entriesUnder start), s, d)
  | .close => let (e, s, d) := s.close d; (.done e, s, d)

/-- Asks a store one thing after the other. -/
def askAll (s : Store) (d : Disk) : List Question → List Answer × Store × Disk
  | [] => ([], s, d)
  | q :: qs =>
    let (a, s, d) := s.ask d q
    let (as, s, d) := askAll s d qs
    (a :: as, s, d)

/-- Why a change is refused by a store on which nothing fails: for want of a key and then, whatever
the key, because the store is closed. -/
def refusal? (closed : Prop) [Decidable closed] (c : Change) : Option StoreError :=
  if c.key = "" then some .emptyKey else if closed then some .closed else none

/-! ## Twins -/

variable {folder : String} {d₀ d : Disk} {v : Volatile} {s : Durable}

/-- Whether a durable store is what a volatile one is: it has the same map, is open as long as the
other is, nothing fails on its disk, and its log is the one of a run from a new folder. -/
structure Twins (folder : String) (d₀ : Disk) (v : Volatile) (s : Durable) (d : Disk) : Prop where
  data : s.data = v.data
  file : s.file = none ↔ v.closed = true
  sound : s.poisoned = false
  faultless : Durable.Faultless d
  run : ∃ cs, Durable.Run folder d₀ cs s d

theorem twins_of_opened (hv : Durable.Vacant d₀ folder) (hd : Durable.Faultless d₀)
    (ho : Durable.openFolder d₀ folder = (.ok s, d)) : Twins folder d₀ .new s d := by
  obtain ⟨-, file, -, hp, hf, -⟩ := Durable.serves_of_openFolder ho
  obtain ⟨-, -, hdata⟩ := Durable.serves_of_vacant hv ho
  refine ⟨hdata, ?_, hp, ?_, [], .opened hv ho⟩
  · rw [hf]
    exact ⟨fun h => (Option.some_ne_none _ h).elim, fun h => (Bool.false_ne_true h).elim⟩
  · rw [Durable.Faultless, Durable.faults_of_openFolder ho]
    exact hd

/-- Twins make or refuse a change alike. -/
theorem Twins.commit (h : Twins folder d₀ v s d) (c : Change) :
    ∃ v' s' d', v.commit c = (refusal? (v.closed = true) c, v') ∧
      s.commit d c = (refusal? (v.closed = true) c, s', d') ∧ v'.closed = v.closed ∧
      Twins folder d₀ v' s' d' := by
  unfold refusal?
  by_cases hk : c.key = ""
  · rw [if_pos hk]
    refine ⟨v, s, d, ?_, ?_, rfl, h⟩
    · rw [Volatile.commit, hk]
      rfl
    · rw [Durable.commit, hk]
      rfl
  rw [if_neg hk]
  have hempty := Durable.isEmpty_key hk
  by_cases hc : v.closed = true
  · rw [if_pos hc]
    refine ⟨v, s, d, ?_, ?_, rfl, h⟩
    · rw [Volatile.commit, hempty, hc]
      rfl
    · rw [Durable.commit, hempty, Durable.record, h.sound, h.file.2 hc]
      rfl
  · rw [if_neg hc]
    obtain ⟨file, hf⟩ := Option.ne_none_iff_exists'.1 (mt h.file.1 hc)
    obtain ⟨s', d', hs, hd', hp', hf', hdata⟩ :=
      Durable.commit_of_faultless h.faultless h.sound hf hk
    obtain ⟨cs, hr⟩ := h.run
    refine ⟨_, s', d', commit_volatile (by simpa using hc) hk, hs, rfl, ?_, ?_, hp', hd', _,
      hr.made hs⟩
    · rw [hdata, h.data]
    · rw [hf']
      exact ⟨fun hn => (Option.some_ne_none _ hn).elim, fun ht => (hc ht).elim⟩

/-- Twins close alike. -/
theorem Twins.close (h : Twins folder d₀ v s d) : ∃ s' d', s.close d = (none, s', d') ∧
    Twins folder d₀ { v with closed := true } s' d' := by
  obtain ⟨cs, hr⟩ := h.run
  have hclose : ∃ d', s.close d = (none, { s with file := none }, d') ∧
      Durable.Faultless d' := by
    unfold Durable.close
    cases hf : s.file with
    | none =>
      refine ⟨d, ?_, h.faultless⟩
      dsimp only
      rw [← hf]
    | some f =>
      refine ⟨{ d with faults := d.faults.afterSync }, ?_, h.faultless⟩
      dsimp only
      rw [Disk.sync, h.faultless.2]
      rfl
  obtain ⟨d', hs, hd'⟩ := hclose
  exact ⟨_, d', hs, h.data, ⟨fun _ => rfl, fun _ => rfl⟩, h.sound, hd', cs, hr.closed hs⟩

/-- The folder of a twin can be opened, and the store in it is the twin of the volatile store as if
that one had never been closed. -/
theorem Twins.reopen (h : Twins folder d₀ v s d) : ∃ s',
    Durable.openFolder d folder = (.ok s', d) ∧
      Twins folder d₀ { v with closed := false } s' d := by
  obtain ⟨cs, hr⟩ := h.run
  obtain ⟨file, log, hs, hdata, hlog⟩ := hr.serves
  obtain rfl := hlog h.sound
  have ho := hs.openFolder_of_ok (Log.replay_ofChanges cs)
  refine ⟨_, ho, hdata.symm.trans h.data, ?_, rfl, h.faultless, cs, hr.reopened h.sound ho⟩
  exact ⟨fun hn => (Option.some_ne_none _ hn).elim, fun ht => (Bool.false_ne_true ht).elim⟩

/-! ## One question, and a session -/

/-- Twins give the same answer, and remain twins. -/
theorem Twins.ask (h : Twins folder d₀ v s d) (e : Disk) (q : Question) :
    ∃ a v' s' d', ask (.volatile v) e q = (a, .volatile v', e) ∧
      ask (.durable s) d q = (a, .durable s', d') ∧
      (v'.closed = true ↔ v.closed = true ∨ q = .close) ∧ Twins folder d₀ v' s' d' := by
  cases q with
  | change c =>
    obtain ⟨v', s', d', hv, hs, hc, h'⟩ := h.commit c
    refine ⟨.done (refusal? (v.closed = true) c), v', s', d', ?_, ?_, ?_, h'⟩
    · rw [Store.ask, Store.commit, hv]
    · rw [Store.ask, Store.commit, hs]
    · simp [hc]
  | get key =>
    refine ⟨.value (v.data.get? key), v, s, d, rfl, ?_, by simp, h⟩
    rw [Store.ask, Store.get?, h.data]
  | keys =>
    refine ⟨.keys v.data.keys, v, s, d, rfl, ?_, by simp, h⟩
    rw [Store.ask, Store.keys, Store.data, h.data]
  | entriesUnder start =>
    refine ⟨.entries (v.data.scan start), v, s, d, rfl, ?_, by simp, h⟩
    rw [Store.ask, Store.entriesUnder, h.data]
  | close =>
    obtain ⟨s', d', hs, h'⟩ := h.close
    refine ⟨.done none, { v with closed := true }, s', d', rfl, ?_, by simp, h'⟩
    rw [Store.ask, Store.close, hs]

/-- Twins give the same answers throughout a session, and remain twins. -/
theorem Twins.askAll (h : Twins folder d₀ v s d) (e : Disk) (qs : List Question) :
    ∃ as v' s' d', askAll (.volatile v) e qs = (as, .volatile v', e) ∧
      askAll (.durable s) d qs = (as, .durable s', d') ∧
      (v'.closed = true ↔ v.closed = true ∨ Question.close ∈ qs) ∧
      Twins folder d₀ v' s' d' := by
  induction qs generalizing v s d with
  | nil => exact ⟨[], v, s, d, rfl, rfl, by simp, h⟩
  | cons q qs ih =>
    obtain ⟨a, v₁, s₁, d₁, hv, hs, hc, h₁⟩ := h.ask e q
    obtain ⟨as, v₂, s₂, d₂, hv₂, hs₂, hc₂, h₂⟩ := ih h₁
    refine ⟨a :: as, v₂, s₂, d₂, ?_, ?_, ?_, h₂⟩
    · rw [Store.askAll, hv]
      dsimp only
      rw [hv₂]
    · rw [Store.askAll, hs]
      dsimp only
      rw [hs₂]
    · rw [hc₂, hc, List.mem_cons, or_assoc, eq_comm (a := q)]

/-- A volatile store and a durable one in a new folder cannot be told apart by a session: they give
the same answers, refuse the same changes for the same reason and, wherever the session is broken
off, the folder opens again with the map of the volatile store and goes on answering like it. -/
theorem answers_alike (hv : Durable.Vacant d₀ folder) (hd : Durable.Faultless d₀)
    (ho : Durable.openFolder d₀ folder = (.ok s, d)) (qs : List Question) :
    ∃ as v s' d', askAll (.volatile .new) d₀ qs = (as, .volatile v, d₀) ∧
      askAll (.durable s) d qs = (as, .durable s', d') ∧
      (∀ c, (v.commit c).1 = refusal? (Question.close ∈ qs) c ∧
        (s'.commit d' c).1 = refusal? (Question.close ∈ qs) c) ∧
      ∃ t u e, s'.close d' = (none, t, e) ∧ Durable.openFolder e folder = (.ok u, e) ∧
        u.data = v.data ∧ ∀ qs', (askAll (.durable u) e qs').1 =
          (askAll (.volatile { v with closed := false }) d₀ qs').1 := by
  obtain ⟨as, v, s', d', hvol, hdur, hclosed, h⟩ := (twins_of_opened hv hd ho).askAll d₀ qs
  refine ⟨as, v, s', d', hvol, hdur, ?_, ?_⟩
  · intro c
    have hc : v.closed = true ↔ Question.close ∈ qs := by
      rw [hclosed]
      simp [Volatile.new]
    obtain ⟨v', s'', d'', hcv, hcs, -⟩ := h.commit c
    simp only [hcv, hcs, hc, and_self]
  · obtain ⟨t, e, ht, h'⟩ := h.close
    obtain ⟨u, hu, h''⟩ := h'.reopen
    refine ⟨t, u, e, ht, hu, h''.data, ?_⟩
    intro qs'
    obtain ⟨as', _, _, _, hvol', hdur', -⟩ := h''.askAll d₀ qs'
    rw [hvol', hdur']

/-- Keys are put, listed and taken away, the store is closed twice and refuses what comes after. -/
theorem answers_alike_new : ∃ s d, Durable.Vacant {} "d" ∧ Durable.Faultless {} ∧
    Durable.openFolder {} "d" = (.ok s, d) ∧
    (askAll (.durable s) d [.change (.put "b" [2]), .change (.put "a" [1]), .keys,
      .change (.delete "b"), .entriesUnder "a", .close, .close, .change (.put "" []),
      .change (.put "c" []), .get "a"]).1 =
      [.done none, .done none, .keys ["a", "b"], .done none, .entries [("a", [1])], .done none,
        .done none, .done (some .emptyKey), .done (some .closed), .value (some [1])] := by
  obtain ⟨hv, s, d, ho, -⟩ := Durable.openFolder_new
  have hd : Durable.Faultless {} := ⟨fun _ => rfl, fun _ => rfl⟩
  obtain ⟨as, v, s', d', hvol, hdur, -⟩ := answers_alike hv hd ho [.change (.put "b" [2]),
    .change (.put "a" [1]), .keys, .change (.delete "b"), .entriesUnder "a", .close, .close,
    .change (.put "" []), .change (.put "c" []), .get "a"]
  refine ⟨s, d, hv, hd, ho, ?_⟩
  rw [hdur]
  exact (congrArg Prod.fst hvol).symm.trans (by decide +kernel)

end Store

end ControlPlane
