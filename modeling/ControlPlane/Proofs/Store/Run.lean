import ControlPlane.Proofs.Store.Durable

/-!
# Durable stores: whole runs

What a store and its log hold after any number of changes, closings and openings, whatever the disk
refuses on the way. As long as the store is not poisoned, its log has the lines of the changes that
were made and nothing else, and opening the folder leads to its map (`Durable.Run.recovers`).
-/

namespace ControlPlane.Durable

/-- Whether there is no log in a folder, be it that the folder is missing or that it is empty. -/
def Vacant (d : Disk) (folder : String) : Prop :=
  ∀ d', d.makeFolders folder = .ok d' →
    d'.openToRead (inFolder folder logName) = .error .notFound

/-- The runs of a store that was first opened in a folder without a log, with the changes that were
made in them. -/
inductive Run (folder : String) (d₀ : Disk) : List Change → Durable → Disk → Prop
  /-- The store is opened for the first time. -/
  | opened {s : Durable} {d : Disk} : Vacant d₀ folder → openFolder d₀ folder = (.ok s, d) →
      Run folder d₀ [] s d
  /-- A change is made. -/
  | made {cs s d c s' d'} : Run folder d₀ cs s d → s.commit d c = (none, s', d') →
      Run folder d₀ (cs ++ [c]) s' d'
  /-- A change is refused or fails. -/
  | failed {cs s d c e s' d'} : Run folder d₀ cs s d → s.commit d c = (some e, s', d') →
      Run folder d₀ cs s' d'
  | closed {cs s d e s' d'} : Run folder d₀ cs s d → s.close d = (e, s', d') →
      Run folder d₀ cs s' d'
  /-- A store that is not poisoned is opened anew. -/
  | reopened {cs s d s' d'} : Run folder d₀ cs s d → s.poisoned = false →
      openFolder d folder = (.ok s', d') → Run folder d₀ cs s' d'
  /-- What is going to fail becomes something else. -/
  | faulted {cs s d} (faults : DiskFaults) : Run folder d₀ cs s d →
      Run folder d₀ cs s { d with faults }

variable {folder : String} {d₀ : Disk} {cs : List Change} {s : Durable} {d : Disk}

/-- A store that is opened where there is no log has an empty one. -/
theorem serves_of_vacant (hv : Vacant d₀ folder) (ho : openFolder d₀ folder = (.ok s, d)) :
    ∃ file, Serves folder file [] s d ∧ s.data = .empty := by
  obtain ⟨d₁, file, hd₁, -, -, ⟨hr, -⟩ | ⟨-, hdata, hs⟩⟩ := serves_of_openFolder ho
  · rw [hv d₁ hd₁] at hr
    cases hr
  · exact ⟨file, hs, hdata⟩

/-- What every run keeps: the store serves its folder, its map is the one that the changes lead to
and, unless it is poisoned, its log is theirs. -/
theorem Run.serves (h : Run folder d₀ cs s d) :
    ∃ file log, Serves folder file log s d ∧ s.data = cs.foldl Change.apply .empty ∧
      (s.poisoned = false → log = Log.ofChanges cs) := by
  induction h with
  | opened hv ho =>
    obtain ⟨file, hs, hdata⟩ := serves_of_vacant hv ho
    exact ⟨file, [], hs, hdata, fun _ => rfl⟩
  | @made cs s d c s' d' _ hc ih =>
    obtain ⟨file, log, hs, hdata, hlog⟩ := ih
    cases commit_spec hs hc with
    | made data _ healthy _ serves =>
      refine ⟨file, _, serves, ?_, fun _ => ?_⟩
      · rw [data, hdata, List.foldl_concat]
      · rw [hlog healthy, Log.ofChanges_append, Log.ofChanges_singleton]
  | failed _ hc ih =>
    obtain ⟨file, log, hs, hdata, hlog⟩ := ih
    cases commit_spec hs hc with
    | undone serves => exact ⟨file, log, serves, hdata, hlog⟩
    | torn _ _ data poisoned serves =>
      refine ⟨file, _, serves, data.trans hdata, fun hp => ?_⟩
      rw [poisoned] at hp
      cases hp
  | closed _ hc ih =>
    obtain ⟨file, log, hs, hdata, hlog⟩ := ih
    obtain ⟨rfl, hsame⟩ := close_eq hc
    exact ⟨file, log, hs.of_same hsame rfl (fun f hf => by cases hf), hdata, hlog⟩
  | @reopened cs s d s' d' _ hp ho ih =>
    obtain ⟨file, log, hs, hdata, hlog⟩ := ih
    obtain rfl := hlog hp
    rw [hs.openFolder_of_ok (Log.replay_ofChanges cs)] at ho
    obtain ⟨he, rfl⟩ := Prod.mk.inj ho
    obtain rfl := Except.ok.inj he
    exact ⟨file, _, hs.opened _, rfl, fun _ => rfl⟩
  | @faulted cs s d faults _ ih =>
    obtain ⟨file, log, hs, hdata, hlog⟩ := ih
    exact ⟨file, log, hs.of_same ⟨rfl, rfl, rfl⟩ rfl hs.handle, hdata, hlog⟩

/-! ## A store in a new folder -/

theorem makeFolders_new : Disk.makeFolders {} "d" = .ok { names := [(["d"], .folder)] } := by
  have hp : Disk.locate {} false ["d"] = .ok ["d"] := by
    rw [Disk.locate, Disk.follow_cons (by decide)]
    rfl
  have hm : Disk.makeFolder {} ["d"] = .ok { names := [(["d"], .folder)] } := by
    rw [Disk.makeFolder, hp]
    rfl
  show Disk.makeFoldersRev {} ["d"] = _
  rw [Disk.makeFoldersRev]
  simp only [List.reverse_singleton, hm]

theorem locate_new (d : Disk) (h : d.names = [(["d"], .folder)]) (hh : d.home = "") :
    d.locate true (d.parts (inFolder "d" logName)) = .ok ["d", "store.wal"] := by
  have hpath : inFolder "d" logName = "d/store.wal" := by decide +kernel
  have hparts : d.parts (inFolder "d" logName) = ["d", "store.wal"] := by
    rw [hpath, Disk.parts, Disk.isAbsolute, hh]
    decide
  rw [hparts, Disk.locate, Disk.follow_cons (by decide), Disk.entry?, h]
  show Disk.follow _ _ _ ["d"] ["store.wal"] = _
  rw [Disk.follow_cons (by decide), Disk.entry?, h]
  rfl

/-- A store can be opened in a folder that is missing. -/
theorem openFolder_new : Vacant {} "d" ∧ ∃ s d, openFolder {} "d" = (.ok s, d) ∧
    s.poisoned = false ∧ s.file = some 0 ∧ Faultless d := by
  have hloc := locate_new { names := [(["d"], .folder)] } rfl rfl
  have hr : Disk.openToRead { names := [(["d"], .folder)] } (inFolder "d" logName) =
      .error .notFound := Disk.openToRead_of_locate hloc
  have hw := Disk.openToWrite_of_locate hloc
  have hl : load { names := [(["d"], .folder)] } (inFolder "d" logName) = .ok .empty := by
    rw [load, hr]
  refine ⟨fun d hd => ?_, ⟨inFolder "d" logName, .empty, some 0, 0, false⟩,
    { names := [(["d", "store.wal"], .file 0), (["d"], .folder)], contents := [[]] }, ?_, rfl, rfl,
    fun _ => rfl, fun _ => rfl⟩
  · rw [makeFolders_new] at hd
    obtain rfl := Except.ok.inj hd
    exact hr
  · rw [openFolder, makeFolders_new]
    dsimp only
    rw [hl]
    dsimp only
    rw [hw]
    rfl

/-- A change can be made in a folder that is missing. -/
theorem exists_run_put : ∃ s d, Run "d" {} [.put "a" [49]] s d ∧ s.poisoned = false ∧
    s.file = some 0 := by
  obtain ⟨hv, s, d, ho, hp, hf, hd⟩ := openFolder_new
  have hk : (Change.put "a" [49]).key ≠ "" := by decide
  obtain ⟨s', d', hc, -, hp', hf', -⟩ := commit_of_faultless hd hp hf hk
  exact ⟨s', d', .made (.opened hv ho) hc, hp', hf'⟩

/-- A store that is not poisoned, its log and what opening its folder leads to agree on the changes
that were made, and a change that was not made is nowhere. -/
theorem Run.recovers (h : Run folder d₀ cs s d) :
    s.data = cs.foldl Change.apply .empty ∧
    (s.poisoned = false →
      d.load (inFolder folder logName) = .ok (Log.ofChanges cs) ∧
      (s.file.isSome → s.committed = (Log.ofChanges cs).length) ∧
      ∃ file, openFolder d folder =
        (.ok ⟨inFolder folder logName, s.data, some file, (Log.ofChanges cs).length, false⟩, d)) ∧
    ∀ c e s' d', s.commit d c = (some e, s', d') → s'.data = s.data := by
  obtain ⟨file, log, hs, hdata, hlog⟩ := h.serves
  refine ⟨hdata, fun hp => ?_, fun c e s' d' hc => ?_⟩
  · obtain rfl := hlog hp
    refine ⟨hs.load, fun hf => ?_, file, ?_⟩
    · obtain ⟨f, hf⟩ := Option.isSome_iff_exists.1 hf
      exact (hs.handle f hf).2.2
    · rw [hs.openFolder_of_ok (Log.replay_ofChanges cs), hdata]
  · cases commit_spec hs hc with
    | undone => rfl
    | torn _ _ data => exact data

/-- A write that stops after three bytes leaves nothing in the log. The store that is opened anew
after it goes on from the change that was made. -/
theorem Run.recovers_torn_write : ∃ s d d₁ s₁ s₂ d₂,
    Run "d" {} [.put "a" [49]] s d ∧
    s.commit { d with faults := { writes := fun _ => some 3 } } (.put "b" [50]) =
      (some (.write .noSpace), s, d₁) ∧
    d₁.load (inFolder "d" logName) = .ok (Change.line (.put "a" [49])) ∧
    openFolder d₁ "d" = (.ok s₁, d₁) ∧ s₁.data = KeyMap.empty.insert "a" [49] ∧
    s₁.commit { d₁ with faults := {} } (.put "c" [51]) = (none, s₂, d₂) ∧
    Run "d" {} [.put "a" [49], .put "c" [51]] s₂ d₂ ∧ s₂.poisoned = false ∧
    s₂.data = (KeyMap.empty.insert "a" [49]).insert "c" [51] ∧
    d₂.load (inFolder "d" logName) =
      .ok (Change.line (.put "a" [49]) ++ Change.line (.put "c" [51])) := by
  obtain ⟨s, d, first, hp, hf⟩ := exists_run_put
  -- the change that is broken off
  have hb : (Change.put "b" [50]).key ≠ "" := by decide
  have hlength : 3 < (Change.put "b" [50]).line.length := by decide +kernel
  obtain ⟨d₁, hc₁⟩ := commit_of_stopped
    (d := { d with faults := { writes := fun _ => some 3 } }) rfl hlength (fun _ => rfl)
    (fun _ => rfl) hp hf hb
  have torn := Run.failed (.faulted _ first) hc₁
  obtain ⟨hdata, hlog, -⟩ := Run.recovers torn
  obtain ⟨hload, -, file, ho₁⟩ := hlog hp
  -- the one that is made after the store was opened anew
  obtain ⟨s₁, ho₁, hp₁, hf₁, hdata₁⟩ : ∃ s₁, openFolder d₁ "d" = (.ok s₁, d₁) ∧
      s₁.poisoned = false ∧ s₁.file = some file ∧ s₁.data = s.data := ⟨_, ho₁, rfl, rfl, rfl⟩
  have again := Run.reopened torn hp ho₁
  have hk : (Change.put "c" [51]).key ≠ "" := by decide
  obtain ⟨s₂, d₂, hc₂, -, hp₂, -, -⟩ := commit_of_faultless
    (d := { d₁ with faults := {} }) ⟨fun _ => rfl, fun _ => rfl⟩ hp₁ hf₁ hk
  have second := Run.made (.faulted _ again) hc₂
  obtain ⟨hdata₂, hlog₂, -⟩ := Run.recovers second
  exact ⟨s, d, d₁, s₁, s₂, d₂, first, hc₁, hload, ho₁, hdata₁.trans hdata, hc₂, second, hp₂, hdata₂,
    (hlog₂ hp₂).1⟩

end ControlPlane.Durable
