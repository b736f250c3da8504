import ControlPlane.Proofs.Except
import ControlPlane.Store.Disk

/-!
# Disks: what stays

A path that leads somewhere goes on leading there when files and folders are added where nothing was
(`Disk.locate_of_extends`), so a folder that was made is not made again (`Disk.makeFolders_of_made`)
and a file that was made is found (`Disk.openToRead_of_openToWrite`). Whatever fails, writing to a
file changes its content alone (`Disk.Wrote`).
-/

namespace ControlPlane.Disk

variable {d d' d'' : Disk} {path : List String} {p q : Place}

/-! ## More names -/

/-- Whether a disk has all names of another one and no further links. -/
structure Extends (d d' : Disk) : Prop where
  home : d'.home = d.home
  entry : ∀ {p e}, d.entry? p = some e → d'.entry? p = some e
  link : ∀ {p target}, d'.entry? p = some (.link target) → d.entry? p = some (.link target)

theorem extends_of_names (hh : d'.home = d.home) (hn : d'.names = d.names) : d.Extends d' := by
  have he : ∀ p, d'.entry? p = d.entry? p := by
    intro p
    unfold entry?
    rw [hn]
  exact ⟨hh, fun h => by rwa [he], fun h => by rwa [← he]⟩

theorem Extends.refl (d : Disk) : d.Extends d :=
  ⟨rfl, id, id⟩

theorem Extends.trans (h : d.Extends d') (h' : d'.Extends d'') : d.Extends d'' :=
  ⟨h'.home.trans h.home, fun he => h'.entry (h.entry he), fun he => h.link (h'.link he)⟩

theorem entry?_put_self {e : DiskEntry} (hp : d.entry? p = none) :
    entry? (d.put p e) p = some e := by
  have hne : p.isEmpty = false := by
    cases p with
    | nil =>
      unfold entry? at hp
      cases hp
    | cons name rest => rfl
  unfold entry?
  rw [hne]
  simp [put]

theorem entry?_put_of_ne {e : DiskEntry} (h : q ≠ p) :
    entry? (d.put p e) q = d.entry? q := by
  unfold entry?
  split
  · rfl
  · rw [put, List.lookup_cons, beq_false_of_ne h]
    dsimp only
    induction d.names with
    | nil => rfl
    | cons x xs ih =>
      by_cases hx : x.1 = p
      · have : (q == x.1) = false := beq_false_of_ne (hx ▸ h)
        rw [List.filter_cons_of_neg (by simpa using hx), ih, List.lookup_cons, this]
      · rw [List.filter_cons_of_pos (by simpa using hx), List.lookup_cons, List.lookup_cons, ih]

/-- Adding a name that stands for no link. -/
theorem extends_put {e : DiskEntry} (hp : d.entry? p = none) (he : ∀ target, e ≠ .link target) :
    d.Extends (d.put p e) := by
  refine ⟨rfl, fun {q _} hq => ?_, fun {q target} hq => ?_⟩
  · have hne : q ≠ p := by
      rintro rfl
      simp [hp] at hq
    rwa [entry?_put_of_ne hne]
  · by_cases hne : q = p
    · subst hne
      rw [entry?_put_self hp] at hq
      exact absurd (Option.some.inj hq) (he target)
    · rwa [entry?_put_of_ne hne] at hq

/-! ## Following paths -/

theorem parts_of_extends (h : d.Extends d') (path : String) : d'.parts path = d.parts path := by
  unfold parts isAbsolute
  rw [h.home]

theorem follow_nil (d : Disk) (last : Bool) (links : Nat) (folder : Place) :
    d.follow last links folder [] = .ok folder := by
  rw [follow]

/-- A name that is not the one above leads to what stands there. -/
theorem follow_cons {name : String} (hn : name ≠ "..") (d : Disk) (last : Bool) (links : Nat)
    (folder : Place) (rest : List String) :
    d.follow last links folder (name :: rest) =
      match d.entry? (folder ++ [name]) with
      | none => if rest.isEmpty then .ok (folder ++ [name]) else .error .notFound
      | some .folder => d.follow last links (folder ++ [name]) rest
      | some (.file _) => if rest.isEmpty then .ok (folder ++ [name]) else .error .notFolder
      | some (.link target) =>
        if rest.isEmpty && !last then .ok (folder ++ [name])
        else match links with
          | 0 => .error .tooManyLinks
          | links + 1 =>
            d.follow last links (if d.isAbsolute target then [] else folder)
              (d.parts target ++ rest) := by
  rw [follow.eq_def]
  split
  · simp at *
  · simp_all
  · rename_i heq
    cases heq
    rfl

/-- A path that leads to a place leads there with more names too. -/
theorem follow_of_extends (h : d.Extends d') {last : Bool} {links : Nat} {folder : Place}
    {names : List String} {q : Place} (hq : d.follow last links folder names = .ok q) :
    d'.follow last links folder names = .ok q := by
  fun_induction d.follow last links folder names with
  | case1 => rw [follow_nil, hq]
  | case2 links folder rest ih =>
    rw [follow]
    exact ih hq
  | case3 links folder name rest hn p hp hr =>
    -- Where nothing was there is no link now, and the path ends there.
    obtain rfl := List.isEmpty_iff.1 hr
    obtain rfl := Except.ok.inj hq
    rw [follow_cons hn]
    cases he : d'.entry? p with
    | none => rfl
    | some e =>
      cases e with
      | file n => rfl
      | folder => exact follow_nil d' last links p
      | link target =>
        rw [h.link he] at hp
        cases hp
  | case4 | case7 | case9 => cases hq
  | case5 links folder name rest hn p hp ih =>
    rw [follow_cons hn, h.entry hp]
    exact ih hq
  | case6 links folder name rest hn p number hp hr =>
    rw [follow_cons hn, h.entry hp]
    dsimp only
    rw [if_pos hr, hq]
  | case8 links folder name rest hn p target hp hr =>
    rw [follow_cons hn, h.entry hp]
    dsimp only
    rw [if_pos hr, hq]
  | case10 folder name rest hn p target hp hr links start ih =>
    rw [follow_cons hn, h.entry hp]
    dsimp only
    rw [if_neg hr, parts_of_extends h, isAbsolute, h.home]
    exact ih hq

theorem locate_of_extends (h : d.Extends d') {last : Bool} {q : Place}
    (hq : d.locate last path = .ok q) : d'.locate last path = .ok q :=
  follow_of_extends h hq

/-- A path that leads somewhere with a link at its end leads somewhere without. -/
theorem follow_false_of_true {links : Nat} {folder : Place} {names : List String} {q : Place}
    (hq : d.follow true links folder names = .ok q) :
    ∃ q', d.follow false links folder names = .ok q' := by
  generalize hlast : true = last at hq
  fun_induction d.follow last links folder names with
  | case1 => exact ⟨_, follow_nil _ _ _ _⟩
  | case2 links folder rest ih =>
    rw [follow]
    exact ih hq
  | case3 links folder name rest hn p hp hr =>
    rw [follow_cons hn, hp]
    exact ⟨_, if_pos hr⟩
  | case4 | case7 | case9 => cases hq
  | case5 links folder name rest hn p hp ih =>
    rw [follow_cons hn, hp]
    exact ih hq
  | case6 links folder name rest hn p number hp hr =>
    rw [follow_cons hn, hp]
    exact ⟨_, if_pos hr⟩
  | case8 links folder name rest hn p target hp hr =>
    subst hlast
    simp at hr
  | case10 folder name rest hn p target hp hr links start ih =>
    rw [follow_cons hn, hp]
    dsimp only
    split
    · exact ⟨_, rfl⟩
    · exact ih hq

/-- Where nothing is there is no link at the end. -/
theorem follow_true_of_vacant {links : Nat} {folder : Place} {names : List String} {q : Place}
    (hq : d.follow false links folder names = .ok q) (hv : d.entry? q = none) :
    d.follow true links folder names = .ok q := by
  generalize hlast : false = last at hq
  fun_induction d.follow last links folder names with
  | case1 => rw [follow_nil, hq]
  | case2 links folder rest ih =>
    rw [follow]
    exact ih hq
  | case3 links folder name rest hn p hp hr =>
    rw [follow_cons hn, hp]
    dsimp only
    rw [if_pos hr, hq]
  | case4 | case7 | case9 => cases hq
  | case5 links folder name rest hn p hp ih =>
    rw [follow_cons hn, hp]
    exact ih hq
  | case6 links folder name rest hn p number hp hr =>
    rw [follow_cons hn, hp]
    dsimp only
    rw [if_pos hr, hq]
  | case8 links folder name rest hn p target hp hr =>
    obtain rfl := Except.ok.inj hq
    rw [hp] at hv
    cases hv
  | case10 folder name rest hn p target hp hr links start ih =>
    have hr : ¬(rest.isEmpty && !true) = true := by simp
    rw [follow_cons hn, hp]
    dsimp only
    rw [if_neg hr]
    exact ih hq

/-! ## Folders -/

/-- Whether a path, given from its end, is the one of a folder that is there. -/
def Made (d : Disk) (rpath : List String) : Prop :=
  rpath = [] ∨ d.isFolder rpath.reverse = true ∧
    ∃ p, d.locate false rpath.reverse = .ok p ∧ (d.entry? p).isSome

theorem isFolder_eq_true : d.isFolder path = true ↔
    ∃ p, d.locate true path = .ok p ∧ d.entry? p = some .folder := by
  unfold isFolder
  cases d.locate true path with
  | error e => simp
  | ok p => simp

theorem Made.of_extends {rpath : List String} (hm : d.Made rpath) (h : d.Extends d') :
    d'.Made rpath := by
  rcases hm with hm | ⟨hf, p, hp, he⟩
  · exact .inl hm
  · obtain ⟨q, hq, hqe⟩ := isFolder_eq_true.1 hf
    obtain ⟨e, he⟩ := Option.isSome_iff_exists.1 he
    refine .inr ⟨isFolder_eq_true.2 ⟨q, locate_of_extends h hq, h.entry hqe⟩, p,
      locate_of_extends h hp, ?_⟩
    rw [h.entry he]
    rfl

/-- What a folder that was made is: a name where nothing was. -/
theorem makeFolder_eq_ok (h : d.makeFolder path = .ok d') :
    ∃ p, d.locate false path = .ok p ∧ d.entry? p = none ∧ d' = d.put p .folder := by
  obtain ⟨p, hp, h⟩ := Except.bind_eq_ok.1 h
  split at h
  · cases h
  · rename_i he
    exact ⟨p, hp, by simpa using he, (Except.ok.inj h).symm⟩

theorem extends_of_makeFolder (h : d.makeFolder path = .ok d') : d.Extends d' := by
  obtain ⟨p, -, hp, rfl⟩ := makeFolder_eq_ok h
  exact extends_put hp fun _ he => by cases he

/-- A folder that cannot be made since it is there. -/
theorem made_of_isFolder {rpath : List String} {e : DiskError}
    (h : d.makeFolder rpath.reverse = .error e) (hf : d.isFolder rpath.reverse = true) :
    d.Made rpath := by
  obtain ⟨q, hq, -⟩ := isFolder_eq_true.1 hf
  obtain ⟨p, hp⟩ := follow_false_of_true hq
  refine .inr ⟨hf, p, hp, ?_⟩
  unfold makeFolder at h
  rw [locate, hp] at h
  by_cases he : (d.entry? p).isSome
  · exact he
  · change (if (d.entry? p).isSome then Except.error DiskError.alreadyExists
      else .ok (d.put p .folder)) = _ at h
    rw [if_neg he] at h
    cases h

/-- A folder that was made is there. -/
theorem made_of_makeFolder {rpath : List String} (h : d.makeFolder rpath.reverse = .ok d') :
    d'.Made rpath := by
  have hx := extends_of_makeFolder h
  obtain ⟨p, hp, hv, rfl⟩ := makeFolder_eq_ok h
  have he := entry?_put_self (e := .folder) hv
  refine .inr ⟨isFolder_eq_true.2 ⟨p, locate_of_extends hx (follow_true_of_vacant hp hv), he⟩, p,
    locate_of_extends hx hp, ?_⟩
  rw [he]
  rfl

/-- A folder is there after it was made with the folders on the way. -/
theorem made_of_makeFoldersRev {rpath : List String} (h : d.makeFoldersRev rpath = .ok d') :
    d'.Made rpath := by
  induction rpath generalizing d d' with
  | nil => exact .inl rfl
  | cons name above ih =>
    have there : ∀ {d₁ : Disk} {e : DiskError}, d₁.makeFolder (name :: above).reverse = .error e →
        (if d₁.isFolder (name :: above).reverse then Except.ok d₁ else .error e) = .ok d' →
        d'.Made (name :: above) := by
      intro d₁ e he h
      split at h
      · rename_i hf
        obtain rfl := Except.ok.inj h
        exact made_of_isFolder he hf
      · cases h
    unfold makeFoldersRev at h
    dsimp only at h
    split at h
    · rename_i hd
      obtain rfl := Except.ok.inj h
      exact made_of_makeFolder hd
    · obtain ⟨d₁, -, h⟩ := Except.bind_eq_ok.1 h
      split at h
      · rename_i hd
        obtain rfl := Except.ok.inj h
        exact made_of_makeFolder hd
      · rename_i he
        exact there he h
    · rename_i he
      exact there he h

/-- A folder that is there is not made again. -/
theorem makeFoldersRev_of_made {rpath : List String} (h : d.Made rpath) :
    d.makeFoldersRev rpath = .ok d := by
  cases rpath with
  | nil => rfl
  | cons name above =>
    obtain ⟨hf, p, hp, he⟩ := h.resolve_left (List.cons_ne_nil _ _)
    have hm : d.makeFolder (name :: above).reverse = .error .alreadyExists := by
      unfold makeFolder
      rw [hp]
      exact if_pos he
    rw [makeFoldersRev, hm]
    dsimp only
    rw [if_pos hf]

/-- Whether the folder at a path is there. -/
def HasFolder (d : Disk) (path : String) : Prop :=
  d.Made (d.parts path).reverse

theorem HasFolder.of_extends {path : String} (hm : d.HasFolder path) (h : d.Extends d') :
    d'.HasFolder path := by
  unfold HasFolder at hm ⊢
  rw [parts_of_extends h]
  exact Made.of_extends hm h

/-- What making one folder keeps is kept by making all that are missing. -/
theorem of_makeFoldersRev {P : Disk → Prop} {rpath : List String}
    (hP : ∀ {d d' path}, P d → makeFolder d path = .ok d' → P d') (hd : P d)
    (h : d.makeFoldersRev rpath = .ok d') : P d' := by
  induction rpath generalizing d d' with
  | nil =>
    obtain rfl := Except.ok.inj h
    exact hd
  | cons name above ih =>
    have there : ∀ {d₁ : Disk} {e : DiskError}, P d₁ →
        (if d₁.isFolder (name :: above).reverse then Except.ok d₁ else .error e) = .ok d' →
        P d' := by
      intro d₁ e hd₁ h
      split at h
      · obtain rfl := Except.ok.inj h
        exact hd₁
      · cases h
    unfold makeFoldersRev at h
    dsimp only at h
    split at h
    · rename_i hm
      obtain rfl := Except.ok.inj h
      exact hP hd hm
    · obtain ⟨d₁, hd₁, h⟩ := Except.bind_eq_ok.1 h
      split at h
      · rename_i hm
        obtain rfl := Except.ok.inj h
        exact hP (ih hd hd₁) hm
      · exact there (ih hd hd₁) h
    · exact there hd h

theorem extends_of_makeFolders {path : String} (h : d.makeFolders path = .ok d') : d.Extends d' :=
  of_makeFoldersRev (fun hx hm => hx.trans (extends_of_makeFolder hm)) (.refl d) h

/-- A folder is there after it was made. -/
theorem hasFolder_of_makeFolders {path : String} (h : d.makeFolders path = .ok d') :
    d'.HasFolder path := by
  unfold HasFolder
  rw [parts_of_extends (extends_of_makeFolders h)]
  exact made_of_makeFoldersRev h

/-- Making a folder that is there changes nothing. -/
theorem makeFolders_of_hasFolder {path : String} (h : d.HasFolder path) :
    d.makeFolders path = .ok d :=
  makeFoldersRev_of_made h

/-! ## Files by name -/

theorem openToRead_of_locate {path : String} (h : d.locate true (d.parts path) = .ok p) :
    d.openToRead path = match d.entry? p with
      | some (.file n) => .ok (some n)
      | some _ => .ok none
      | none => .error .notFound := by
  rw [openToRead, h]
  rfl

theorem openToWrite_of_locate {path : String} (h : d.locate true (d.parts path) = .ok p) :
    d.openToWrite path = match d.entry? p with
      | some (.file n) => .ok (n, d)
      | some _ => .error .isFolder
      | none => .ok (d.contents.length,
          { d.put p (.file d.contents.length) with contents := d.contents ++ [[]] }) := by
  rw [openToWrite, h]
  rfl

theorem openToRead_eq_ok {path : String} {n : Nat} : d.openToRead path = .ok (some n) ↔
    ∃ p, d.locate true (d.parts path) = .ok p ∧ d.entry? p = some (.file n) := by
  constructor
  · intro h
    obtain ⟨p, hp, h⟩ := Except.bind_eq_ok.1 h
    refine ⟨p, hp, ?_⟩
    split at h
    · rename_i he
      rw [he, Option.some.inj (Except.ok.inj h)]
    · cases h
    · cases h
  · rintro ⟨p, hp, he⟩
    rw [openToRead_of_locate hp, he]

/-- A file that is found is found with more names too. -/
theorem openToRead_of_extends {path : String} {n : Nat} (hn : d.openToRead path = .ok (some n))
    (h : d.Extends d') : d'.openToRead path = .ok (some n) := by
  obtain ⟨p, hp, he⟩ := openToRead_eq_ok.1 hn
  refine openToRead_eq_ok.2 ⟨p, ?_, h.entry he⟩
  rw [parts_of_extends h]
  exact locate_of_extends h hp

/-- A file that is found is the one to write to. -/
theorem openToWrite_of_openToRead {path : String} {n : Nat}
    (h : d.openToRead path = .ok (some n)) : d.openToWrite path = .ok (n, d) := by
  obtain ⟨p, hp, he⟩ := openToRead_eq_ok.1 h
  rw [openToWrite_of_locate hp, he]

/-- The file to write to is one that was there or a new one without content. -/
theorem openToWrite_eq_ok {path : String} {n : Nat} (h : d.openToWrite path = .ok (n, d')) :
    d.openToRead path = .ok (some n) ∧ d' = d ∨
    d.openToRead path = .error .notFound ∧ d.Extends d' ∧ d'.openToRead path = .ok (some n) ∧
      n = d.contents.length ∧ d'.contents = d.contents ++ [[]] := by
  obtain ⟨p, hp, h⟩ := Except.bind_eq_ok.1 h
  split at h
  · rename_i he
    obtain ⟨rfl, rfl⟩ := Prod.mk.inj (Except.ok.inj h)
    exact .inl ⟨openToRead_eq_ok.2 ⟨p, hp, he⟩, rfl⟩
  · cases h
  · rename_i he
    right
    obtain ⟨rfl, rfl⟩ := Prod.mk.inj (Except.ok.inj h)
    have hx : d.Extends (d.put p (.file d.contents.length)) :=
      extends_put he fun _ hf => by cases hf
    have hx : d.Extends { d.put p (.file d.contents.length) with
        contents := d.contents ++ [[]] } := hx.trans (extends_of_names rfl rfl)
    refine ⟨?_, hx, openToRead_eq_ok.2 ⟨p, ?_, entry?_put_self he⟩, rfl, rfl⟩
    · rw [openToRead_of_locate hp, he]
    · rw [parts_of_extends hx]
      exact locate_of_extends hx hp

/-- Whether every name of a file stands for a file of the disk. -/
def FilesValid (d : Disk) : Prop :=
  ∀ p n, d.entry? p = some (.file n) → n < d.contents.length

theorem filesValid_new : FilesValid {} := by
  intro p n h
  cases p <;> simp [Disk.entry?] at h

theorem FilesValid.put_folder (hd : d.FilesValid) (hp : d.entry? p = none) :
    (d.put p .folder).FilesValid := by
  intro q n hq
  by_cases hne : q = p
  · subst hne
    rw [entry?_put_self hp] at hq
    cases hq
  · rw [entry?_put_of_ne hne] at hq
    exact hd q n hq

theorem FilesValid.makeFolders {path : String} (hd : d.FilesValid)
    (h : d.makeFolders path = .ok d') : d'.FilesValid := by
  refine of_makeFoldersRev (fun {d d' path} hd hm => ?_) hd h
  obtain ⟨p, -, hp, rfl⟩ := makeFolder_eq_ok hm
  exact hd.put_folder hp

theorem FilesValid.lt {path : String} {n : Nat} (hd : d.FilesValid)
    (h : d.openToRead path = .ok (some n)) : n < d.contents.length := by
  obtain ⟨p, -, he⟩ := openToRead_eq_ok.1 h
  exact hd p n he

/-! ## Writing -/

/-- Whether a disk is another one with a content of a file, up to what is going to fail. -/
structure Wrote (d : Disk) (file : Nat) (bs : Bytes) (d' : Disk) : Prop where
  home : d'.home = d.home
  names : d'.names = d.names
  contents : d'.contents = d.contents.set file bs

theorem Wrote.extends {file : Nat} {bs : Bytes} (h : d.Wrote file bs d') : d.Extends d' :=
  extends_of_names h.home h.names

theorem Wrote.length {file : Nat} {bs : Bytes} (h : d.Wrote file bs d') :
    d'.contents.length = d.contents.length := by
  rw [h.contents, List.length_set]

theorem Wrote.content {file : Nat} {bs : Bytes} (h : d.Wrote file bs d')
    (hf : file < d.contents.length) : d'.content file = bs := by
  rw [Disk.content, h.contents, List.getElem?_set_self hf]
  rfl

theorem Wrote.trans {file : Nat} {bs bs' : Bytes} (h : d.Wrote file bs d')
    (h' : d'.Wrote file bs' d'') : d.Wrote file bs' d'' :=
  ⟨h'.home.trans h.home, h'.names.trans h.names, by rw [h'.contents, h.contents, List.set_set]⟩

/-- Any part of what was to be written may be written, and all of it if nothing failed. -/
theorem append_spec {file : Nat} {bs : Bytes} {e : Option DiskError}
    (h : d.append file bs = (e, d')) :
    ∃ p, p <+: bs ∧ d.Wrote file (d.content file ++ p) d' ∧ (e = none → p = bs) := by
  obtain ⟨rfl, rfl⟩ := Prod.mk.inj h
  refine ⟨_, List.take_prefix _ _, ⟨rfl, rfl, rfl⟩, fun h => List.take_of_length_le ?_⟩
  split at h
  · assumption
  · cases h

/-- Whether two disks hold the same, up to what is going to fail. -/
structure Same (d d' : Disk) : Prop where
  home : d'.home = d.home
  names : d'.names = d.names
  contents : d'.contents = d.contents

theorem Same.refl (d : Disk) : d.Same d :=
  ⟨rfl, rfl, rfl⟩

theorem Same.trans (h : d.Same d') (h' : d'.Same d'') : d.Same d'' :=
  ⟨h'.home.trans h.home, h'.names.trans h.names, h'.contents.trans h.contents⟩

theorem contents_set_content (d : Disk) (file : Nat) :
    d.contents.set file (d.content file) = d.contents := by
  by_cases hf : file < d.contents.length
  · rw [content, List.getElem?_eq_getElem hf]
    exact List.set_getElem_self hf
  · exact List.set_eq_of_length_le (Nat.le_of_not_lt hf)

theorem Same.wrote (h : d.Same d') (file : Nat) : d.Wrote file (d.content file) d' :=
  ⟨h.home, h.names, by rw [h.contents, contents_set_content]⟩

/-- Bringing a file safely to the disk changes none. -/
theorem sync_spec {e : Option DiskError} (h : d.sync = (e, d')) : d.Same d' := by
  obtain ⟨-, rfl⟩ := Prod.mk.inj h
  exact ⟨rfl, rfl, rfl⟩

/-- A file is cut as a whole or not at all. -/
theorem cut_spec {file length : Nat} {e : Option DiskError} (h : d.cut file length = (e, d')) :
    d.Wrote file (if e = none then resize (d.content file) length else d.content file) d' := by
  unfold cut at h
  dsimp only at h
  split at h
  · obtain ⟨rfl, rfl⟩ := Prod.mk.inj h
    exact ⟨rfl, rfl, (d.contents_set_content file).symm⟩
  · obtain ⟨rfl, rfl⟩ := Prod.mk.inj h
    exact ⟨rfl, rfl, rfl⟩

theorem resize_append (bs p : Bytes) : resize (bs ++ p) bs.length = bs := by
  rw [resize, List.take_left, List.length_append, Nat.sub_eq_zero_of_le (Nat.le_add_right _ _)]
  exact List.append_nil bs

end ControlPlane.Disk
