import ControlPlane.Json.Decoder
import ControlPlane.Proofs.Except
import ControlPlane.Proofs.Json.Shape
import ControlPlane.Proofs.Text.Utf8

/-!
# Laws of codecs

What a codec reads it can write so that it is read again. `Codec.Laws` carries the proof, together
with what the values that are read have in common (`Fits`) and what becomes of one that is written
and read again (`settle`): nothing, but for floating-point numbers, of which it is only known that
they stay finite.
-/

namespace ControlPlane

/-- The laws of a codec. Below `need` levels its defaults find no room. -/
structure Codec.Laws {α : Type} (c : Codec α) where
  need : Nat
  Fits : Nat → α → Prop
  settle : α → α
  fits_of_read : ∀ {room : Nat} {t : Tree} {a : α}, need ≤ room → t.Fits →
    c.read room t = .ok a → Fits room a
  read_write : ∀ {room : Nat} {a : α}, Fits room a →
    c.read room (Tree.ofJson (c.write a)) = .ok (settle a)
  fits_mono : ∀ {room more : Nat} {a : α}, room ≤ more → Fits room a → Fits more a

namespace Codec

/-! ## Simple values -/

/-- Text. -/
def Laws.string : Laws Codec.string where
  need := 0
  Fits _ _ := True
  settle s := s
  fits_of_read _ _ _ := trivial
  read_write _ := rfl
  fits_mono _ h := h

/-- True or false. -/
def Laws.bool : Laws Codec.bool where
  need := 0
  Fits _ _ := True
  settle b := b
  fits_of_read _ _ _ := trivial
  read_write _ := rfl
  fits_mono _ h := h

theorem ofJson_integer {i : Int} (h : Number.Fits (.integer i)) :
    Tree.ofJson (.number (.integer i)) = .number (some (.integer i)) := by
  obtain ⟨m, hm, -, he⟩ := Number.ofParts?_parts h
  rw [Tree.ofJson, hm, he i rfl]

theorem read_bounded {α : Type} {wanted : String} {least greatest : Int} {ofInt : Int → α}
    {toInt : α → Int} {a : α} (hw : -(2 ^ 63 : Int) ≤ least ∧ greatest < 2 ^ 64)
    (ha : least ≤ toInt a ∧ toInt a ≤ greatest) (he : ofInt (toInt a) = a) (room : Nat) :
    (bounded wanted least greatest ofInt toInt).read room
      (Tree.ofJson ((bounded wanted least greatest ofInt toInt).write a)) = .ok a := by
  have hf : Number.Fits (.integer (toInt a)) := ⟨hw.1.trans ha.1, ha.2.trans_lt hw.2⟩
  show (bounded wanted least greatest ofInt toInt).read room
    (Tree.ofJson (.number (.integer (toInt a)))) = .ok a
  rw [ofJson_integer hf]
  show (if least ≤ toInt a ∧ toInt a ≤ greatest then Except.ok (ofInt (toInt a)) else _) = _
  rw [if_pos ha, he]

/-- Integers of which each one is in bounds and found again. -/
def Laws.bounded {α : Type} {wanted : String} {least greatest : Int} {ofInt : Int → α}
    {toInt : α → Int} (hw : -(2 ^ 63 : Int) ≤ least ∧ greatest < 2 ^ 64)
    (ha : ∀ a, least ≤ toInt a ∧ toInt a ≤ greatest) (he : ∀ a, ofInt (toInt a) = a) :
    Laws (Codec.bounded wanted least greatest ofInt toInt) where
  need := 0
  Fits _ _ := True
  settle a := a
  fits_of_read _ _ _ := trivial
  read_write {room a} _ := read_bounded hw (ha a) (he a) room
  fits_mono _ h := h

/-- Natural numbers of 16 bits. -/
def Laws.u16 : Laws Codec.u16 :=
  .bounded (by decide)
    (fun a => by have := a.toNat_lt; omega)
    (fun a => by rw [Int.toNat_natCast, UInt16.ofNat_toNat])

/-- Natural numbers of 32 bits. -/
def Laws.u32 : Laws Codec.u32 :=
  .bounded (by decide)
    (fun a => by have := a.toNat_lt; omega)
    (fun a => by rw [Int.toNat_natCast, UInt32.ofNat_toNat])

/-- Natural numbers of 64 bits. -/
def Laws.u64 : Laws Codec.u64 :=
  .bounded (by decide)
    (fun a => by have := a.toNat_lt; omega)
    (fun a => by rw [Int.toNat_natCast, UInt64.ofNat_toNat])

/-- Integers of 32 bits. -/
def Laws.i32 : Laws Codec.i32 :=
  .bounded (by decide)
    (fun a => by have := a.le_toInt; have := a.toInt_lt; omega)
    (fun a => Int32.ofInt_toInt a)

end Codec

namespace Number

/-- What is read where a number was written. -/
def reread (n : Number) : Number :=
  (ofParts? n.parts).getD n

theorem ofParts?_eq_reread {n : Number} (h : n.Fits) :
    ofParts? n.parts = some n.reread ∧ n.reread.Fits := by
  obtain ⟨m, hm, hf, -⟩ := ofParts?_parts h
  have hr : n.reread = m := by rw [reread, hm, Option.getD_some]
  exact ⟨by rw [hr, hm], by rw [hr]; exact hf⟩

end Number

namespace Codec

/-- The floating-point number that a number is taken for. -/
def asDouble : Number → Double
  | .integer i => .ofInt i
  | .real x => x

theorem read_double (room : Nat) (n : Number) :
    Codec.double.read room (.number (some n)) = .ok (asDouble n) := by
  cases n <;> rfl

/-- Finite floating-point numbers. -/
def Laws.double : Laws Codec.double where
  need := 0
  Fits _ x := x.Finite
  settle x := asDouble (Number.reread (.real x))
  fits_of_read {room t x} _ ht h := by
    match t, ht, h with
    | .number (some (.real y)), ht, h =>
      obtain rfl : y = x := Except.ok.inj h
      exact ht _ rfl
    | .number (some (.integer i)), _, h =>
      obtain rfl : Double.ofInt i = x := Except.ok.inj h
      exact Double.finite_ofInt i
  read_write {room x} h := by
    obtain ⟨hr, -⟩ := Number.ofParts?_eq_reread (n := .real x) h
    show Codec.double.read room (.number (Number.ofParts? (Number.parts (.real x)))) = _
    rw [hr, read_double]
  fits_mono _ h := h

/-! ## Lists -/

theorem within_eq_ok {α : Type} {s : Step} {x : Except Fault α} {a : α} :
    s.within x = .ok a ↔ x = .ok a := by
  cases x <;> simp [Step.within]

theorem fits_of_readItems {α : Type} {read : Decoder α} {P : α → Prop} {room : Nat}
    (hp : ∀ {t a}, t.Fits → read room t = .ok a → P a) {whole : Bool} {i : Nat}
    {items : List Tree} (ht : Tree.FitsItems items) {as : List α}
    (h : readItems read room whole i items = .ok as) : ∀ a ∈ as, P a := by
  induction items generalizing i as with
  | nil =>
    unfold readItems at h
    split at h
    · obtain rfl := Except.ok.inj h
      simp
    · simp at h
  | cons t items ih =>
    rw [readItems, Except.bind_eq_ok] at h
    obtain ⟨a, ha, h⟩ := h
    obtain ⟨bs, hb, h⟩ := Except.bind_eq_ok.1 h
    rw [Except.pure_eq_ok] at h
    subst h
    exact List.forall_mem_cons.2 ⟨hp ht.1 (within_eq_ok.1 ha), ih ht.2 hb⟩

theorem readItems_write {α : Type} {c : Codec α} {settle : α → α} {room i : Nat} {as : List α}
    (h : ∀ a ∈ as, c.read room (Tree.ofJson (c.write a)) = .ok (settle a)) :
    readItems c.read room true i (Tree.ofItems (as.map c.write)) = .ok (as.map settle) := by
  induction as generalizing i with
  | nil => rfl
  | cons a as ih =>
    rw [List.map_cons, Tree.ofItems, readItems, h a List.mem_cons_self]
    have ih := ih (i := i + 1) fun b hb => h b (List.mem_cons_of_mem _ hb)
    rw [Except.bind_eq_ok]
    refine ⟨settle a, rfl, ?_⟩
    rw [ih]
    rfl

theorem list_read {α : Type} (c : Codec α) {room : Nat} (hr : 1 ≤ room) (items : List Tree)
    (whole : Bool) : (Codec.list c).read room (.sequence items whole) =
      readItems c.read (room - 1) whole 0 items :=
  if_neg (by omega)

/-- Lists. -/
def Laws.list {α : Type} {c : Codec α} (l : Laws c) : Laws (Codec.list c) where
  need := l.need + 1
  Fits room as := 1 ≤ room ∧ ∀ a ∈ as, l.Fits (room - 1) a
  settle := List.map l.settle
  fits_of_read {room t as} hr ht h := by
    match t, ht, h with
    | .sequence items whole, ht, h =>
      rw [list_read c (by omega)] at h
      exact ⟨by omega, fits_of_readItems (fun ht' ha => l.fits_of_read (by omega) ht' ha) ht h⟩
  read_write {room as} h := by
    obtain ⟨hr, h⟩ := h
    show (Codec.list c).read room (.sequence (Tree.ofItems (as.map c.write)) true) = _
    rw [list_read c hr]
    exact readItems_write fun a ha => l.read_write (h a ha)
  fits_mono hm h := ⟨h.1.trans hm, fun a ha => l.fits_mono (by omega) (h.2 a ha)⟩

theorem Laws.fits_nil {α : Type} {c : Codec α} (l : Laws c) {room : Nat} (hr : 1 ≤ room) :
    (Laws.list l).Fits room [] :=
  ⟨hr, fun _ ha => by cases ha⟩

/-! ## What is no null -/

theorem write_string_ne_null (s : String) : Codec.string.write s ≠ .null :=
  Json.noConfusion

theorem write_bounded_ne_null {α : Type} {wanted : String} {least greatest : Int}
    {ofInt : Int → α} {toInt : α → Int} (a : α) :
    (bounded wanted least greatest ofInt toInt).write a ≠ .null :=
  Json.noConfusion

theorem write_list_ne_null {α : Type} {c : Codec α} (as : List α) :
    (Codec.list c).write as ≠ .null :=
  Json.noConfusion

/-! ## Enumerations -/

/-- Values of which each one is found by its name. -/
def Laws.enumeration {α : Type} {names : List (String × α)} {nameOf : α → String}
    (h : ∀ a, named? names (nameOf a) = .ok a) : Laws (Codec.enumeration names nameOf) where
  need := 0
  Fits _ _ := True
  settle a := a
  fits_of_read _ _ _ := trivial
  read_write {_ a} _ := h a
  fits_mono _ h := h

/-! ## Arbitrary documents -/

mutual

/-- Whether a document is one that is read: nested at most so deep, the members of each map in the
order of their names, every number one that can be held. -/
def FitsJson : (room : Nat) → Json → Prop
  | _, .null | _, .bool _ | _, .string _ => True
  | _, .number n => n.Fits
  | 0, .array _ | 0, .object _ => False
  | room + 1, .array items => FitsJsonItems room items
  | room + 1, .object members =>
    FitsJsonMembers room members ∧ members.Pairwise fun a b => a.1 < b.1

/-- Whether documents are ones that are read. -/
def FitsJsonItems : (room : Nat) → List Json → Prop
  | _, [] => True
  | room, j :: rest => FitsJson room j ∧ FitsJsonItems room rest

/-- Whether members are ones that are read. -/
def FitsJsonMembers : (room : Nat) → List (String × Json) → Prop
  | _, [] => True
  | room, (_, j) :: rest => FitsJson room j ∧ FitsJsonMembers room rest

end

mutual

/-- A document after it was written and read. -/
def settleJson : Json → Json
  | .number n => .number n.reread
  | .array items => .array (settleJsonItems items)
  | .object members => .object (settleJsonMembers members)
  | j => j

/-- Documents after they were written and read. -/
def settleJsonItems : List Json → List Json
  | [] => []
  | j :: rest => settleJson j :: settleJsonItems rest

/-- Members after they were written and read. -/
def settleJsonMembers : List (String × Json) → List (String × Json)
  | [] => []
  | (name, j) :: rest => (name, settleJson j) :: settleJsonMembers rest

end

/-! ### What is read -/

theorem mem_insertMember {name : String} {j : Json} {ms : List (String × Json)}
    {m : String × Json} (h : m ∈ insertMember name j ms) : m = (name, j) ∨ m ∈ ms := by
  induction ms with
  | nil => simpa [insertMember] using h
  | cons k rest ih =>
    obtain ⟨other, k⟩ := k
    unfold insertMember at h
    split at h
    · simpa using h
    · split at h
      · simp only [List.mem_cons] at h ⊢
        exact h.imp_right .inr
      · simp only [List.mem_cons] at h ⊢
        rcases h with h | h
        · exact .inr (.inl h)
        · exact (ih h).imp_right .inr

theorem pairwise_insertMember (name : String) (j : Json) {ms : List (String × Json)}
    (h : ms.Pairwise fun a b => a.1 < b.1) :
    (insertMember name j ms).Pairwise fun a b => a.1 < b.1 := by
  induction ms with
  | nil => simp [insertMember]
  | cons k rest ih =>
    obtain ⟨other, k⟩ := k
    rw [List.pairwise_cons] at h
    unfold insertMember
    split
    · rename_i lt
      refine List.pairwise_cons.2 ⟨fun m hm => ?_, List.pairwise_cons.2 h⟩
      rcases List.mem_cons.1 hm with rfl | hm
      · exact lt
      · exact String.lt_trans lt (h.1 m hm)
    · split
      · rename_i eq
        exact List.pairwise_cons.2 ⟨fun m hm => eq ▸ h.1 m hm, h.2⟩
      · rename_i nlt neq
        refine List.pairwise_cons.2 ⟨fun m hm => ?_, ih h.2⟩
        rcases mem_insertMember hm with rfl | hm
        · refine Decidable.byContradiction fun c => neq ?_
          exact String.le_antisymm (String.not_lt.1 c) (String.not_lt.1 nlt)
        · exact h.1 m hm

theorem fitsJsonMembers_iff {room : Nat} {ms : List (String × Json)} :
    FitsJsonMembers room ms ↔ ∀ m ∈ ms, FitsJson room m.2 := by
  induction ms with
  | nil => simp [FitsJsonMembers]
  | cons m rest ih => simp [FitsJsonMembers, ih]

theorem fitsJsonMembers_insertMember {room : Nat} {name : String} {j : Json}
    {ms : List (String × Json)} (hj : FitsJson room j) (h : FitsJsonMembers room ms) :
    FitsJsonMembers room (insertMember name j ms) := by
  rw [fitsJsonMembers_iff] at h ⊢
  intro m hm
  rcases mem_insertMember hm with rfl | hm
  · exact hj
  · exact h m hm

mutual

theorem fits_readJson : ∀ {room : Nat} {t : Tree} {j : Json}, t.Fits →
    readJson room t = .ok j → FitsJson room j
  | _, .null, _, _, h => by
    obtain rfl := Except.ok.inj h
    trivial
  | _, .bool _, _, _, h => by
    obtain rfl := Except.ok.inj h
    trivial
  | _, .number (some n), _, ht, h => by
    obtain rfl := Except.ok.inj h
    exact ht n rfl
  | _, .string (some _), _, _, h => by
    obtain rfl := Except.ok.inj h
    trivial
  | room + 1, .sequence items true, _, ht, h => by
    rw [readJson, if_pos rfl, Except.bind_eq_ok] at h
    obtain ⟨js, hjs, h⟩ := h
    obtain rfl := Except.ok.inj h
    exact fits_readJsonItems ht hjs
  | room + 1, .map members true, _, ht, h => by
    rw [readJson, if_pos rfl, Except.bind_eq_ok] at h
    obtain ⟨ms, hms, h⟩ := h
    obtain rfl := Except.ok.inj h
    exact fits_readJsonMembers ht hms trivial .nil
  | 0, .sequence _ _, _, _, h | 0, .map _ _, _, _, h | _ + 1, .sequence _ false, _, _, h
  | _ + 1, .map _ false, _, _, h => by
    simp [readJson] at h
  | room, .number none, _, _, h | room, .string none, _, _, h | room, .nameless _, _, _, h
  | room, .fault, _, _, h => by
    cases room <;> simp [readJson] at h

theorem fits_readJsonItems : ∀ {room : Nat} {items : List Tree} {js : List Json},
    Tree.FitsItems items → readJsonItems room items = .ok js → FitsJsonItems room js
  | _, [], _, _, h => by
    obtain rfl := Except.ok.inj h
    trivial
  | room, t :: rest, _, ht, h => by
    rw [readJsonItems, Except.bind_eq_ok] at h
    obtain ⟨j, hj, h⟩ := h
    obtain ⟨js, hjs, h⟩ := Except.bind_eq_ok.1 h
    obtain rfl := Except.ok.inj h
    exact ⟨fits_readJson ht.1 hj, fits_readJsonItems ht.2 hjs⟩

theorem fits_readJsonMembers : ∀ {room : Nat} {members : List (Spelled × Tree)}
    {read ms : List (String × Json)}, Tree.FitsMembers members →
    readJsonMembers room members read = .ok ms → FitsJsonMembers room read →
    read.Pairwise (fun a b => a.1 < b.1) →
    FitsJsonMembers room ms ∧ ms.Pairwise fun a b => a.1 < b.1
  | _, [], _, _, _, h, hr, hs => by
    obtain rfl := Except.ok.inj h
    exact ⟨hr, hs⟩
  | room, (some name, t) :: rest, read, _, ht, h, hr, hs => by
    rw [readJsonMembers, Except.bind_eq_ok] at h
    obtain ⟨j, hj, h⟩ := h
    exact fits_readJsonMembers ht.2 h (fitsJsonMembers_insertMember (fits_readJson ht.1 hj) hr)
      (pairwise_insertMember name j hs)
  | _, (none, _) :: _, _, _, _, h, _, _ => by simp [readJsonMembers] at h

end

/-! ### What is written -/

theorem insertMember_of_forall_lt {name : String} {j : Json} {ms : List (String × Json)}
    (h : ∀ m ∈ ms, m.1 < name) : insertMember name j ms = ms ++ [(name, j)] := by
  induction ms with
  | nil => rfl
  | cons m rest ih =>
    obtain ⟨other, k⟩ := m
    have hlt : other < name := h (other, k) List.mem_cons_self
    have hne : name ≠ other := fun he => String.lt_irrefl other (he ▸ hlt)
    rw [insertMember, if_neg (String.lt_asymm hlt), if_neg hne,
      ih fun m hm => h m (List.mem_cons_of_mem _ hm), List.cons_append]

mutual

theorem readJson_ofJson : ∀ {room : Nat} {j : Json}, FitsJson room j →
    readJson room (Tree.ofJson j) = .ok (settleJson j)
  | _, .null, _ | _, .bool _, _ | _, .string _, _ => by simp [Tree.ofJson, readJson, settleJson]
  | _, .number n, h => by
    have hn : n.Fits := by simpa [FitsJson] using h
    rw [Tree.ofJson, (Number.ofParts?_eq_reread hn).1]
    simp [readJson, settleJson]
  | room + 1, .array items, h => by
    rw [Tree.ofJson, readJson, if_pos rfl, readJsonItems_ofItems h]
    rfl
  | room + 1, .object members, h => by
    rw [Tree.ofJson, readJson, if_pos rfl,
      readJsonMembers_ofMembers [] h.1 (by simpa using h.2)]
    rfl
  | 0, .array _, h | 0, .object _, h => by simp [FitsJson] at h

theorem readJsonItems_ofItems : ∀ {room : Nat} {js : List Json}, FitsJsonItems room js →
    readJsonItems room (Tree.ofItems js) = .ok (settleJsonItems js)
  | _, [], _ => rfl
  | room, j :: rest, h => by
    rw [Tree.ofItems, readJsonItems, readJson_ofJson h.1, readJsonItems_ofItems h.2]
    rfl

theorem readJsonMembers_ofMembers : ∀ {room : Nat} {ms : List (String × Json)}
    (read : List (String × Json)), FitsJsonMembers room ms →
    (read ++ ms).Pairwise (fun a b => a.1 < b.1) →
    readJsonMembers room (Tree.ofMembers ms) read = .ok (read ++ settleJsonMembers ms)
  | _, [], read, _, _ => by simp [Tree.ofMembers, readJsonMembers, settleJsonMembers]
  | room, (name, j) :: rest, read, h, hs => by
    have hlt : ∀ m ∈ read, m.1 < name := fun m hm =>
      (List.pairwise_append.1 hs).2.2 m hm (name, j) List.mem_cons_self
    have hs' : ((read ++ [(name, settleJson j)]) ++ rest).Pairwise fun a b => a.1 < b.1 := by
      rw [← List.pairwise_map (f := Prod.fst) (R := (· < ·))] at hs ⊢
      simpa using hs
    rw [Tree.ofMembers, readJsonMembers, readJson_ofJson h.1]
    show readJsonMembers room (Tree.ofMembers rest) (insertMember name (settleJson j) read) = _
    rw [insertMember_of_forall_lt hlt, readJsonMembers_ofMembers _ h.2 hs', List.append_assoc,
      settleJsonMembers, List.singleton_append]

end

mutual

theorem fitsJson_mono : ∀ {room more : Nat} {j : Json}, room ≤ more → FitsJson room j →
    FitsJson more j
  | _, _, .null, _, _ | _, _, .bool _, _, _ | _, _, .string _, _, _ => by simp [FitsJson]
  | _, _, .number n, _, h => by simpa [FitsJson] using h
  | 0, _, .array _, _, h | 0, _, .object _, _, h => by simp [FitsJson] at h
  | _ + 1, _ + 1, .array _, hm, h => fitsJsonItems_mono (Nat.le_of_succ_le_succ hm) h
  | _ + 1, _ + 1, .object _, hm, h =>
    ⟨fitsJsonMembers_mono (Nat.le_of_succ_le_succ hm) h.1, h.2⟩

theorem fitsJsonItems_mono : ∀ {room more : Nat} {js : List Json}, room ≤ more →
    FitsJsonItems room js → FitsJsonItems more js
  | _, _, [], _, _ => trivial
  | _, _, _ :: _, hm, h => ⟨fitsJson_mono hm h.1, fitsJsonItems_mono hm h.2⟩

theorem fitsJsonMembers_mono : ∀ {room more : Nat} {ms : List (String × Json)}, room ≤ more →
    FitsJsonMembers room ms → FitsJsonMembers more ms
  | _, _, [], _, _ => trivial
  | _, _, _ :: _, hm, h => ⟨fitsJson_mono hm h.1, fitsJsonMembers_mono hm h.2⟩

end

/-- Arbitrary documents. -/
def Laws.json : Laws Codec.json where
  need := 0
  Fits := FitsJson
  settle := settleJson
  fits_of_read _ ht h := fits_readJson ht h
  read_write h := readJson_ofJson h
  fits_mono hm h := fitsJson_mono hm h

/-! ## Texts -/

/-- What is read of a text fits. -/
theorem Laws.fits_of_readText {α : Type} {c : Codec α} (l : Laws c)
    (hn : l.need ≤ Tree.depthLimit) {text : Text} {a : α} (h : c.readText text = .ok a) :
    l.Fits Tree.depthLimit a := by
  unfold readText at h
  have ht := Tree.fits_ofText text
  generalize Tree.ofText text = v at h ht
  obtain ⟨t, rest⟩ := v
  obtain ⟨b, hb, h⟩ := Except.bind_eq_ok.1 h
  have hab : b = a := by
    split at h
    · split at h
      · exact Except.ok.inj h
      · simp at h
    · simp at h
  exact hab ▸ l.fits_of_read hn ht hb

/-- The text of a value is read again. -/
theorem Laws.readText_write {α : Type} {c : Codec α} (l : Laws c) {a : α}
    (h : l.Fits Tree.depthLimit a) :
    c.readText (Text.ofChars (c.write a).render) = .ok (l.settle a) := by
  have ht := Tree.ofText_render (c.write a) Number.ends_nil
  rw [List.append_nil] at ht
  unfold readText
  rw [ht]
  show (c.read Tree.depthLimit (Tree.ofJson (c.write a)) >>= _) = _
  rw [l.read_write h]
  rfl

/-- So are its bytes. -/
theorem Laws.ofBytes_toBytes {α : Type} {c : Codec α} (l : Laws c) {a : α}
    (h : l.Fits Tree.depthLimit a) : c.ofBytes (c.toBytes a) = .ok (l.settle a) := by
  unfold ofBytes toBytes Json.toBytes Text.ofBytes
  rw [Utf8.symbols_encode]
  exact l.readText_write h

end Codec

end ControlPlane
