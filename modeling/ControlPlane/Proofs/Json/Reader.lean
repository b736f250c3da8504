import ControlPlane.Json.Reader
import ControlPlane.Proofs.Json.Printed

/-!
# From a text to its shape: what was written and what follows

`Tree.ofText_render` says that the text of a document is read as the shape of the document, and
`Tree.ofText_append` that what was read of a text does not depend on what is put behind it. The one
exception to the latter is a number at the very end of a text: more digits would belong to it.
-/

namespace ControlPlane

open Text

namespace Text

/-! ## White space -/

/-- Whether a symbol is white space. -/
def IsSpace (s : Symbol) : Prop :=
  s = .char ' ' ∨ s = .char '\t' ∨ s = .char '\n' ∨ s = .char '\r'

instance (s : Symbol) : Decidable (IsSpace s) :=
  inferInstanceAs (Decidable (_ ∨ _))

theorem skipSpace_of_not_isSpace {s : Symbol} (h : ¬IsSpace s) (text : Text) :
    skipSpace (s :: text) = s :: text := by
  unfold skipSpace
  split <;> rename_i he
  · exact absurd (.inl (List.cons.inj he).1) h
  · exact absurd (.inr (.inl (List.cons.inj he).1)) h
  · exact absurd (.inr (.inr (.inl (List.cons.inj he).1))) h
  · exact absurd (.inr (.inr (.inr (List.cons.inj he).1))) h
  · rfl

theorem skipSpace_append {text : Text} (h : skipSpace text ≠ []) (more : Text) :
    skipSpace (text ++ more) = skipSpace text ++ more := by
  fun_induction skipSpace text with
  | case1 text ih | case2 text ih | case3 text ih | case4 text ih => exact ih h
  | case5 text h₁ h₂ h₃ h₄ =>
    cases text with
    | nil => exact absurd rfl h
    | cons s text =>
      rw [List.cons_append, skipSpace_of_not_isSpace]
      rintro (rfl | rfl | rfl | rfl)
      · exact h₁ text rfl
      · exact h₂ text rfl
      · exact h₃ text rfl
      · exact h₄ text rfl

theorem skipSpace_append_of_cons {text rest : Text} {s : Symbol} (h : skipSpace text = s :: rest)
    (more : Text) : skipSpace (text ++ more) = s :: (rest ++ more) := by
  rw [skipSpace_append (by rw [h]; exact List.cons_ne_nil _ _), h, List.cons_append]

theorem ne_nil_of_skipSpace {text rest : Text} {s : Symbol} (h : skipSpace text = s :: rest) :
    text ≠ [] := by
  rintro rfl
  simp [skipSpace] at h

theorem skipSpace_skipSpace (text : Text) : skipSpace (skipSpace text) = skipSpace text := by
  fun_induction skipSpace text with
  | case1 text ih | case2 text ih | case3 text ih | case4 text ih => exact ih
  | case5 text h₁ h₂ h₃ h₄ =>
    unfold skipSpace
    split
    · exact absurd rfl (h₁ _)
    · exact absurd rfl (h₂ _)
    · exact absurd rfl (h₃ _)
    · exact absurd rfl (h₄ _)
    · rfl

/-- White space alone is passed over. -/
theorem skipSpace_append_of_nil {text : Text} (h : skipSpace text = []) (more : Text) :
    skipSpace (text ++ more) = skipSpace more := by
  fun_induction skipSpace text with
  | case1 text ih | case2 text ih | case3 text ih | case4 text ih => exact ih h
  | case5 text h₁ h₂ h₃ h₄ =>
    rw [h, List.nil_append]

end Text

namespace Tree

/-! ## The first symbol of a value -/

variable {fuel : Nat} {text rest : Text}

/-- A value is read from its first symbol on. -/
theorem ofTextFueled_skipSpace (h : skipSpace text = rest) :
    ofTextFueled (fuel + 1) text = ofTextFueled (fuel + 1) rest := by
  subst h
  rw [ofTextFueled, ofTextFueled, skipSpace_skipSpace]

theorem ofTextFueled_null (h : skipSpace text = .char 'n' :: rest) :
    ofTextFueled (fuel + 1) text = ofWord .null ['u', 'l', 'l'] rest := by
  rw [ofTextFueled_skipSpace h]
  rfl

theorem ofTextFueled_true (h : skipSpace text = .char 't' :: rest) :
    ofTextFueled (fuel + 1) text = ofWord (.bool true) ['r', 'u', 'e'] rest := by
  rw [ofTextFueled_skipSpace h]
  rfl

theorem ofTextFueled_false (h : skipSpace text = .char 'f' :: rest) :
    ofTextFueled (fuel + 1) text = ofWord (.bool false) ['a', 'l', 's', 'e'] rest := by
  rw [ofTextFueled_skipSpace h]
  rfl

theorem ofTextFueled_quote (h : skipSpace text = .char '"' :: rest) {s : Spelled} {more : Text}
    (hs : Spelling.read rest = some (s, more)) :
    ofTextFueled (fuel + 1) text = (.string s, some more) := by
  rw [ofTextFueled, h]
  simp only [hs]

theorem ofTextFueled_sequence (h : skipSpace text = .char '[' :: rest) :
    ofTextFueled (fuel + 1) text =
      match skipSpace rest with
      | .char ']' :: rest => (.sequence [] true, some rest)
      | rest => itemsOnto fuel [] rest := by
  rw [ofTextFueled_skipSpace h]
  rfl

theorem ofTextFueled_map (h : skipSpace text = .char '\x7b' :: rest) :
    ofTextFueled (fuel + 1) text =
      match skipSpace rest with
      | .char '\x7d' :: rest => (.map [] true, some rest)
      | .char '"' :: rest => membersOnto fuel [] rest
      | rest => (.nameless (ofTextFueled fuel rest).1, none) := by
  rw [ofTextFueled_skipSpace h]
  rfl

theorem ofTextFueled_minus (h : skipSpace text = .char '-' :: rest) :
    ofTextFueled (fuel + 1) text = ofNumber true rest := by
  rw [ofTextFueled_skipSpace h]
  rfl

theorem ofTextFueled_digit {c : Char} (hc : c.isDigit)
    (h : skipSpace text = .char c :: rest) :
    ofTextFueled (fuel + 1) text = ofNumber false (.char c :: rest) := by
  have hne : ∀ d : Char, d.isDigit = false → c ≠ d := by
    rintro d hd rfl
    rw [hd] at hc
    simp at hc
  rw [ofTextFueled, h]
  split <;> rename_i he
  all_goals try
    exact absurd (Symbol.char.inj (List.cons.inj he).1) (hne _ (by decide))
  · obtain ⟨hc', rfl⟩ := List.cons.inj he
    rw [← Symbol.char.inj hc', if_pos hc]
  · exact absurd rfl (he c rest)

/-! ## What was written -/

mutual

/-- The shape of a document. -/
def ofJson : Json → Tree
  | .null => .null
  | .bool b => .bool b
  | .number n => .number (Number.ofParts? n.parts)
  | .string s => .string (some s)
  | .array items => .sequence (ofItems items) true
  | .object members => .map (ofMembers members) true

/-- The shapes of some documents. -/
def ofItems : List Json → List Tree
  | [] => []
  | j :: rest => ofJson j :: ofItems rest

/-- The shapes of some members. -/
def ofMembers : List (String × Json) → List (Spelled × Tree)
  | [] => []
  | (name, j) :: rest => (some name, ofJson j) :: ofMembers rest

end

/-- The first character of a number is its sign or a digit. -/
theorem render_number (n : Number) :
    (n.parts.negative = true ∧ n.render = '-' :: n.parts.unsigned) ∨
      (n.parts.negative = false ∧ n.render = n.parts.unsigned ∧
        ∃ d < 10, ∃ cs, n.parts.unsigned = Numeral.digit d :: cs) := by
  have hn := n.render_eq
  obtain ⟨d, ds, hd⟩ := List.exists_cons_of_ne_nil n.proper_parts.whole_ne_nil
  cases hs : n.parts.negative with
  | true => exact .inl ⟨rfl, by rw [hn, hs]; rfl⟩
  | false =>
    refine .inr ⟨rfl, by rw [hn, hs]; rfl, d, ?_, ?_⟩
    · exact n.proper_parts.whole_lt d (by rw [hd]; exact List.mem_cons_self)
    · rw [Numeral.Parts.unsigned, hd]
      exact ⟨_, rfl⟩

theorem digit_spec : ∀ d < 10, (Numeral.digit d).isDigit = true ∧
    ¬IsSpace (.char (Numeral.digit d)) ∧ Numeral.digit d ≠ ']' := by decide

/-- A number is read behind its sign or from its first digit. -/
theorem ofTextFueled_number (n : Number) {rest : Text} (hr : Number.Ends rest) :
    ofTextFueled (fuel + 1) (ofChars n.render ++ rest) =
      (.number (Number.ofParts? n.parts), some rest) := by
  have hn : ofNumber n.parts.negative (ofChars n.parts.unsigned ++ rest) =
      (.number (Number.ofParts? n.parts), some rest) := by
    rw [ofNumber, Number.parts?_unsigned n.proper_parts hr]
  rcases render_number n with ⟨hs, he⟩ | ⟨hs, he, d, hd, cs, hcs⟩
  · rw [hs] at hn
    rw [he, ofChars_cons, List.cons_append, ofTextFueled_minus rfl, hn]
  · obtain ⟨hdig, hspace, -⟩ := digit_spec d hd
    rw [hs, hcs, ofChars_cons, List.cons_append] at hn
    rw [he, hcs, ofChars_cons, List.cons_append,
      ofTextFueled_digit hdig (skipSpace_of_not_isSpace hspace _), hn]

/-- What is written for a document begins with no space and with no closing bracket. -/
theorem render_eq_cons (j : Json) :
    ∃ c cs, j.render = c :: cs ∧ ¬IsSpace (.char c) ∧ c ≠ ']' := by
  match j with
  | .null => exact ⟨_, _, rfl, by decide, by decide⟩
  | .bool true => exact ⟨_, _, rfl, by decide, by decide⟩
  | .bool false => exact ⟨_, _, rfl, by decide, by decide⟩
  | .string s => exact ⟨'"', _, rfl, by decide, by decide⟩
  | .array items => exact ⟨'[', _, rfl, by decide, by decide⟩
  | .object members => exact ⟨'\x7b', _, rfl, by decide, by decide⟩
  | .number n =>
    rcases render_number n with ⟨-, he⟩ | ⟨-, he, d, hd, cs, hcs⟩
    · exact ⟨'-', _, he, by decide, by decide⟩
    · exact ⟨_, cs, he.trans hcs, (digit_spec d hd).2⟩

theorem word?_ofChars (cs : List Char) (rest : Text) :
    word? cs (ofChars cs ++ rest) = some rest := by
  induction cs with
  | nil => rfl
  | cons c cs ih =>
    rw [ofChars_cons, List.cons_append, word?, if_pos rfl, ih]

theorem ofWord_ofChars (t : Tree) (cs : List Char) (rest : Text) :
    ofWord t cs (ofChars cs ++ rest) = (t, some rest) := by
  rw [ofWord, word?_ofChars]

theorem ends_comma (rest : Text) : Number.Ends (.char ',' :: rest) :=
  Number.ends_cons (by decide)

theorem ends_bracket (rest : Text) : Number.Ends (.char ']' :: rest) :=
  Number.ends_cons (by decide)

theorem ends_brace (rest : Text) : Number.Ends (.char '\x7d' :: rest) :=
  Number.ends_cons (by decide)

theorem renderItems_cons_cons (j k : Json) (ks : List Json) :
    Json.renderItems (j :: k :: ks) = j.render ++ ',' :: Json.renderItems (k :: ks) := by
  rw [Json.renderItems]
  simp

theorem renderItems_eq_cons (j : Json) (js : List Json) :
    ∃ c cs, Json.renderItems (j :: js) = c :: cs ∧ ¬IsSpace (.char c) ∧ c ≠ ']' := by
  obtain ⟨c, cs, hc, h⟩ := render_eq_cons j
  cases js with
  | nil => exact ⟨c, cs, hc, h⟩
  | cons k ks => exact ⟨c, _, by rw [renderItems_cons_cons, hc]; rfl, h⟩

/-- What is written for members, behind the quote at its start. -/
theorem renderMembers_eq_cons (name : String) (j : Json) (ms : List (String × Json)) :
    Json.renderMembers ((name, j) :: ms) =
      '"' :: (name.toList.flatMap Spelling.writeChar ++ '"' :: ':' :: j.render ++
        match ms with
        | [] => []
        | _ :: _ => ',' :: Json.renderMembers ms) := by
  cases ms with
  | nil => simp [Json.renderMembers, Spelling.write]
  | cons m ms => simp [Json.renderMembers, Spelling.write]

mutual

/-- A document is read back as its shape. -/
theorem ofTextFueled_render (j : Json) {fuel : Nat} (hf : 2 * j.render.length ≤ fuel)
    {rest : Text} (hr : Number.Ends rest) :
    ofTextFueled fuel (ofChars j.render ++ rest) = (ofJson j, some rest) := by
  obtain ⟨fuel, rfl⟩ : ∃ f, fuel = f + 1 := by
    obtain ⟨c, cs, hc, -⟩ := render_eq_cons j
    rw [hc, List.length_cons] at hf
    exact ⟨fuel - 1, by omega⟩
  match j with
  | .null =>
    exact (ofTextFueled_null rfl).trans (ofWord_ofChars .null ['u', 'l', 'l'] rest)
  | .bool true =>
    exact (ofTextFueled_true rfl).trans (ofWord_ofChars (.bool true) ['r', 'u', 'e'] rest)
  | .bool false =>
    exact (ofTextFueled_false rfl).trans (ofWord_ofChars (.bool false) ['a', 'l', 's', 'e'] rest)
  | .number n => exact ofTextFueled_number n hr
  | .string s =>
    have hs := Spelling.read_write s rest
    rw [Json.render, Spelling.write, ofChars_append, List.append_assoc]
    exact ofTextFueled_quote rfl hs
  | .array [] =>
    show ofTextFueled (fuel + 1) (.char '[' :: .char ']' :: rest) = _
    rw [ofTextFueled_sequence rfl]
    rfl
  | .array (j :: js) =>
    have ih := itemsOnto_renderItems j js fuel
      (by
        simp only [Json.render, List.length_append, List.length_cons, List.length_nil] at hf
        omega)
      [] rest
    obtain ⟨c, cs, hc, hs, hb⟩ := renderItems_eq_cons j js
    rw [hc, ofChars_cons, List.cons_append] at ih
    rw [Json.render, hc, List.cons_append, List.cons_append, ofChars_cons, ofChars_cons,
      ofChars_append, List.cons_append, List.cons_append, List.append_assoc,
      ofTextFueled_sequence rfl, skipSpace_of_not_isSpace hs]
    split
    · rename_i he
      exact absurd (Symbol.char.inj (List.cons.inj he).1) hb
    · exact ih
  | .object [] =>
    show ofTextFueled (fuel + 1) (.char '\x7b' :: .char '\x7d' :: rest) = _
    rw [ofTextFueled_map rfl]
    rfl
  | .object ((name, j) :: ms) =>
    simp only [Json.render, List.length_append, List.length_cons, List.length_nil] at hf
    obtain ⟨text, ht⟩ : ∃ text, ofChars (Json.renderMembers ((name, j) :: ms)) ++
        .char '\x7d' :: rest = .char '"' :: text := by
      rw [renderMembers_eq_cons]
      exact ⟨_, rfl⟩
    have ih := membersOnto_renderMembers name j ms fuel (by omega) [] rest ht
    have he : ofChars (Json.render (.object ((name, j) :: ms))) ++ rest =
        .char '\x7b' :: .char '"' :: text := by
      rw [Json.render, List.cons_append, ofChars_cons, ofChars_append, List.cons_append,
        List.append_assoc, ← ht]
      rfl
    rw [he, ofTextFueled_map rfl]
    exact ih
termination_by fuel

/-- Items are read back as their shapes. -/
theorem itemsOnto_renderItems (j : Json) (js : List Json) (fuel : Nat)
    (hf : 2 * (Json.renderItems (j :: js)).length + 1 ≤ fuel) (read : List Tree) (rest : Text) :
    itemsOnto fuel read (ofChars (Json.renderItems (j :: js)) ++ .char ']' :: rest) =
      (.sequence (read.reverse ++ ofItems (j :: js)) true, some rest) := by
  obtain ⟨fuel, rfl⟩ : ∃ f, fuel = f + 1 := ⟨fuel - 1, by omega⟩
  match js with
  | [] =>
    rw [Json.renderItems] at hf ⊢
    rw [itemsOnto, ofTextFueled_render j (by omega) (ends_bracket rest)]
    simp [skipSpace_of_not_isSpace (s := .char ']') (by decide), ofItems]
  | k :: ks =>
    rw [renderItems_cons_cons, List.length_append, List.length_cons] at hf
    have ih := itemsOnto_renderItems k ks fuel (by omega) (ofJson j :: read) rest
    rw [renderItems_cons_cons, ofChars_append, ofChars_cons, List.append_assoc, List.cons_append,
      itemsOnto, ofTextFueled_render j (by omega) (ends_comma _)]
    simp [skipSpace_of_not_isSpace (s := .char ',') (by decide), ih, ofItems]
termination_by fuel

/-- Members are read back as their shapes, from behind the quote at their start. -/
theorem membersOnto_renderMembers (name : String) (j : Json) (ms : List (String × Json))
    (fuel : Nat) (hf : 2 * (Json.renderMembers ((name, j) :: ms)).length ≤ fuel)
    (read : List (Spelled × Tree)) (rest : Text) {text : Text}
    (ht : ofChars (Json.renderMembers ((name, j) :: ms)) ++ .char '\x7d' :: rest =
      .char '"' :: text) :
    membersOnto fuel read text =
      (.map (read.reverse ++ ofMembers ((name, j) :: ms)) true, some rest) := by
  rw [renderMembers_eq_cons] at hf ht
  rw [ofChars_cons, List.cons_append] at ht
  obtain rfl := (List.cons.inj ht).2
  simp only [List.length_cons, List.length_append] at hf
  obtain ⟨fuel, rfl⟩ : ∃ f, fuel = f + 1 := ⟨fuel - 1, by omega⟩
  simp only [ofChars_append, ofChars_cons, List.append_assoc, List.cons_append]
  rw [membersOnto, Spelling.read_write]
  dsimp only
  rw [skipSpace_of_not_isSpace (by decide)]
  match ms with
  | [] =>
    simp only [ofChars_nil, List.nil_append]
    rw [ofTextFueled_render j (by omega) (ends_brace rest)]
    simp [skipSpace_of_not_isSpace (s := .char '\x7d') (by decide), ofMembers]
  | (other, k) :: ms =>
    obtain ⟨text, ht⟩ : ∃ text, ofChars (Json.renderMembers ((other, k) :: ms)) ++
        .char '\x7d' :: rest = .char '"' :: text := by
      rw [renderMembers_eq_cons]
      exact ⟨_, rfl⟩
    simp only [List.length_cons] at hf
    have ih := membersOnto_renderMembers other k ms fuel (by omega)
      ((some name, ofJson j) :: read) rest ht
    simp only [ofChars_cons, List.cons_append, ht]
    rw [ofTextFueled_render j (by omega) (ends_comma _)]
    simp [skipSpace_of_not_isSpace (s := .char ',') (by decide),
      skipSpace_of_not_isSpace (s := .char '"') (by decide), ih, ofMembers]
termination_by fuel

end

/-- The text of a document is read as the shape of the document. -/
theorem ofText_render (j : Json) {rest : Text} (hr : Number.Ends rest) :
    ofText (ofChars j.render ++ rest) = (ofJson j, some rest) := by
  refine ofTextFueled_render j ?_ hr
  rw [List.length_append, length_ofChars]
  omega

/-! ## What follows -/

/-- Whether a shape is that of a number. -/
def IsNumber : Tree → Prop
  | .number _ => True
  | _ => False

theorem word?_append {cs : List Char} {text rest : Text} (h : word? cs text = some rest)
    (more : Text) : word? cs (text ++ more) = some (rest ++ more) := by
  induction cs generalizing text with
  | nil =>
    obtain rfl : text = rest := Option.some.inj h
    rfl
  | cons c cs ih =>
    match text, h with
    | .char d :: text, h =>
      rw [word?] at h
      rw [List.cons_append, word?]
      split at h
      · rename_i hc
        rw [if_pos hc]
        exact ih h
      · simp at h

theorem ofWord_append {t u : Tree} {cs : List Char} {text rest : Text}
    (h : ofWord t cs text = (u, some rest)) (more : Text) :
    ofWord t cs (text ++ more) = (u, some (rest ++ more)) := by
  unfold ofWord at h ⊢
  cases hw : word? cs text with
  | none =>
    rw [hw] at h
    simp at h
  | some r =>
    rw [hw] at h
    obtain ⟨rfl, hr⟩ := Prod.mk.inj h
    obtain rfl := Option.some.inj hr
    rw [word?_append hw]

theorem ofNumber_append {negative : Bool} {t : Tree} {text rest : Text}
    (h : ofNumber negative text = (t, some rest)) (ht : rest ≠ [] ∨ ¬t.IsNumber) (more : Text) :
    ofNumber negative (text ++ more) = (t, some (rest ++ more)) := by
  unfold ofNumber at h ⊢
  rcases hp : Number.parts? negative text with _ | ⟨p, r⟩
  · rw [hp] at h
    simp at h
  · rw [hp] at h
    obtain ⟨rfl, hr⟩ := Prod.mk.inj h
    obtain rfl := Option.some.inj hr
    have hne : r ≠ [] := ht.resolve_right fun hn => hn trivial
    rw [Number.parts?_append hp hne]

theorem itemsOnto_nil (fuel : Nat) (read : List Tree) : (itemsOnto fuel read []).2 = none := by
  match fuel with
  | 0 | 1 | fuel + 2 => rfl

mutual

/-- What is read of a text does not depend on what is put behind it, except for a number at its
very end. -/
theorem ofTextFueled_append {fuel : Nat} {text rest : Text} {t : Tree}
    (h : ofTextFueled fuel text = (t, some rest)) (ht : rest ≠ [] ∨ ¬t.IsNumber) (more : Text)
    {room : Nat} (hf : fuel ≤ room) :
    ofTextFueled room (text ++ more) = (t, some (rest ++ more)) := by
  obtain ⟨fuel, rfl⟩ : ∃ f, fuel = f + 1 := by
    cases fuel with
    | zero => simp [ofTextFueled] at h
    | succ fuel => exact ⟨fuel, rfl⟩
  obtain ⟨room, rfl⟩ : ∃ r, room = r + 1 := ⟨room - 1, by omega⟩
  rw [ofTextFueled] at h
  split at h
  · rename_i hs
    rw [ofTextFueled_null (skipSpace_append_of_cons hs more)]
    exact ofWord_append h more
  · rename_i hs
    rw [ofTextFueled_true (skipSpace_append_of_cons hs more)]
    exact ofWord_append h more
  · rename_i hs
    rw [ofTextFueled_false (skipSpace_append_of_cons hs more)]
    exact ofWord_append h more
  · rename_i hs
    split at h
    · rename_i hr
      obtain ⟨rfl, hrest⟩ := Prod.mk.inj h
      obtain rfl := Option.some.inj hrest
      exact ofTextFueled_quote (skipSpace_append_of_cons hs more) (Spelling.read_append hr more)
    · simp at h
  · rename_i r hs
    rw [ofTextFueled_sequence (skipSpace_append_of_cons hs more)]
    split at h
    · rename_i hr
      obtain ⟨rfl, hrest⟩ := Prod.mk.inj h
      obtain rfl := Option.some.inj hrest
      rw [skipSpace_append_of_cons hr more]
      rfl
    · rename_i hb
      obtain ⟨s, r', hs'⟩ : ∃ s r', skipSpace r = s :: r' := by
        refine List.exists_cons_of_ne_nil fun he => ?_
        rw [he] at h
        have hn := itemsOnto_nil fuel []
        rw [h] at hn
        exact absurd hn (Option.some_ne_none _)
      rw [hs'] at h
      rw [skipSpace_append_of_cons hs' more]
      split
      · rename_i he
        rw [(List.cons.inj he).1] at hs'
        exact absurd hs' (hb _)
      · exact itemsOnto_append h more (by omega)
  · rename_i r hs
    rw [ofTextFueled_map (skipSpace_append_of_cons hs more)]
    split at h
    · rename_i hr
      obtain ⟨rfl, hrest⟩ := Prod.mk.inj h
      obtain rfl := Option.some.inj hrest
      rw [skipSpace_append_of_cons hr more]
      rfl
    · rename_i hr
      rw [skipSpace_append_of_cons hr more]
      exact membersOnto_append h more (by omega)
    · simp at h
  · rename_i hs
    rw [ofTextFueled_minus (skipSpace_append_of_cons hs more)]
    exact ofNumber_append h ht more
  · rename_i c r _ _ _ _ _ _ _ hs
    split at h
    · rename_i hc
      rw [ofTextFueled_digit hc (skipSpace_append_of_cons hs more)]
      exact ofNumber_append h ht more
    · simp at h
  · simp at h
termination_by fuel

theorem itemsOnto_append {fuel : Nat} {read : List Tree} {text rest : Text} {t : Tree}
    (h : itemsOnto fuel read text = (t, some rest)) (more : Text) {room : Nat}
    (hf : fuel ≤ room) : itemsOnto room read (text ++ more) = (t, some (rest ++ more)) := by
  obtain ⟨fuel, rfl⟩ : ∃ f, fuel = f + 1 := by
    cases fuel with
    | zero => simp [itemsOnto] at h
    | succ fuel => exact ⟨fuel, rfl⟩
  obtain ⟨room, rfl⟩ : ∃ r, room = r + 1 := ⟨room - 1, by omega⟩
  rw [itemsOnto] at h ⊢
  rcases hv : ofTextFueled fuel text with ⟨u, _ | r⟩
  · rw [hv] at h
    simp at h
  · rw [hv] at h
    dsimp only at h
    split at h
    · rename_i hs
      rw [ofTextFueled_append hv (.inl (ne_nil_of_skipSpace hs)) more (by omega)]
      dsimp only
      rw [skipSpace_append_of_cons hs more]
      exact itemsOnto_append h more (by omega)
    · rename_i hs
      obtain ⟨rfl, hrest⟩ := Prod.mk.inj h
      obtain rfl := Option.some.inj hrest
      rw [ofTextFueled_append hv (.inl (ne_nil_of_skipSpace hs)) more (by omega)]
      dsimp only
      rw [skipSpace_append_of_cons hs more]
      rfl
    · simp at h
termination_by fuel

theorem membersOnto_append {fuel : Nat} {read : List (Spelled × Tree)} {text rest : Text}
    {t : Tree} (h : membersOnto fuel read text = (t, some rest)) (more : Text) {room : Nat}
    (hf : fuel ≤ room) : membersOnto room read (text ++ more) = (t, some (rest ++ more)) := by
  obtain ⟨fuel, rfl⟩ : ∃ f, fuel = f + 1 := by
    cases fuel with
    | zero => simp [membersOnto] at h
    | succ fuel => exact ⟨fuel, rfl⟩
  obtain ⟨room, rfl⟩ : ∃ r, room = r + 1 := ⟨room - 1, by omega⟩
  rw [membersOnto] at h ⊢
  rcases hr : Spelling.read text with _ | ⟨name, r⟩
  · rw [hr] at h
    simp at h
  rw [hr] at h
  rw [Spelling.read_append hr more]
  dsimp only at h ⊢
  split at h
  · rename_i r hs
    rw [skipSpace_append_of_cons hs more]
    show (match ofTextFueled room (r ++ more) with
      | (t, none) => _
      | (t, some rest) => _) = _
    rcases hv : ofTextFueled fuel r with ⟨u, _ | r'⟩
    · rw [hv] at h
      simp at h
    rw [hv] at h
    dsimp only at h
    split at h
    · rename_i hs'
      rw [ofTextFueled_append hv (.inl (ne_nil_of_skipSpace hs')) more (by omega)]
      dsimp only
      rw [skipSpace_append_of_cons hs' more]
      split at h
      · rename_i hq
        show (match skipSpace (_ ++ more) with
          | .char '"' :: rest => _
          | _ => _) = _
        rw [skipSpace_append_of_cons hq more]
        exact membersOnto_append h more (by omega)
      · simp at h
    · rename_i hs'
      obtain ⟨rfl, hrest⟩ := Prod.mk.inj h
      obtain rfl := Option.some.inj hrest
      rw [ofTextFueled_append hv (.inl (ne_nil_of_skipSpace hs')) more (by omega)]
      dsimp only
      rw [skipSpace_append_of_cons hs' more]
      rfl
    · simp at h
  · simp at h
termination_by fuel

end

/-- What is read of a text that goes on behind a value, or whose value is no number, does not depend
on what is put behind it. -/
theorem ofText_append {text rest : Text} {t : Tree} (h : ofText text = (t, some rest))
    (ht : rest ≠ [] ∨ ¬t.IsNumber) (more : Text) :
    ofText (text ++ more) = (t, some (rest ++ more)) := by
  refine ofTextFueled_append h ht more ?_
  rw [List.length_append]
  omega

end Tree

end ControlPlane
