import ControlPlane.Program.Options
import ControlPlane.Proofs.Except
import Mathlib.Data.List.TakeDrop
import Mathlib.Data.List.TakeWhile

/-!
# Command lines

What a command line gives, said without the reader: options with their values, each in one argument
or in two, in any order (`Gives`). The reader accepts a command line if it gives every option at
most once and with a value that the option may have, and then settles just these
(`readArguments_eq_ok`).
-/

namespace ControlPlane

/-! ## Words and what stands behind them -/

namespace Http

variable {sep : Char} {cs : List Char}

theorem cutAt_eq (cs : List Char) : cutAt sep (String.ofList cs) =
    (String.ofList (cs.takeWhile (· != sep)),
      (cs.dropWhile (· != sep)).tail?.map String.ofList) := by
  rw [cutAt, String.toList_ofList, List.span_eq_takeWhile_dropWhile]

theorem ne_of_notMem (h : sep ∉ cs) : ∀ c ∈ cs, (c != sep) = true := by
  intro c hc
  rw [bne_iff_ne]
  rintro rfl
  exact h hc

/-- A text without the separator is cut nowhere. -/
theorem cutAt_of_notMem (h : sep ∉ cs) :
    cutAt sep (String.ofList cs) = (String.ofList cs, none) := by
  rw [cutAt_eq, List.takeWhile_eq_self_iff.2 (ne_of_notMem h),
    List.dropWhile_eq_nil_iff.2 (ne_of_notMem h)]
  rfl

/-- A text is cut at the first separator. -/
theorem cutAt_append (h : sep ∉ cs) (rest : List Char) :
    cutAt sep (String.ofList (cs ++ sep :: rest)) =
      (String.ofList cs, some (String.ofList rest)) := by
  rw [cutAt_eq, List.takeWhile_append_of_pos (ne_of_notMem h),
    List.dropWhile_append_of_pos (ne_of_notMem h), List.takeWhile_cons_of_neg (by simp),
    List.dropWhile_cons_of_neg (by simp), List.append_nil]
  rfl

end Http

namespace Program

namespace OptionName

theorem ofWord?_word (o : OptionName) : ofWord? o.word = some o := by
  cases o <;> decide

theorem word_of_ofWord? {w : String} {o : OptionName} (h : ofWord? w = some o) : o.word = w := by
  simpa using List.find?_some h

theorem equals_notMem_word (o : OptionName) : '=' ∉ o.word.toList := by
  cases o <;> decide

theorem word_ne_nil (o : OptionName) : o.word.toList ≠ [] := by
  cases o <;> decide

end OptionName

/-! ## What a command line gives -/

/-- Whether an argument can be a value of its own: it is no hyphen with something behind it. -/
def IsValue (argument : String) : Prop :=
  ∀ c cs, argument.toList ≠ '-' :: c :: cs

/-- The argument that names an option. -/
def named (o : OptionName) : String :=
  "--" ++ o.word

/-- The argument that names an option and gives it a value. -/
def assigned (o : OptionName) (value : String) : String :=
  named o ++ "=" ++ value

/-- Whether a command line gives options values, in this order. Two hyphens may end it. -/
inductive Gives : List String → List (OptionName × String) → Prop
  | nothing : Gives [] []
  | ended : Gives ["--"] []
  | joined (o : OptionName) (value : String) {rest : List String}
      {given : List (OptionName × String)} : Gives rest given →
      Gives (assigned o value :: rest) ((o, value) :: given)
  | apart (o : OptionName) {value : String} {rest : List String}
      {given : List (OptionName × String)} : IsValue value → Gives rest given →
      Gives (named o :: value :: rest) ((o, value) :: given)

theorem toList_named (o : OptionName) : (named o).toList = '-' :: '-' :: o.word.toList :=
  String.toList_append

theorem toList_assigned (o : OptionName) (value : String) :
    (assigned o value).toList = '-' :: '-' :: (o.word.toList ++ '=' :: value.toList) := by
  rw [assigned, String.toList_append, String.toList_append, toList_named, List.append_assoc]
  rfl

/-! ## Arguments tell options apart -/

theorem eq_of_word_eq {o o' : OptionName} (h : o.word = o'.word) : o = o' := by
  have hw := o.ofWord?_word
  rw [h, o'.ofWord?_word] at hw
  exact (Option.some.inj hw).symm

theorem named_ne_ended (o : OptionName) : named o ≠ "--" := by
  rw [Ne, ← String.toList_inj, toList_named]
  exact fun h => o.word_ne_nil (List.cons.inj (List.cons.inj h).2).2

theorem assigned_ne_ended (o : OptionName) (value : String) : assigned o value ≠ "--" := by
  rw [Ne, ← String.toList_inj, toList_assigned]
  intro h
  have := congrArg List.length h
  simp at this

theorem named_inj {o o' : OptionName} (h : named o = named o') : o = o' := by
  rw [← String.toList_inj, toList_named, toList_named] at h
  exact eq_of_word_eq (String.toList_inj.1 (List.cons.inj (List.cons.inj h).2).2)

theorem named_ne_assigned (o o' : OptionName) (value : String) : named o ≠ assigned o' value := by
  rw [Ne, ← String.toList_inj, toList_named, toList_assigned]
  intro h
  refine o.equals_notMem_word ?_
  rw [(List.cons.inj (List.cons.inj h).2).2]
  simp

theorem assigned_inj {o o' : OptionName} {value value' : String}
    (h : assigned o value = assigned o' value') : o = o' ∧ value = value' := by
  rw [← String.toList_inj, toList_assigned, toList_assigned] at h
  have hcut := congrArg (fun cs => Http.cutAt '=' (String.ofList cs))
    (List.cons.inj (List.cons.inj h).2).2
  simp only [Http.cutAt_append (OptionName.equals_notMem_word _), String.ofList_toList,
    Prod.mk.injEq, Option.some.injEq] at hcut
  exact ⟨eq_of_word_eq hcut.1, hcut.2⟩

/-! ## Single arguments -/

namespace Progress

variable {p q q' : Progress} {argument : String}

theorem settle_of_none (h : p.pending = none) : p.settle = .ok p := by
  rw [settle, h]

/-- An option that has a value is settled if it was not settled before and may have the value. -/
theorem settle_of_value {o : OptionName} {value : String} (h : p.pending = some (o, some value)) :
    p.settle = .ok q ↔ p.settled.lookup o = none ∧ o.check value = .ok () ∧
      q = { p with settled := (o, value) :: p.settled, pending := none } := by
  rw [settle, h]
  dsimp only
  cases hl : p.settled.lookup o with
  | some v =>
    refine iff_of_false (fun hq => ?_) (fun hq => by cases hq.1)
    cases hq
  | none =>
    cases hc : o.check value with
    | error e =>
      refine iff_of_false (fun hq => ?_) (fun hq => by cases hq.2.1)
      cases hq
    | ok u =>
      refine ⟨fun hq => ⟨rfl, rfl, (Except.ok.inj hq).symm⟩, fun hq => ?_⟩
      rw [hq.2.2]
      rfl

theorem settle_of_waiting {o : OptionName} (h : p.pending = some (o, none)) :
    p.settle = .error (.missingValue o) := by
  rw [settle, h]

theorem closed_of_settle (h : p.settle = .ok q) : q.closed = p.closed := by
  rcases p with ⟨settled, _ | ⟨o, _ | value⟩, closed⟩
  · rw [← Except.ok.inj h]
  · cases h
  · rw [((settle_of_value rfl).1 h).2.2]

/-- Whether more options may follow does not matter to those that are settled. -/
theorem settle_closed (h : p.settle = .ok q) :
    ({ p with closed := true } : Progress).settle = .ok { q with closed := true } := by
  rcases p with ⟨settled, _ | ⟨o, _ | value⟩, closed⟩
  · rw [← Except.ok.inj h]
    exact settle_of_none rfl
  · cases h
  · obtain ⟨hl, hc, rfl⟩ := (settle_of_value rfl).1 h
    exact (settle_of_value rfl).2 ⟨hl, hc, rfl⟩

/-- What reading one argument comes to: it ends the options, names one, names one with a value, or
is the value of the one named before. -/
inductive Reads (p : Progress) : String → Progress → Prop
  | ended : Reads p "--" { p with closed := true }
  | named (o : OptionName) {q : Progress} : p.settle = .ok q →
      Reads p (named o) { q with pending := some (o, none) }
  | assigned (o : OptionName) (value : String) {q q' : Progress} : p.settle = .ok q →
      ({ q with pending := some (o, some value) } : Progress).settle = .ok q' →
      Reads p (assigned o value) q'
  | value {o : OptionName} {value : String} : p.pending = some (o, none) → IsValue value →
      Reads p value { p with pending := some (o, some value) }

/-- An argument of two hyphens and more is an option, perhaps with a value. -/
theorem step_option {rest : List Char} (h : p.closed = false)
    (ha : argument.toList = '-' :: '-' :: rest) (hr : rest ≠ []) :
    p.step argument = p.readOption argument (Http.cutAt '=' (String.ofList rest)).1
      (Http.cutAt '=' (String.ofList rest)).2 := by
  obtain ⟨c, cs, rfl⟩ := List.exists_cons_of_ne_nil hr
  rw [step, h, ha, if_neg Bool.false_ne_true]
  rfl

theorem readOption_of_word {o : OptionName} {value : Option String} (hq : p.settle = .ok q) :
    p.readOption argument o.word value =
      (if value.isSome then ({ q with pending := some (o, value) } : Progress).settle
        else .ok { q with pending := some (o, value) }) := by
  rw [readOption, o.ofWord?_word]
  dsimp only
  rw [hq]
  rfl

theorem step_ended (h : p.closed = false) : p.step "--" = .ok { p with closed := true } := by
  rw [step, h]
  rfl

theorem step_named (h : p.closed = false) (o : OptionName) (hq : p.settle = .ok q) :
    p.step (named o) = .ok { q with pending := some (o, none) } := by
  rw [step_option h (toList_named o) o.word_ne_nil, Http.cutAt_of_notMem o.equals_notMem_word,
    String.ofList_toList, readOption_of_word hq]
  rfl

theorem step_assigned (h : p.closed = false) (o : OptionName) (value : String)
    (hq : p.settle = .ok q) :
    p.step (assigned o value) = ({ q with pending := some (o, some value) } : Progress).settle := by
  rw [step_option h (toList_assigned o value) (by simp), Http.cutAt_append o.equals_notMem_word,
    String.ofList_toList, String.ofList_toList, readOption_of_word hq]
  rfl

theorem step_value {o : OptionName} (h : p.closed = false) (ho : p.pending = some (o, none))
    (hv : IsValue argument) :
    p.step argument = .ok { p with pending := some (o, some argument) } := by
  rw [step, h, if_neg Bool.false_ne_true]
  split
  case h_6 => rw [readValue, ho, h]
  all_goals exact absurd ‹argument.toList = _› (hv _ _)

theorem reads_of_readOption {rest : List Char} (ha : argument.toList = '-' :: '-' :: rest)
    (hs : p.readOption argument (Http.cutAt '=' (String.ofList rest)).1
      (Http.cutAt '=' (String.ofList rest)).2 = .ok q) : p.Reads argument q := by
  rw [readOption] at hs
  split at hs
  · rename_i o ho
    have ho := OptionName.word_of_ofWord? ho
    obtain ⟨q', hq', hs⟩ := Except.bind_eq_ok.1 hs
    by_cases hm : '=' ∈ rest
    · obtain ⟨word, value, rfl, hn⟩ := List.eq_append_cons_of_mem hm
      rw [Http.cutAt_append hn] at ho hs
      obtain rfl : argument = assigned o (String.ofList value) := by
        rw [← String.toList_inj, ha, toList_assigned, ho, String.toList_ofList,
          String.toList_ofList]
      exact .assigned o _ hq' hs
    · rw [Http.cutAt_of_notMem hm] at ho hs
      obtain rfl : argument = named o := by
        rw [← String.toList_inj, ha, toList_named, ho, String.toList_ofList]
      obtain rfl := Except.ok.inj hs
      exact .named o hq'
  · split at hs
    · split at hs
      · cases hs
      · obtain ⟨_, -, hs⟩ := Except.bind_eq_ok.1 hs
        cases hs
    · cases hs

/-- An argument that is read is one of those that `Reads` names. -/
theorem reads_of_step (h : p.closed = false) (hs : p.step argument = .ok q) :
    p.Reads argument q := by
  rw [step, h, if_neg Bool.false_ne_true] at hs
  split at hs
  case h_1 ha =>
    obtain rfl := Except.ok.inj hs
    obtain rfl : argument = "--" := String.toList_inj.1 ha
    exact .ended
  case h_2 rest _ ha =>
    exact reads_of_readOption ha hs
  case h_3 | h_4 =>
    obtain ⟨_, -, hs⟩ := Except.bind_eq_ok.1 hs
    cases hs
  case h_5 => cases hs
  case h_6 hv =>
    rw [readValue] at hs
    split at hs
    · rename_i o ho
      obtain rfl := Except.ok.inj hs
      exact .value ho hv
    · cases hs

/-- Once the options are ended nothing is read any more. -/
theorem eq_of_closed {arguments : List String} (h : p.closed = true)
    (hs : arguments.foldlM step p = .ok q) : arguments = [] ∧ q = p := by
  cases arguments with
  | nil => exact ⟨rfl, (Except.ok.inj hs).symm⟩
  | cons argument rest =>
    rw [List.foldlM_cons, step, h] at hs
    cases hs

/-! ## Whole command lines -/

/-- What settling options in their order comes to: none of them was settled before, and each may
have its value. -/
inductive Settles : List (OptionName × String) → List (OptionName × String) →
    List (OptionName × String) → Prop
  | nothing {settled : List (OptionName × String)} : Settles settled [] settled
  | option {o : OptionName} {value : String} {settled given after : List (OptionName × String)} :
      settled.lookup o = none → o.check value = .ok () →
      Settles ((o, value) :: settled) given after → Settles settled ((o, value) :: given) after

/-- What arguments give where an option may be pending: it has a value or waits for one. -/
inductive Continues : Option (OptionName × Option String) → List String →
    List (OptionName × String) → Prop
  | settled {rest : List String} {given : List (OptionName × String)} : Gives rest given →
      Continues none rest given
  | valued {o : OptionName} {value : String} {rest : List String}
      {given : List (OptionName × String)} : Gives rest given →
      Continues (some (o, some value)) rest ((o, value) :: given)
  | waiting {o : OptionName} {value : String} {rest : List String}
      {given : List (OptionName × String)} : IsValue value → Gives rest given →
      Continues (some (o, none)) (value :: rest) ((o, value) :: given)

variable {arguments : List String} {given after : List (OptionName × String)}

/-- Settling first and reading on then. -/
theorem continues_of_settle (hq : p.settle = .ok q) (hg : Gives arguments given)
    (hs : Settles q.settled given after) :
    ∃ given, Continues p.pending arguments given ∧ Settles p.settled given after := by
  cases hp : p.pending with
  | none =>
    obtain rfl := Except.ok.inj ((settle_of_none hp).symm.trans hq)
    exact ⟨given, .settled hg, hs⟩
  | some pending =>
    obtain ⟨o, _ | value⟩ := pending
    · rw [settle_of_waiting hp] at hq
      cases hq
    · obtain ⟨hl, hc, rfl⟩ := (settle_of_value hp).1 hq
      exact ⟨_, .valued hg, .option hl hc hs⟩

/-- What is read and settled is what the arguments give. -/
theorem continues_of_foldlM (h : p.closed = false) (hf : arguments.foldlM step p = .ok q)
    (hq : q.settle = .ok q') :
    ∃ given, Continues p.pending arguments given ∧ Settles p.settled given q'.settled := by
  induction arguments generalizing p with
  | nil =>
    obtain rfl := Except.ok.inj hf
    exact continues_of_settle hq .nothing .nothing
  | cons argument rest ih =>
    rw [List.foldlM_cons] at hf
    obtain ⟨p', hp', hf⟩ := Except.bind_eq_ok.1 hf
    cases reads_of_step h hp' with
    | ended =>
      obtain ⟨rfl, rfl⟩ := eq_of_closed rfl hf
      exact continues_of_settle (p := { p with closed := true }) hq .ended .nothing
    | named o hs =>
      obtain ⟨given, hc, hset⟩ := ih (by exact (closed_of_settle hs).trans h) hf
      cases hc with
      | waiting hv hg => exact continues_of_settle hs (.apart o hv hg) hset
    | assigned o value hs hs' =>
      obtain ⟨hl, hv, rfl⟩ := (settle_of_value rfl).1 hs'
      obtain ⟨given, ⟨hg⟩, hset⟩ := ih (by exact (closed_of_settle hs).trans h) hf
      exact continues_of_settle hs (.joined o value hg) (.option hl hv hset)
    | value ho hv =>
      obtain ⟨given, hc, hset⟩ := ih (by exact h) hf
      cases hc with
      | valued hg => exact ⟨_, ho ▸ .waiting hv hg, hset⟩

/-- What arguments give is read and settled. -/
theorem exists_foldlM (h : p.closed = false) (hp : p.settle = .ok q) (hg : Gives arguments given)
    (hs : Settles q.settled given after) :
    ∃ r r', arguments.foldlM step p = .ok r ∧ r.settle = .ok r' ∧ r'.settled = after := by
  induction hg generalizing p q with
  | nothing =>
    cases hs
    exact ⟨p, q, rfl, hp, rfl⟩
  | ended =>
    cases hs
    rw [List.foldlM_cons, step_ended h]
    exact ⟨_, _, rfl, settle_closed hp, rfl⟩
  | joined o value _ ih =>
    obtain _ | ⟨hl, hc, hs⟩ := hs
    have hstep := (step_assigned h o value hp).trans ((settle_of_value rfl).2 ⟨hl, hc, rfl⟩)
    rw [List.foldlM_cons, hstep]
    exact ih ((closed_of_settle hp).trans h) (settle_of_none rfl) hs
  | @apart o value _ _ hv _ ih =>
    obtain _ | ⟨hl, hc, hs⟩ := hs
    have hq := (closed_of_settle hp).trans h
    have hvalue := step_value (p := { q with pending := some (o, none) }) hq rfl hv
    rw [List.foldlM_cons, step_named h o hp]
    show ∃ r r', List.foldlM step _ _ = _ ∧ _
    rw [List.foldlM_cons, hvalue]
    exact ih (by exact hq) ((settle_of_value rfl).2 ⟨hl, hc, rfl⟩) hs

theorem lookup_of_settles {settled : List (OptionName × String)} (h : Settles settled given after)
    (o : OptionName) (value : String) :
    after.lookup o = some value ↔ (o, value) ∈ given ∨ settled.lookup o = some value := by
  induction h with
  | nothing => simp
  | @option o' value' settled given after hl _ _ ih =>
    rw [ih, List.lookup_cons, List.mem_cons, Prod.mk.injEq]
    by_cases ho : o = o'
    · subst ho
      simp [hl, eq_comm, or_comm]
    · simp [beq_false_of_ne ho, ho]

/-- Options are settled if they are all different and each may have its value. -/
theorem exists_settles {settled : List (OptionName × String)} :
    (∃ after, Settles settled given after) ↔ (given.map Prod.fst).Nodup ∧
      (∀ d ∈ given, settled.lookup d.1 = none) ∧ ∀ d ∈ given, d.1.check d.2 = .ok () := by
  induction given generalizing settled with
  | nil => exact ⟨fun _ => by simp, fun _ => ⟨settled, .nothing⟩⟩
  | cons d given ih =>
    obtain ⟨o, value⟩ := d
    have hnext : (∀ d ∈ given, ((o, value) :: settled).lookup d.1 = none) ↔
        o ∉ given.map Prod.fst ∧ ∀ d ∈ given, settled.lookup d.1 = none := by
      have hone : ∀ d : OptionName × String, ((o, value) :: settled).lookup d.1 = none ↔
          d.1 ≠ o ∧ settled.lookup d.1 = none := by
        intro d
        rw [List.lookup_cons]
        by_cases hd : d.1 = o
        · simp [hd]
        · simp [beq_false_of_ne hd, hd]
      simp only [hone, List.mem_map, not_exists, not_and, ← forall_and]
    rw [List.map_cons, List.nodup_cons, List.forall_mem_cons, List.forall_mem_cons]
    constructor
    · rintro ⟨after, h⟩
      obtain _ | ⟨hl, hc, hs⟩ := h
      obtain ⟨hn, hlater, hchecks⟩ := ih.1 ⟨after, hs⟩
      obtain ⟨ho, hlater⟩ := hnext.1 hlater
      exact ⟨⟨ho, hn⟩, ⟨hl, hlater⟩, hc, hchecks⟩
    · rintro ⟨⟨ho, hn⟩, ⟨hl, hlater⟩, hc, hchecks⟩
      obtain ⟨after, hs⟩ := ih.2 ⟨hn, hnext.2 ⟨ho, hlater⟩, hchecks⟩
      exact ⟨after, .option hl hc hs⟩

end Progress

/-- A command line gives one list of values only. -/
theorem Gives.unique {arguments : List String} {given given' : List (OptionName × String)}
    (h : Gives arguments given) (h' : Gives arguments given') : given = given' := by
  induction h generalizing given' with
  | nothing =>
    cases h'
    rfl
  | ended =>
    generalize ha : ["--"] = arguments at h'
    cases h' with
    | nothing => cases ha
    | ended => rfl
    | joined o value _ => exact absurd (List.cons.inj ha).1.symm (assigned_ne_ended o value)
    | apart o _ _ => exact absurd (List.cons.inj ha).1.symm (named_ne_ended o)
  | @joined o value rest _ _ ih =>
    generalize ha : assigned o value :: rest = arguments at h'
    cases h' with
    | nothing => cases ha
    | ended => exact absurd (List.cons.inj ha).1 (assigned_ne_ended o value)
    | joined o' value' h' =>
      obtain ⟨hfirst, rfl⟩ := List.cons.inj ha
      obtain ⟨rfl, rfl⟩ := assigned_inj hfirst
      rw [ih h']
    | apart o' _ _ => exact absurd (List.cons.inj ha).1.symm (named_ne_assigned o' o value)
  | @apart o value rest _ _ _ ih =>
    generalize ha : named o :: value :: rest = arguments at h'
    cases h' with
    | nothing => cases ha
    | ended => exact absurd (List.cons.inj ha).1 (named_ne_ended o)
    | joined o' value' _ => exact absurd (List.cons.inj ha).1 (named_ne_assigned o o' value')
    | apart o' _ h' =>
      obtain ⟨hfirst, hrest⟩ := List.cons.inj ha
      obtain ⟨rfl, rfl⟩ := List.cons.inj hrest
      obtain rfl := named_inj hfirst
      rw [ih h']

/-- A command line is accepted if it gives every option at most once and with a value that it may
have. -/
theorem readArguments_eq_ok {arguments : List String} {settled : List (OptionName × String)} :
    readArguments arguments = .ok settled ↔
      ∃ given, Gives arguments given ∧ Progress.Settles [] given settled := by
  rw [readArguments, Except.bind_eq_ok]
  constructor
  · rintro ⟨p, hp, h⟩
    obtain ⟨q, hq, h⟩ := Except.bind_eq_ok.1 h
    obtain rfl := Except.pure_eq_ok.1 h
    obtain ⟨given, hc, hs⟩ := Progress.continues_of_foldlM rfl hp hq
    obtain ⟨hg⟩ := hc
    exact ⟨given, hg, hs⟩
  · rintro ⟨given, hg, hs⟩
    have hnew : ({} : Progress).settle = .ok {} := Progress.settle_of_none rfl
    obtain ⟨p, q, hp, hq, rfl⟩ := Progress.exists_foldlM rfl hnew hg hs
    exact ⟨p, hp, Except.bind_eq_ok.2 ⟨q, hq, rfl⟩⟩

end Program

end ControlPlane
