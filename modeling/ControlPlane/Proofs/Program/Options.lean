import ControlPlane.Detector.Schedule
import ControlPlane.Program.Serve
import ControlPlane.Proofs.Program.CommandLine
import ControlPlane.Proofs.Text.Numeral
import Mathlib.Data.List.Nodup

/-!
# Options

What a program is told, said without the reader: the value of an option is the one on the command
line, else the one in the environment, else the default (`Chosen`, `Options.Follows`). A program
that is told anything at all is told an interval and a time limit that are not zero, so its detector
runs; and what the environment holds for an option on the command line is not looked at
(`Options.detector_runs`).
-/

namespace ControlPlane.Program

/-! ## Values -/

/-- Whether a text is a number in decimal digits, perhaps behind a plus sign. -/
def Spells (text : String) (n : Nat) : Prop :=
  ∃ ds : List Nat, ds ≠ [] ∧ (∀ d ∈ ds, d < 10) ∧ n = Numeral.ofDigits 10 ds ∧
    (text.toList = ds.map Numeral.digit ∨ text.toList = '+' :: ds.map Numeral.digit)

/-- Digits alone, without a sign. -/
theorem unsigned_eq_some {cs : List Char} {n : Nat} :
    (if cs.isEmpty then none else (cs.mapM Numeral.decimal?).map (Numeral.ofDigits 10)) = some n ↔
      ∃ ds : List Nat, ds ≠ [] ∧ (∀ d ∈ ds, d < 10) ∧ n = Numeral.ofDigits 10 ds ∧
        cs = ds.map Numeral.digit := by
  cases cs with
  | nil =>
    refine iff_of_false (by simp) ?_
    rintro ⟨ds, hne, -, -, hds⟩
    exact hne (List.map_eq_nil_iff.1 hds.symm)
  | cons c cs =>
    rw [List.isEmpty_cons, if_neg Bool.false_ne_true, Option.map_eq_some_iff]
    constructor
    · rintro ⟨ds, hds, rfl⟩
      obtain ⟨hcs, hlt⟩ := Numeral.mapM_decimal?_eq_some.1 hds
      refine ⟨ds, ?_, hlt, rfl, hcs⟩
      rintro rfl
      cases hcs
    · rintro ⟨ds, -, hlt, rfl, hcs⟩
      exact ⟨ds, Numeral.mapM_decimal?_eq_some.2 ⟨hcs, hlt⟩, rfl⟩

theorem digit_ne_plus : ∀ d < 10, Numeral.digit d ≠ '+' := by decide

theorem number?_eq_some {text : String} {n : Nat} : number? text = some n ↔ Spells text n := by
  unfold number? Spells
  dsimp only
  split
  · rename_i cs ht
    rw [unsigned_eq_some]
    refine exists_congr fun ds => and_congr_right fun hne => and_congr_right fun hlt =>
      and_congr_right fun _ => ?_
    have hsigned : text.toList ≠ ds.map Numeral.digit := by
      obtain ⟨d, ds, rfl⟩ := List.exists_cons_of_ne_nil hne
      rw [ht]
      intro h
      exact digit_ne_plus d (hlt d List.mem_cons_self) (List.cons.inj h).1.symm
    rw [ht] at hsigned ⊢
    simp [hsigned]
  · rename_i hsign
    rw [unsigned_eq_some]
    refine exists_congr fun ds => and_congr_right fun _ => and_congr_right fun _ =>
      and_congr_right fun _ => ?_
    exact ⟨.inl, fun h => h.resolve_right (hsign _)⟩

/-- Whether a number is the one that an option comes to: the one that its value spells, within the
bounds of the option, or the default if there is no value. -/
def NumberFrom (least default : Nat) (value? : Option String) (n : Nat) : Prop :=
  match value? with
  | some text => Spells text n ∧ least ≤ n ∧ n ≤ greatest
  | none => n = default

/-- Whether a truth value is the one that an option comes to. -/
def TruthFrom (default : Bool) (value? : Option String) (b : Bool) : Prop :=
  match value? with
  | some text => text = if b then "true" else "false"
  | none => b = default

/-- Whether options are those that the values lead to, with the defaults for what has none. -/
structure Options.Follows (value? : OptionName → Option String) (o : Options) : Prop where
  listenAddress : o.listenAddress = (value? .listenAddress).getD "0.0.0.0:50051"
  dataFolder : o.dataFolder = (value? .dataFolder).getD "./data/control-plane-store"
  interval : NumberFrom 1 10 (value? .interval) o.interval
  timeout : NumberFrom 1 5 (value? .timeout) o.timeout
  grace : NumberFrom 0 40 (value? .grace) o.grace
  statusRefreshesHeartbeat :
    TruthFrom true (value? .statusRefreshesHeartbeat) o.statusRefreshesHeartbeat
  endpoint : o.endpoint = value? .endpoint
  token : o.token = value? .token

/-- Where the value of an option comes from: the command line, else the environment. -/
inductive Chosen (given : List (OptionName × String)) (environment : String → Option String)
    (name : OptionName) : Option String → Prop
  | onCommandLine {value : String} : (name, value) ∈ given →
      Chosen given environment name (some value)
  | inEnvironment {word value : String} : (∀ value, (name, value) ∉ given) →
      name.environmentName = some word → environment word = some value →
      Chosen given environment name (some value)
  | nowhere : (∀ value, (name, value) ∉ given) →
      (∀ word, name.environmentName = some word → environment word = none) →
      Chosen given environment name none

variable {arguments : List String} {environment environment' : String → Option String}
  {given settled : List (OptionName × String)} {name : OptionName} {value? : Option String}

theorem Chosen.eq_of_mem {value : String} (h : Chosen given environment name value?)
    (hn : (given.map Prod.fst).Nodup) (hv : (name, value) ∈ given) : value? = some value := by
  cases h with
  | onCommandLine hv' => rw [(Prod.mk.inj (List.inj_on_of_nodup_map hn hv' hv rfl)).2]
  | inEnvironment hnone => exact absurd hv (hnone value)
  | nowhere hnone => exact absurd hv (hnone value)

theorem chosen_iff (h : ∀ value, settled.lookup name = some value ↔ (name, value) ∈ given) :
    Chosen given environment name value? ↔ given? settled environment name = value? := by
  unfold given?
  cases hl : settled.lookup name with
  | some value =>
    have hv := (h value).1 hl
    constructor
    · rintro (hv' | ⟨hn, -, -⟩ | ⟨hn, -⟩)
      · exact hl.symm.trans ((h _).2 hv')
      · exact absurd hv (hn value)
      · exact absurd hv (hn value)
    · rintro rfl
      exact .onCommandLine hv
  | none =>
    have hn : ∀ value, (name, value) ∉ given := by
      intro value hv
      rw [(h value).2 hv] at hl
      cases hl
    show _ ↔ name.environmentName.bind environment = value?
    constructor
    · rintro (hv | ⟨-, hname, henv⟩ | ⟨-, henv⟩)
      · exact absurd hv (hn _)
      · rw [hname]
        exact henv
      · exact Option.bind_eq_none_iff.2 henv
    · intro hb
      cases value? with
      | some value =>
        obtain ⟨word, hname, henv⟩ := Option.bind_eq_some_iff.1 hb
        exact .inEnvironment hn hname henv
      | none => exact .nowhere hn (Option.bind_eq_none_iff.1 hb)

theorem readNumber_eq_ok {o : OptionName} {least n : Nat} {value : String} :
    readNumber o least value = .ok n ↔ Spells value n ∧ least ≤ n ∧ n ≤ greatest := by
  unfold readNumber
  cases hn : number? value with
  | none =>
    refine iff_of_false (fun h => by cases h) ?_
    rintro ⟨hs, -⟩
    rw [number?_eq_some.2 hs] at hn
    cases hn
  | some m =>
    have hm : Spells value n ↔ m = n := by
      rw [← number?_eq_some, hn, Option.some.injEq]
    rw [hm]
    by_cases hb : least ≤ m ∧ m ≤ greatest
    · simp only [if_pos hb, Except.ok.injEq]
      exact ⟨fun h => ⟨h, h ▸ hb⟩, And.left⟩
    · refine iff_of_false (fun h => ?_) ?_
      · simp only [if_neg hb, reduceCtorEq] at h
      · rintro ⟨rfl, h⟩
        exact hb h

theorem readTruth_eq_ok {o : OptionName} {value : String} {b : Bool} :
    readTruth o value = .ok b ↔ value = if b then "true" else "false" := by
  unfold readTruth
  split
  · cases b <;> simp
  · cases b <;> simp
  · rename_i ht hf
    cases b
    · simpa using hf
    · simpa using ht

/-- The number that an option comes to. -/
def numberOf (o : OptionName) (default : Nat) (value? : Option String) : Except Halt Nat :=
  match value? with
  | some value => readNumber o o.least value
  | none => .ok default

/-- The truth value that an option comes to. -/
def truthOf (o : OptionName) (default : Bool) (value? : Option String) : Except Halt Bool :=
  match value? with
  | some value => readTruth o value
  | none => .ok default

theorem numberOf_eq_ok {o : OptionName} {default n : Nat} :
    numberOf o default value? = .ok n ↔ NumberFrom o.least default value? n := by
  cases value? with
  | some value => exact readNumber_eq_ok
  | none =>
    show Except.ok default = _ ↔ _
    rw [Except.ok.injEq]
    exact eq_comm

theorem truthOf_eq_ok {o : OptionName} {default b : Bool} :
    truthOf o default value? = .ok b ↔ TruthFrom default value? b := by
  cases value? with
  | some value => exact readTruth_eq_ok
  | none =>
    show Except.ok default = _ ↔ _
    rw [Except.ok.injEq]
    exact eq_comm

/-- Once the command line is read, the options are those that its values, the environment and the
defaults lead to. -/
theorem read_of_readArguments {o : Options} (hs : readArguments arguments = .ok settled) :
    Options.read arguments environment = .ok o ↔ o.Follows (given? settled environment) := by
  have heq : Options.read arguments environment = do
      let refreshes ← truthOf .statusRefreshesHeartbeat true
        (given? settled environment .statusRefreshesHeartbeat)
      let interval ← numberOf .interval 10 (given? settled environment .interval)
      let timeout ← numberOf .timeout 5 (given? settled environment .timeout)
      let grace ← numberOf .grace 40 (given? settled environment .grace)
      return ⟨(given? settled environment .listenAddress).getD "0.0.0.0:50051",
        (given? settled environment .dataFolder).getD "./data/control-plane-store",
        interval, timeout, grace, refreshes,
        given? settled environment .endpoint, given? settled environment .token⟩ := by
    rw [Options.read, hs]
    show (match given? settled environment .statusRefreshesHeartbeat with
      | some _ => _
      | none => _) = _
    cases given? settled environment .statusRefreshesHeartbeat <;> rfl
  rw [heq]
  constructor
  · intro h
    obtain ⟨b, hb, h⟩ := Except.bind_eq_ok.1 h
    obtain ⟨interval, hi, h⟩ := Except.bind_eq_ok.1 h
    obtain ⟨timeout, ht, h⟩ := Except.bind_eq_ok.1 h
    obtain ⟨grace, hg, h⟩ := Except.bind_eq_ok.1 h
    obtain rfl := Except.pure_eq_ok.1 h
    exact ⟨rfl, rfl, numberOf_eq_ok.1 hi, numberOf_eq_ok.1 ht, numberOf_eq_ok.1 hg,
      truthOf_eq_ok.1 hb, rfl, rfl⟩
  · rintro ⟨hl, hd, hi, ht, hg, hb, he, hk⟩
    have hi := (numberOf_eq_ok (o := .interval)).2 hi
    have ht := (numberOf_eq_ok (o := .timeout)).2 ht
    have hg := (numberOf_eq_ok (o := .grace)).2 hg
    have hb := (truthOf_eq_ok (o := .statusRefreshesHeartbeat)).2 hb
    rw [hb, hi, ht, hg, ← hl, ← hd, ← he, ← hk]
    rfl

/-- What options come to, they may have. -/
theorem Options.Follows.check {o : Options} {value? : OptionName → Option String} {value : String}
    (h : o.Follows value?) (hv : value? name = some value) : name.check value = .ok () := by
  have number : ∀ {default n : Nat}, NumberFrom name.least default (value? name) n →
      (readNumber name name.least value).map (fun _ => ()) = .ok () := by
    intro default n hn
    rw [hv] at hn
    rw [readNumber_eq_ok.2 hn]
    rfl
  cases name with
  | listenAddress | dataFolder | endpoint | token => rfl
  | interval => exact number h.interval
  | timeout => exact number h.timeout
  | grace => exact number h.grace
  | statusRefreshesHeartbeat =>
    have hb := h.statusRefreshesHeartbeat
    rw [hv] at hb
    show (readTruth _ value).map (fun _ => ()) = _
    rw [readTruth_eq_ok.2 hb]
    rfl

/-- A program is told options if the command line gives every option at most once and the values
that are chosen lead to the options. -/
theorem Options.read_eq_ok {o : Options} : Options.read arguments environment = .ok o ↔
    ∃ given, Gives arguments given ∧ (given.map Prod.fst).Nodup ∧
      ∃ value? : OptionName → Option String, (∀ name, Chosen given environment name (value? name)) ∧
        o.Follows value? := by
  constructor
  · intro h
    obtain ⟨settled, hr, -⟩ := Except.bind_eq_ok.1 h
    obtain ⟨given, hg, hs⟩ := readArguments_eq_ok.1 hr
    have hl := Progress.lookup_of_settles hs
    refine ⟨given, hg, (Progress.exists_settles.1 ⟨_, hs⟩).1, given? settled environment, ?_,
      (read_of_readArguments hr).1 h⟩
    exact fun name => (chosen_iff fun value => by simpa using hl name value).2 rfl
  · rintro ⟨given, hg, hn, value?, hc, hf⟩
    have hchecks : ∀ d ∈ given, d.1.check d.2 = .ok () := by
      intro d hd
      exact hf.check ((hc d.1).eq_of_mem hn hd)
    have hsettles : ∃ settled, Progress.Settles [] given settled :=
      Progress.exists_settles.2 ⟨hn, fun _ _ => rfl, hchecks⟩
    obtain ⟨settled, hs⟩ := hsettles
    have hl := Progress.lookup_of_settles hs
    have hvalue : given? settled environment = value? :=
      funext fun name => (chosen_iff fun value => by simpa using hl name value).1 (hc name)
    rw [read_of_readArguments (readArguments_eq_ok.2 ⟨given, hg, hs⟩), hvalue]
    exact hf

/-! ## What a told program does -/

/-- A number that comes from a default within the bounds is within them. -/
theorem NumberFrom.bounds {least default n : Nat} (h : NumberFrom least default value? n)
    (hd : least ≤ default ∧ default ≤ greatest) : least ≤ n ∧ n ≤ greatest := by
  cases value? with
  | some text => exact h.2
  | none => exact (show n = default from h) ▸ hd

/-- The environment counts only for the options that the command line does not give. -/
theorem Chosen.congr (h : Chosen given environment name value?)
    (henv : ∀ word, name.environmentName = some word → (∀ value, (name, value) ∉ given) →
      environment' word = environment word) : Chosen given environment' name value? := by
  cases h with
  | onCommandLine hv => exact .onCommandLine hv
  | inEnvironment hn hword he => exact .inEnvironment hn hword ((henv _ hword hn).trans he)
  | nowhere hn he => exact .nowhere hn fun word hword => (henv word hword hn).trans (he word hword)

/-- A program that is told options at all has an interval and a time limit between one and the
greatest number, so that its detector does not end for want of an interval. The command line can be
read in one way only, in whatever order and form it gives the options, and gives none of them twice;
each option has the value on the command line, else the one in the environment, else the default;
and whatever the environment holds for an option that the command line gives makes no
difference. -/
theorem Options.detector_runs {o : Options} (h : Options.read arguments environment = .ok o) :
    (1 ≤ o.interval ∧ o.interval ≤ 2 ^ 64 - 1) ∧ (1 ≤ o.timeout ∧ o.timeout ≤ 2 ^ 64 - 1) ∧
      (∀ (σ : Type) (ask : Detector.Prober (Detector.Timeline σ)) (finish : Nat)
        (scene : Detector.Scene (Detector.Timeline σ)),
        (Detector.run ask (nanoseconds o.grace) (o.interval * 1000) finish scene).1 ≠
          .error .zeroInterval) ∧
      ∃ given, Gives arguments given ∧ (∀ given', Gives arguments given' → given' = given) ∧
        (given.map Prod.fst).Nodup ∧
        (∃ value? : OptionName → Option String,
          (∀ name, Chosen given environment name (value? name)) ∧ o.Follows value?) ∧
        ∀ environment' : String → Option String,
          (∀ (name : OptionName) (word : String), name.environmentName = some word →
            (∀ value, (name, value) ∉ given) → environment' word = environment word) →
          Options.read arguments environment' = .ok o := by
  obtain ⟨given, hg, hn, value?, hc, hf⟩ := Options.read_eq_ok.1 h
  have hinterval := hf.interval.bounds ⟨by decide, by decide⟩
  have htimeout := hf.timeout.bounds ⟨by decide, by decide⟩
  refine ⟨hinterval, htimeout, ?_, given, hg, fun given' hg' => hg'.unique hg, hn,
    ⟨value?, hc, hf⟩, ?_⟩
  · intro σ ask finish scene
    have hne : o.interval * 1000 ≠ 0 := by omega
    rw [Detector.run, if_neg hne]
    split <;> exact fun herror => by cases herror
  · intro environment' henv
    exact Options.read_eq_ok.2 ⟨given, hg, hn, value?, fun name => (hc name).congr (henv name), hf⟩

/-- An environment whose interval would be refused. -/
def zeroEnvironment : String → Option String :=
  fun word => if word = "HEARTBEAT_INTERVAL_SECONDS" then some "0" else none

/-- Where the command line gives an interval, the one of the environment is not looked at. -/
theorem Options.detector_runs_despite_environment :
    Options.read [] zeroEnvironment = .error (.notNumber .interval "0") ∧
      ∃ o, Options.read ["--probe-timeout-secs=7", "--heartbeat-interval-secs", "+30"]
          zeroEnvironment = .ok o ∧
        o.interval = 30 ∧ 1 ≤ o.interval ∧ o.interval ≤ 2 ^ 64 - 1 := by
  have h : Options.read ["--probe-timeout-secs=7", "--heartbeat-interval-secs", "+30"]
      zeroEnvironment =
      .ok ⟨"0.0.0.0:50051", "./data/control-plane-store", 30, 7, 40, true, none, none⟩ := rfl
  exact ⟨rfl, _, h, rfl, (Options.detector_runs h).1⟩

end ControlPlane.Program
