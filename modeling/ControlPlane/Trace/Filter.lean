import ControlPlane.Text.Numeral

/-!
# Filters

Which lines of a trace are shown. A filter is a list of rules: from which level on the lines of some
targets are shown, or those of all other targets.
-/

namespace ControlPlane.Trace

/-- How much a line matters. -/
inductive Level where
  | error
  | warn
  | info
  | debug
  | trace
  deriving DecidableEq, Repr

namespace Level

/-- The name of a level. -/
def name : Level → String
  | .error => "ERROR"
  | .warn => "WARN"
  | .info => "INFO"
  | .debug => "DEBUG"
  | .trace => "TRACE"

/-- How many levels matter at least as much. -/
def rank : Level → Nat
  | .error => 1
  | .warn => 2
  | .info => 3
  | .debug => 4
  | .trace => 5

end Level

/-- How many of the levels are shown; the words for it are those of the levels, in any case. -/
def depth? (word : String) : Option Nat :=
  let words := [["OFF", "0"], ["ERROR", "1"], ["WARN", "2"], ["INFO", "3"], ["DEBUG", "4"],
    ["TRACE", "5"]]
  words.findIdx? fun ws => ws.contains (word.map Char.toUpper)

/-- A rule for the targets that begin with a text, or for all if there is none. -/
structure Rule where
  target : Option String
  depth : Nat
  deriving DecidableEq, Repr

namespace Rule

/-- The characters of a target. -/
def inTarget (c : Char) : Bool :=
  c.isAlphanum || c = '_' || c = ':' || c = '-' || 128 ≤ c.toNat

/-- The rule for a target. A word for a level in the place of a target stands for all targets. -/
def forTarget (target : List Char) (depth : Nat) : Rule :=
  let target := String.ofList target
  if (depth? target).isSome then ⟨none, depth⟩ else ⟨some target, depth⟩

/-- The rule that a text stands for: a target with a level, a target alone, which shows all its
levels, or a level alone. -/
def parse? (text : String) : Option Rule :=
  match depth? text with
  | some depth => some ⟨none, depth⟩
  | none =>
    let (target, rest) := text.toList.span inTarget
    if target.isEmpty then none
    else match rest with
      | [] | ['='] => some (forTarget target Level.trace.rank)
      | '=' :: level => (depth? (String.ofList level)).map (forTarget target)
      | _ => none

/-- Whether a rule is about a target. -/
def concerns (r : Rule) (target : String) : Bool :=
  match r.target with
  | none => true
  | some start => start.toList.isPrefixOf target.toList

/-- How much of a target a rule names. -/
def weight (r : Rule) : Nat :=
  match r.target with
  | none => 0
  | some start => start.toList.length + 1

end Rule

/-- A filter. -/
abbrev Filter := List Rule

namespace Filter

/-- The parts of a text between its commas, behind a part under way that is given from its end. -/
def parts (part : List Char) : List Char → List String
  | [] => [String.ofList part.reverse]
  | c :: rest =>
    if c = ',' then String.ofList part.reverse :: parts [] rest else parts (c :: part) rest

/-- The filter that a text stands for: rules between commas. -/
def parse? (text : String) : Option Filter :=
  ((parts [] text.toList).filter (· ≠ "")).mapM Rule.parse?

/-- The rule that decides about a target: the one that names most of it, and of such the last. -/
def ruleFor (f : Filter) (target : String) : Option Rule :=
  f.foldl (fun best r =>
    if !r.concerns target then best
    else match best with
      | none => some r
      | some b => if b.weight ≤ r.weight then some r else best) none

/-- Whether lines of a level are shown for a target. Where no rule decides, errors alone are. -/
def shows (f : Filter) (target : String) (level : Level) : Bool :=
  match f.ruleFor target with
  | some r => level.rank ≤ r.depth
  | none => level.rank ≤ Level.error.rank

end Filter

end ControlPlane.Trace
