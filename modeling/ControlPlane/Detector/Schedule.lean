import ControlPlane.Detector.Pass

/-!
# The schedule of the detector

The detector makes a pass right away and then one in every interval, as long as it is not ended.
Time is counted in milliseconds from its start. A pass that begins more than a little late moves all
that follow it.
-/

namespace ControlPlane.Detector

/-- What a timed probe keeps: the time, and the nodes asked so far with the time of each, latest
first. -/
structure Timeline (σ : Type) where
  now : Nat
  asked : List (Nat × String)
  inner : σ

/-- By how much a pass may be late without moving those after it. -/
def tolerance : Nat := 5

/-- When the pass is due that follows one due at `due` and begun at `start`. -/
def nextDue (interval due start : Nat) : Nat :=
  if due + tolerance < start then start + interval else due + interval

/-- Makes passes until the detector is ended at `finish`. A pass that cannot list the nodes is over
at once. -/
def passesUntil {σ : Type} (ask : Prober (Timeline σ)) (grace interval finish due : Nat)
    (scene : Scene (Timeline σ)) : Ending × Scene (Timeline σ) :=
  let start := max scene.probe.now due
  if _h : interval = 0 ∨ finish ≤ start then (.finished, scene)
  else
    let scene := { scene with probe := { scene.probe with now := start } }
    match pass ask grace scene with
    | .error _ => passesUntil ask grace interval finish (nextDue interval due start) scene
    | .ok o =>
      match o.ending with
      | .finished => passesUntil ask grace interval finish (nextDue interval due start) o.scene
      | ending => (ending, o.scene)
termination_by finish - due
decreasing_by all_goals (simp only [nextDue]; split <;> omega)

/-- Why the detector cannot run at all, or had to stop. -/
inductive RunError where
  /-- The interval between passes is zero. -/
  | zeroInterval
  /-- No later time was left to stamp a node with. -/
  | noLaterTime
  deriving DecidableEq, Repr

/-- The wording of an error. -/
def RunError.message : RunError → String
  | .zeroInterval => "`period` must be non-zero."
  | .noLaterTime => RegistryError.noLaterTime.message

/-- Runs the detector from time zero to its end. -/
def run {σ : Type} (ask : Prober (Timeline σ)) (grace interval finish : Nat)
    (scene : Scene (Timeline σ)) : Except RunError Unit × Scene (Timeline σ) :=
  if interval = 0 then (.error .zeroInterval, scene)
  else match passesUntil ask grace interval finish 0 scene with
    | (.noLaterTime, scene) => (.error .noLaterTime, scene)
    | (_, scene) => (.ok (), scene)

end ControlPlane.Detector
