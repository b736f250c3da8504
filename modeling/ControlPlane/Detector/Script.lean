import ControlPlane.Detector.Schedule

/-!
# Scripted nodes

Nodes that answer by a script, to try the detector out without a network: what each node does when
it is asked for the first time, for the second time and so on, and what happens to the clock and the
store in the meantime.
-/

namespace ControlPlane.Detector

/-- What happens when a node is asked. `delay` is in milliseconds and `advance`, by which the clock
is moved, in nanoseconds. -/
structure Cue where
  delay : Nat := 0
  advance : Int := 0
  changes : List Change := []
  closes : Bool := false
  response : Option HeartbeatResponse := none

/-- The cues of nodes by id. The last cue of a node is used again and again. -/
abbrev Script := List (String × List Cue)

/-- The cue for a node and the script after it. A node without cues does not answer. -/
def Script.next (node : String) : Script → Cue × Script
  | [] => ({}, [])
  | (id, cues) :: rest =>
    if id = node then
      match cues with
      | [] => ({}, (id, cues) :: rest)
      | [cue] => (cue, (id, cues) :: rest)
      | cue :: more => (cue, (id, more) :: rest)
    else
      let (cue, rest) := Script.next node rest
      (cue, (id, cues) :: rest)

/-- What a cue does to the clock and the store. The clock stands still while the answer is dealt
with. -/
def Cue.act {σ : Type} (cue : Cue) (scene : Scene σ) : Scene σ :=
  let b := cue.changes.foldl (fun b c => (Backing.commit b c).2) scene.backing
  let b := if cue.closes then b.close.2 else b
  { scene with backing := b, readings := scene.clock.moved cue.advance }

/-- The answer of a cue. -/
def Cue.answer (cue : Cue) (n : Node) : Except ProbeError HeartbeatResponse :=
  match cue.response with
  | some r => .ok r
  | none => .error (.noAddress n.id)

/-- Asks a node by script; no time passes. -/
def askScript : Prober Script := fun n scene =>
  let (cue, script) := Script.next n.id scene.probe
  (some (cue.answer n), cue.act { scene with probe := script })

/-- The clock at a time of a run that began at `origin`. -/
def clockAt (origin : Instant) (now : Nat) : Instant :=
  origin.moved (now * Instant.millisecond)

/-- Asks a node by script in a run that began at `origin` and is ended at `finish`. -/
def askTimed (origin : Instant) (finish : Nat) : Prober (Timeline Script) := fun n scene =>
  let time := scene.probe
  let (cue, script) := Script.next n.id time.inner
  let time := { time with asked := (time.now, n.id) :: time.asked, inner := script }
  let later := time.now + cue.delay
  if finish ≤ later then (none, { scene with readings := clockAt origin time.now, probe := time })
  else
    let scene :=
      { scene with readings := clockAt origin later, probe := { time with now := later } }
    (some (cue.answer n), cue.act scene)

/-- Runs the detector with scripted nodes for a number of milliseconds. Tells which nodes were
asked, with the time of each, and what the store and the clock are afterwards. -/
def runScript (script : Script) (grace interval finish : Nat) (b : Backing) (origin : Instant) :
    Except RunError (List (Nat × String)) × Backing × Instant :=
  let scene : Scene (Timeline Script) := ⟨b, origin, ⟨0, [], script⟩⟩
  let (result, scene) := run (askTimed origin finish) grace interval finish scene
  (result.map fun _ => scene.probe.asked.reverse, scene.backing, clockAt origin finish)

end ControlPlane.Detector
