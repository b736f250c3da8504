import ControlPlane.Api.Service
import ControlPlane.Detector.Pass
import ControlPlane.Detector.Telling
import ControlPlane.Http.Uri
import ControlPlane.Probe.Exchange
import ControlPlane.Program.ListenAddress
import ControlPlane.Program.Options

/-!
# Serving

A run of the program. At its start the trace is set up, the store is opened and the detector makes
its first pass (`start`); then requests are taken; a signal ends the run, and the store is closed
(`stop`). What the run tells on its way is collected in order.
-/

namespace ControlPlane.Program

open Trace (Line Filter)

/-! ## The trace -/

/-- The filter of a program that is told none. -/
def defaultFilter : Filter :=
  [⟨none, 2⟩, ⟨some "edgernetes_control", 3⟩, ⟨some "edgernetes_meta", 3⟩,
    ⟨some "edgernetes_common", 3⟩]

/-- The filter that the environment asks for. One that is not understood counts as none. -/
def filterFor (environment : String → Option String) : Filter :=
  match environment "RUST_LOG" with
  | some text => (Filter.parse? text).getD defaultFilter
  | none => defaultFilter

/-- The name of the program. -/
def serviceName : String := "edgernetes-control"

/-- The line of the program itself. -/
def line (message : String) (fields : List (String × String)) : Line :=
  ⟨.info, "edgernetes_control", message, fields⟩

/-- The line for the start of an export of the trace. -/
def exportLine (endpoint : String) : Line :=
  ⟨.info, "edgernetes_common::telemetry", "OTLP tracing enabled",
    [("endpoint", Text.quoted endpoint), ("service_name", Text.quoted serviceName),
      ("service_version", Text.quoted version)]⟩

/-- A line of the store. -/
def storeLine (message : String) (fields : List (String × String)) : Line :=
  ⟨.debug, "edgernetes_meta::wal", message, fields⟩

/-! ## Ends -/

/-- Why a run ends before it serves. -/
inductive StartError where
  | store (e : StoreError)
  | listen (e : ListenError)
  deriving DecidableEq, Repr

/-- The text of an error at the end of a run, with what lies behind it. -/
def StartError.text (e : StartError) : String :=
  let (message, cause) : String × Option String := match e with
    | .store e => (e.message, e.cause?)
    | .listen e => (e.message, none)
  match cause with
  | some cause => "Error: " ++ message ++ "\n\nCaused by:\n    " ++ cause
  | none => "Error: " ++ message

/-- Something that is told beside the trace. -/
inductive Complaint where
  /-- The trace cannot be exported. -/
  | noExport (reason : String)
  /-- The program cannot serve. -/
  | failed (e : StartError)
  deriving DecidableEq, Repr

/-- The text of a complaint. -/
def Complaint.text : Complaint → String
  | .noExport reason =>
    "failed to create OTLP exporter: " ++ reason ++ ", falling back to stdout only"
  | .failed e => e.text

/-- What ends a program that serves. -/
inductive Signal where
  | terminate
  | interrupt
  /-- There is nothing more to read. -/
  | endOfInput
  deriving DecidableEq, Repr

/-- The name of a signal. -/
def Signal.name : Signal → String
  | .terminate => "SIGTERM"
  | .interrupt => "Ctrl+C"
  | .endOfInput => "end of input"

/-! ## The start -/

/-- What is told on the way: lines of the trace and complaints. -/
structure Telling where
  lines : List Line
  complaints : List Complaint

/-- Asks a node whose other side nobody answers for. -/
def askNobody (limit : Nat) : Detector.Prober Unit := fun n scene =>
  (some (Probe.exchange n limit .refuses).1, scene)

/-- A number of nanoseconds. -/
def nanoseconds (seconds : Nat) : Nat :=
  seconds * 1000000000

/-- The first pass of the detector, and what it tells. -/
def firstPass (o : Options) (now : Instant) (b : Backing) : List Line × Backing :=
  match Detector.pass (askNobody (o.timeout * 1000)) (nanoseconds o.grace) ⟨b, now, ()⟩ with
  | .ok outcome => (Detector.passLines (.ok outcome.events), outcome.scene.backing)
  | .error e => (Detector.passLines (.error e), b)

/-- What is told when the trace is to be exported. -/
def exportTelling (endpoint : Option String) : Telling :=
  match endpoint with
  | none => ⟨[], []⟩
  | some endpoint =>
    if Http.Uri.isValid endpoint then ⟨[exportLine endpoint], []⟩
    else ⟨[], [.noExport "invalid URI"]⟩

/-- What is told when a store is opened. -/
def openLines (s : Durable) : List Line :=
  [storeLine "wal replayed" [("path", s.path), ("keys", Numeral.text s.data.keys.length),
      ("bytes", Numeral.text s.committed)],
    line "store opened" [("path", s.path)]]

/-- How far a program comes at its start. -/
inductive Start where
  /-- It ends. -/
  | failed (telling : Telling) (disk : Disk)
  /-- It serves, with the log of its store at a path. -/
  | serving (telling : Telling) (path : String) (backing : Backing)

/-- Starts the program. -/
def start (o : Options) (now : Instant) (disk : Disk) : Start :=
  let t := exportTelling o.endpoint
  match Durable.openFolder disk o.dataFolder with
  | (.error e, disk) => .failed ⟨t.lines, t.complaints ++ [.failed (.store e)]⟩ disk
  | (.ok store, disk) =>
    let opened := t.lines ++ openLines store
    match listenAddress o.listenAddress with
    | .error e => .failed ⟨opened, t.complaints ++ [.failed (.listen e)]⟩ disk
    | .ok _ =>
      let (passed, b) := firstPass o now ⟨.durable store, disk⟩
      let lines := opened ++ [Detector.startLine o.interval o.grace] ++ passed ++
        [line "control plane listening" [("addr", o.listenAddress)]]
      .serving ⟨lines, t.complaints⟩ store.path b

/-! ## The end -/

/-- Ends a program that serves. -/
def stop (signal : Signal) (path : String) (b : Backing) : List Line × Disk :=
  let received := line ("received " ++ signal.name ++ ", shutting down") []
  match b.close with
  | (none, b) => ([received, storeLine "wal closed" [("path", path)]], b.disk)
  | (some e, b) =>
    ([received, ⟨.error, "edgernetes_control", "failed to close store", [("error", e.message)]⟩],
      b.disk)

/-! ## Whole runs -/

/-- What a run leaves behind. -/
structure Run where
  exitCode : Nat
  telling : Telling
  disk : Disk

/-- Runs the program until a signal ends it, without any request. -/
def serve (o : Options) (now : Instant) (signal : Signal) (disk : Disk) : Run :=
  match start o now disk with
  | .failed telling disk => ⟨1, telling, disk⟩
  | .serving telling path b =>
    let (lines, disk) := stop signal path b
    ⟨0, { telling with lines := telling.lines ++ lines }, disk⟩

end ControlPlane.Program
