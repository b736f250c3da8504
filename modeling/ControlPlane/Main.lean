import ControlPlane.Api.Identifier
import ControlPlane.Http.Wire
import ControlPlane.Program.Serve
import Std.Time.DateTime

/-!
# The command line

Reads the options, starts the program, answers the requests that stand on standard input one after
the other, and stops. The trace goes to standard error, so that standard output holds the responses
alone.
-/

namespace ControlPlane.Program

/-- The time of the clock. -/
def clock : IO Instant := do
  let now ← Std.Time.Timestamp.now
  let epoch : Instant := ⟨Date.daysBeforeYear 1970 * Instant.daySeconds, 0⟩
  return epoch.moved now.toNanosecondsSinceUnixEpoch.val

/-- The variables of the environment that matter. -/
def readEnvironment : IO (String → Option String) := do
  let mut found : List (String × String) := []
  for name in "RUST_LOG" :: OptionName.all.filterMap OptionName.environmentName do
    if let some value ← IO.getEnv name then
      found := (name, value) :: found
  return fun name => found.lookup name

/-- The bytes of an array. -/
def toBytes (a : ByteArray) : Bytes :=
  a.data.toList

/-- The disk as far as the log at a path goes. -/
def readDisk (folder path : String) : IO Disk := do
  let disk : Disk := {}
  let disk := (disk.makeFolders folder).toOption.getD disk
  try
    let content ← IO.FS.readBinFile path
    return (disk.save path (toBytes content)).toOption.getD disk
  catch _ => return disk

/-- Writes the log at a path back if it has changed. -/
def writeBack (path : String) (before after : Disk) : IO Unit := do
  let content (d : Disk) : Bytes := (d.load path).toOption.getD []
  if content before ≠ content after then
    IO.FS.writeBinFile path ⟨(content after).toArray⟩

/-- Prints the lines of a trace. -/
def tell (filter : Trace.Filter) (lines : List Trace.Line) : IO Unit := do
  let now ← clock
  for l in Trace.shown filter lines do
    IO.eprintln (l.render now)

/-- Reads the lines up to an empty one. -/
partial def readHead (input : IO.FS.Stream) (lines : List String) : IO (List String) := do
  let line ← input.getLine
  if line.trimAscii.isEmpty then return lines.reverse
  readHead input (line :: lines)

/-- Reads a number of bytes, or as many as there are. -/
partial def readBody (input : IO.FS.Stream) (length : Nat) (found : ByteArray) : IO ByteArray := do
  if length ≤ found.size then return found
  let more ← input.read (USize.ofNat (length - found.size))
  if more.isEmpty then return found
  readBody input length (found ++ more)

/-- Answers the requests on standard input. -/
partial def answerAll (policy : StatusPolicy) (path : String) (input output : IO.FS.Stream)
    (s : Api.Service) : IO Api.Service := do
  match Http.Head.ofLines? (← readHead input []) with
  | none => return s
  | some head =>
    let body ← readBody input head.bodyLength .empty
    let fresh := Api.randomId (toBytes (← IO.getRandomBytes 16))
    let requestId := Api.randomId (toBytes (← IO.getRandomBytes 16))
    let settings : Api.Settings := ⟨policy, fun _ => fresh⟩
    let (response, next) :=
      s.respond settings (← clock) requestId (head.request (toBytes body))
    writeBack path s.backing.disk next.backing.disk
    if let some r := response then
      output.write ⟨r.wire.toArray⟩
      output.flush
    answerAll policy path input output next

/-- Runs the program with its options. -/
def run (o : Options) (filter : Trace.Filter) : IO UInt32 := do
  let path := Durable.inFolder o.dataFolder Durable.logName
  IO.FS.createDirAll o.dataFolder
  let disk ← readDisk o.dataFolder path
  match start o (← clock) disk with
  | .failed telling after => do
    writeBack path disk after
    tell filter telling.lines
    for c in telling.complaints do
      IO.eprintln c.text
    return 1
  | .serving telling path b => do
    writeBack path disk b.disk
    tell filter telling.lines
    for c in telling.complaints do
      IO.eprintln c.text
    let policy := if o.statusRefreshesHeartbeat then .refreshHeartbeat else .leaveHeartbeat
    let s ← answerAll policy path (← IO.getStdin) (← IO.getStdout) ⟨b, 0⟩
    tell filter (stop .endOfInput path s.backing).1
    return 0

end ControlPlane.Program

open ControlPlane.Program in
/-- The program. -/
def main (arguments : List String) : IO UInt32 := do
  let environment ← readEnvironment
  match Options.read arguments environment with
  | .ok o => run o (filterFor environment)
  | .error halt =>
    IO.eprintln halt.message
    return UInt32.ofNat halt.exitCode
