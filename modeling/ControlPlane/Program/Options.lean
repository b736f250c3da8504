import ControlPlane.Http.Escape
import ControlPlane.Text.Quoted

/-!
# Options

What the program is told by its command line and its environment. The command line is read from left
to right. An option is settled when its value is known, and it is then checked; the first thing that
is wrong is told. What the command line leaves open comes from the environment, and what that leaves
open as well has a default.
-/

namespace ControlPlane.Program

/-- What the program is told. Times are in seconds. -/
structure Options where
  listenAddress : String
  dataFolder : String
  interval : Nat
  timeout : Nat
  grace : Nat
  statusRefreshesHeartbeat : Bool
  endpoint : Option String
  token : Option String
  deriving DecidableEq, Repr

/-! ## Single options -/

/-- The options by name. -/
inductive OptionName where
  | listenAddress
  | dataFolder
  | interval
  | timeout
  | grace
  | statusRefreshesHeartbeat
  | endpoint
  | token
  deriving DecidableEq, Repr

namespace OptionName

/-- All options. -/
def all : List OptionName :=
  [.listenAddress, .dataFolder, .interval, .timeout, .grace, .statusRefreshesHeartbeat, .endpoint,
    .token]

/-- How an option is written on the command line, behind two hyphens. -/
def word : OptionName → String
  | .listenAddress => "listen-addr"
  | .dataFolder => "data-dir"
  | .interval => "heartbeat-interval-secs"
  | .timeout => "probe-timeout-secs"
  | .grace => "offline-after-secs"
  | .statusRefreshesHeartbeat => "status-change-refreshes-heartbeat"
  | .endpoint => "otlp-endpoint"
  | .token => "otlp-token"

/-- The variable of the environment that stands for an option. -/
def environmentName : OptionName → Option String
  | .listenAddress => some "CONTROL_PLANE_ADDR"
  | .dataFolder => some "STORE_DATA_DIR"
  | .interval => some "HEARTBEAT_INTERVAL_SECONDS"
  | .endpoint => some "OTLP_ENDPOINT"
  | .token => some "OTLP_TOKEN"
  | .timeout | .grace | .statusRefreshesHeartbeat => none

/-- The option that a word names. -/
def ofWord? (w : String) : Option OptionName :=
  all.find? (·.word == w)

end OptionName

/-- The version of the program. -/
def version : String := "0.1.0"

/-- Why the program does not start with what it is told. -/
inductive Halt where
  /-- It was asked to explain itself. -/
  | help
  /-- It was asked for its version. -/
  | version
  | unknownArgument (argument : String)
  | missingValue (o : OptionName)
  /-- A word that takes no value was given one. -/
  | needlessValue (word : String)
  /-- The value is neither true nor false. -/
  | notTruth (o : OptionName) (value : String)
  /-- The value is no number or is too small or too large. -/
  | notNumber (o : OptionName) (value : String)
  /-- The option is given twice. -/
  | repeated (o : OptionName)
  deriving DecidableEq, Repr

/-- What is said when the program does not start. -/
def Halt.message : Halt → String
  | .help =>
    let option (o : OptionName) : String := "  --" ++ o.word ++ " <value>"
    let others := ["  -h, --help", "  -V, --version"]
    "\n".intercalate ("Options:" :: OptionName.all.map option ++ others)
  | .version => ControlPlane.Program.version
  | .unknownArgument argument => "unexpected argument " ++ Text.quoted argument
  | .missingValue o => "a value is required for --" ++ o.word
  | .needlessValue word => "no value is expected for --" ++ word
  | .notTruth o value | .notNumber o value =>
    "invalid value " ++ Text.quoted value ++ " for --" ++ o.word
  | .repeated o => "--" ++ o.word ++ " cannot be used multiple times"

/-- The exit code of a program that does not start. -/
def Halt.exitCode : Halt → Nat
  | .help | .version => 0
  | _ => 2

/-! ## Values -/

/-- The number that a text stands for: decimal digits, perhaps behind a plus sign. -/
def number? (text : String) : Option Nat :=
  let digits := match text.toList with
    | '+' :: cs => cs
    | cs => cs
  if digits.isEmpty then none
  else (digits.mapM Numeral.decimal?).map (Numeral.ofDigits 10)

/-- The greatest number of an option. -/
def greatest : Nat := 18446744073709551615

/-- Reads the value of an option that is a number between a least one and the greatest. -/
def readNumber (o : OptionName) (least : Nat) (value : String) : Except Halt Nat :=
  match number? value with
  | some n => if least ≤ n ∧ n ≤ greatest then .ok n else .error (.notNumber o value)
  | none => .error (.notNumber o value)

/-- Reads the value of an option that is true or false. -/
def readTruth (o : OptionName) (value : String) : Except Halt Bool :=
  match value with
  | "true" => .ok true
  | "false" => .ok false
  | _ => .error (.notTruth o value)

/-- The least number of an option that is one. -/
def OptionName.least : OptionName → Nat
  | .interval | .timeout => 1
  | _ => 0

/-- Whether an option may have a value. -/
def OptionName.check (o : OptionName) (value : String) : Except Halt Unit :=
  match o with
  | .interval | .timeout | .grace => (readNumber o o.least value).map fun _ => ()
  | .statusRefreshesHeartbeat => (readTruth o value).map fun _ => ()
  | .listenAddress | .dataFolder | .endpoint | .token => .ok ()

/-! ## The command line -/

/-- How far a command line is read: the options that are settled, the one that is not, with its
value if it has one, and whether no more options follow. -/
structure Progress where
  settled : List (OptionName × String) := []
  pending : Option (OptionName × Option String) := none
  closed : Bool := false

namespace Progress

/-- Settles the option that is not settled yet. -/
def settle (p : Progress) : Except Halt Progress :=
  match p.pending with
  | none => .ok p
  | some (o, none) => .error (.missingValue o)
  | some (o, some value) => do
    if (p.settled.lookup o).isSome then throw (.repeated o)
    o.check value
    return { p with settled := (o, value) :: p.settled, pending := none }

/-- Reads an option without its hyphens. -/
def readOption (p : Progress) (argument word : String) (value : Option String) :
    Except Halt Progress :=
  match OptionName.ofWord? word with
  | some o => do
    let p := { ← p.settle with pending := some (o, value) }
    if value.isSome then p.settle else return p
  | none =>
    if word = "help" ∨ word = "version" then
      if value.isSome then .error (.needlessValue word)
      else do
        let _ ← p.settle
        throw (if word = "help" then .help else .version)
    else .error (.unknownArgument argument)

/-- Reads an argument that is no option. -/
def readValue (p : Progress) (argument : String) : Except Halt Progress :=
  match p.pending with
  | some (o, none) => .ok { p with pending := some (o, some argument) }
  | _ => .error (.unknownArgument argument)

/-- Reads an argument. -/
def step (p : Progress) (argument : String) : Except Halt Progress :=
  if p.closed then .error (.unknownArgument argument)
  else match argument.toList with
    | ['-', '-'] => .ok { p with closed := true }
    | '-' :: '-' :: rest =>
      let (word, value) := Http.cutAt '=' (String.ofList rest)
      p.readOption argument word value
    | '-' :: 'h' :: _ => do
      let _ ← p.settle
      throw .help
    | '-' :: 'V' :: _ => do
      let _ ← p.settle
      throw .version
    | '-' :: _ :: _ => .error (.unknownArgument argument)
    | _ => p.readValue argument

end Progress

/-- The options that a command line settles. -/
def readArguments (arguments : List String) : Except Halt (List (OptionName × String)) := do
  let p ← arguments.foldlM Progress.step {}
  return (← p.settle).settled

/-! ## All options -/

/-- The value of an option, if the command line or the environment gives it. -/
def given? (settled : List (OptionName × String)) (environment : String → Option String)
    (o : OptionName) : Option String :=
  settled.lookup o <|> o.environmentName.bind environment

/-- What a program is told by its command line and its environment. -/
def Options.read (arguments : List String) (environment : String → Option String) :
    Except Halt Options := do
  let settled ← readArguments arguments
  let given? := given? settled environment
  let number (o : OptionName) (default : Nat) : Except Halt Nat :=
    match given? o with
    | some value => readNumber o o.least value
    | none => .ok default
  let refreshes ← match given? .statusRefreshesHeartbeat with
    | some value => readTruth .statusRefreshesHeartbeat value
    | none => .ok true
  return {
    listenAddress := (given? .listenAddress).getD "0.0.0.0:50051"
    dataFolder := (given? .dataFolder).getD "./data/control-plane-store"
    interval := ← number .interval 10
    timeout := ← number .timeout 5
    grace := ← number .grace 40
    statusRefreshesHeartbeat := refreshes
    endpoint := given? .endpoint
    token := given? .token }

end ControlPlane.Program
