import ControlPlane.Http.Escape

/-!
# Listening addresses

Where a program listens: a host and, behind the last colon, a port.
-/

namespace ControlPlane.Program

/-- Why a program cannot listen at an address. -/
inductive ListenError where
  /-- There is no port in the address. -/
  | noPort
  /-- The port is no number of 16 bits. -/
  | badPort
  deriving DecidableEq, Repr

/-- The wording of an error. -/
def ListenError.message : ListenError → String
  | .noPort => "invalid socket address"
  | .badPort => "invalid port value"

/-- A number of at most 16 bits in decimal digits, perhaps behind a plus sign. -/
def port? (cs : List Char) : Option UInt16 :=
  let digits := match cs with
    | '+' :: rest => rest
    | cs => cs
  if digits.isEmpty then none
  else match digits.mapM Numeral.decimal? with
    | some ds =>
      let n := Numeral.ofDigits 10 ds
      if n ≤ 65535 then some (UInt16.ofNat n) else none
    | none => none

/-- The host and the port of a listening address. -/
def listenAddress (text : String) : Except ListenError (String × UInt16) :=
  let (port, before) := text.toList.reverse.span (· != ':')
  match before with
  | [] => .error .noPort
  | _ :: host =>
    match port? port.reverse with
    | some p => .ok (String.ofList host.reverse, p)
    | none => .error .badPort

end ControlPlane.Program
