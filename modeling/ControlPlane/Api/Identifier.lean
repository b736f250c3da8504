import ControlPlane.Text.Numeral
import ControlPlane.Text.Utf8

/-!
# Identifiers

The ids that new records get: identifiers of version 4, which have 122 free bits.
-/

namespace ControlPlane.Api

/-- The identifier whose free bits are a number. -/
def numberedId (n : Nat) : String :=
  "00000000-0000-4000-8000-" ++ String.ofList (Numeral.padded 12 (Numeral.hex n))

/-- A byte in hexadecimal notation. -/
def hexByte (b : Nat) : List Char :=
  Numeral.padded 2 (Numeral.hex b)

/-- The identifier whose free bits are taken from sixteen bytes. -/
def randomId (bs : Bytes) : String :=
  let byte (i : Nat) : Nat :=
    let b := (bs[i]?.getD 0).toNat
    if i = 6 then 64 + b % 16 else if i = 8 then 128 + b % 64 else b
  let part (first count : Nat) : String :=
    String.ofList ((List.range count).flatMap fun i => hexByte (byte (first + i)))
  "-".intercalate [part 0 4, part 4 2, part 6 2, part 8 2, part 10 6]

end ControlPlane.Api
