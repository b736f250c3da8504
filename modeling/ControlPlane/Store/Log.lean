import ControlPlane.Store.Error

/-!
# The log

The changes of a store as the content of a file, one line for each. `Log.replay` finds the map that
the changes on the lines lead to, or the first line that holds no change.
-/

namespace ControlPlane.Log

/-- Takes the carriage return at the end of a line away. The line is given from its end. -/
def dropReturn : Bytes → Bytes
  | 13 :: line => line
  | line => line

/-- The lines of a content, behind a line under way that is given from its end. A line ends at a
line feed or at a carriage return and a line feed. What follows the last one is a line if it is not
empty. -/
def linesFrom (line : Bytes) : Bytes → List Bytes
  | [] => if line.isEmpty then [] else [line.reverse]
  | b :: rest =>
    if b = Change.lineEnd then (dropReturn line).reverse :: linesFrom [] rest
    else linesFrom (b :: line) rest

/-- The lines of a content. -/
def lines (content : Bytes) : List Bytes :=
  linesFrom [] content

/-- Applies the changes on lines to a map, the first of them having the given number. -/
def replayFrom (number : Nat) (m : KeyMap) : List Bytes → Except StoreError KeyMap
  | [] => .ok m
  | line :: rest =>
    match Change.ofLine line with
    | .ok c => replayFrom (number + 1) (c.apply m) rest
    | .error f => .error (.ofLine number f)

/-- The map that a log leads to. -/
def replay (content : Bytes) : Except StoreError KeyMap :=
  replayFrom 1 .empty (lines content)

/-- The content of a log with the given changes. -/
def ofChanges (cs : List Change) : Bytes :=
  cs.flatMap Change.line

end ControlPlane.Log
