import ControlPlane.Text.Quoted
import ControlPlane.Time.Rfc3339
import ControlPlane.Trace.Filter

/-!
# Lines of a trace

What a running program tells of itself: when, how much it matters, which part of the program says
it, what it says and about what.
-/

namespace ControlPlane.Trace

/-- A line without its time. A field is a name and the text of a value. -/
structure Line where
  level : Level
  target : String
  message : String
  fields : List (String × String) := []
  deriving DecidableEq, Repr

/-- A text filled up with blanks at its front to the given width. -/
def padLeft (width : Nat) (s : String) : String :=
  String.ofList (List.replicate (width - s.length) ' ') ++ s

/-- The text of a line told at a time. -/
def Line.render (time : Instant) (l : Line) : String :=
  let head := [String.ofList time.stamp, padLeft 5 l.level.name, l.target ++ ":", l.message]
  " ".intercalate (head ++ l.fields.map fun (name, value) => name ++ "=" ++ value)

/-- The lines that a filter shows. -/
def shown (f : Filter) (ls : List Line) : List Line :=
  ls.filter fun l => f.shows l.target l.level

end ControlPlane.Trace
