/-!
# Media types

The types by which the sender of a message says what its content is: `main/sub`, perhaps with a
structured form behind a plus sign and with parameters behind a semicolon.
-/

namespace ControlPlane.Http

/-- A media type. `form` is what stands behind the last plus sign of the subtype. -/
structure MediaType where
  main : String
  sub : String
  form : Option String
  deriving DecidableEq, Repr

namespace MediaType

/-- The characters of names and of values without quotes. -/
def isToken (c : Char) : Bool :=
  c.isAlphanum || "!#$%&'*+-.^_`|~".toList.contains c

/-- The characters within quotes. -/
def isQuotable (c : Char) : Bool :=
  31 < c.toNat && c.toNat ≠ 127

/-! ## Parameters -/

/-- Where a reader of parameters stands. -/
inductive Place where
  /-- In front of a name. -/
  | start
  | inName
  /-- In a value; `empty` if nothing of it is read. -/
  | inValue (empty : Bool)
  | inQuotes (empty : Bool)
  | behindQuotes
  deriving DecidableEq, Repr

/-- Reads one character of parameters; `none` if it cannot stand there. -/
def Place.step (p : Place) (c : Char) : Option Place :=
  match p with
  | .start => if c = ' ' then some .start else if isToken c then some .inName else none
  | .inName => if isToken c then some .inName else if c = '=' then some (.inValue true) else none
  | .inValue empty =>
    if empty && c = '"' then some (.inQuotes true)
    else if isToken c then some (.inValue false)
    else if c = ';' && !empty then some .start
    else none
  | .inQuotes empty =>
    if c = '"' && !empty then some .behindQuotes
    else if isQuotable c then some (.inQuotes false)
    else none
  | .behindQuotes =>
    if c = ';' then some .start else if c = ' ' then some .behindQuotes else none

/-- Whether parameters may end where a reader stands. -/
def Place.final : Place → Bool
  | .start | .inValue _ | .behindQuotes => true
  | .inName | .inQuotes _ => false

/-- Whether a text consists of parameters, each a name and a value. -/
def areParameters (cs : List Char) : Bool :=
  match cs.foldlM Place.step .start with
  | some p => p.final
  | none => false

/-! ## Types -/

/-- A subtype and the structured form behind its last plus sign, which must not stand in front. -/
def splitForm (sub : List Char) : List Char × Option (List Char) :=
  let (form, before) := sub.reverse.span (· != '+')
  match before with
  | _ :: c :: front => ((c :: front).reverse, some form.reverse)
  | _ => (sub, none)

/-- A text in lower case. -/
def lower (cs : List Char) : String :=
  String.ofList (cs.map Char.toLower)

/-- The media type that a text names. -/
def parse? (text : String) : Option MediaType :=
  let (main, rest) := text.toList.span isToken
  match rest with
  | '/' :: rest =>
    let (sub, rest) := rest.span isToken
    if main.isEmpty || sub.isEmpty then none
    else
      let (front, form) := splitForm sub
      let t : MediaType := ⟨lower main, lower front, form.map lower⟩
      match rest with
      | [] => some t
      | ';' :: params => if areParameters params then some t else none
      | _ => none
  | _ => none

/-- Whether content of a type is a document in JSON. -/
def isJson (t : MediaType) : Bool :=
  t.main = "application" && (t.sub = "json" || t.form = some "json")

end MediaType

end ControlPlane.Http
