import Minister.Codec.Json

/-!
# Object schemas

A schema reads an object field by field. A field that is there is read by its own rule, a
field that is missing is refused unless it is optional, and members that no field names
are dropped or, if the schema is strict, refused. What is kept has the order of the
fields.

What a refusal says is left out.
-/

namespace Codec

/-- The rule for one member. -/
structure Field where
  name : String
  isRequired : Bool := true
  /-- The value that is kept, unless the value is refused. -/
  read : Json → Option Json

structure ObjectSchema where
  fields : List Field
  isStrict : Bool := false

/-- What a field keeps: one member, or none if it is optional. -/
def Field.parse (f : Field) (members : List (String × Json)) : Option (List (String × Json)) :=
  match member members f.name with
  | none => if f.isRequired then none else some []
  | some value => (f.read value).map fun kept => [(f.name, kept)]

def parseFields (members : List (String × Json)) : List Field → Option (List (String × Json))
  | [] => some []
  | f :: fields =>
    (f.parse members).bind fun kept => (parseFields members fields).map fun rest => kept ++ rest

def ObjectSchema.names (s : ObjectSchema) : List String := s.fields.map (·.name)

def ObjectSchema.parse (s : ObjectSchema) (members : List (String × Json)) :
    Option (List (String × Json)) :=
  if s.isStrict && members.any (fun m => m.1 ∉ s.names) then none
  else parseFields members s.fields

/-! ### Rules for values -/

/-- A text that passes a check; the check may rewrite it. -/
def readText (check : String → Option String) : Json → Option Json
  | .str text => (check text).map .str
  | _ => none

def readOneOf (texts : List String) : Json → Option Json :=
  readText fun text => if text ∈ texts then some text else none

def readNumberOf (numbers : List Nat) : Json → Option Json
  | .num (.fin q) => if q ∈ numbers.map Nat.cast then some (.num (.fin q)) else none
  | _ => none

def nonEmpty (text : String) : Option String := if text = "" then none else some text

end Codec
