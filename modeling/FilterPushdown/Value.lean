import FilterPushdown.Number.Text

/-!
Values of unknown shape: what is handed over in place of a relation, and what a log record
carries.  A value can be described in one line of text, as a template would print it; some records
refuse this, which is the only way in which describing a value can fail.
-/

namespace FilterPushdown

/-- A scalar, a list, or a record of named members. -/
inductive Value where
  | null
  | boolean (value : Bool)
  | number (value : Number.Double)
  | text (value : String)
  | list (items : List Value)
  | record (members : List (String × Value))

namespace Value

/-- A record that replaces its own description by something that is not one. -/
inductive Indescribable where
  | noPrimitiveForm
  deriving DecidableEq, Repr

/-- The text of the failure to describe a value. -/
def Indescribable.message : Indescribable → String
  | noPrimitiveForm => "Cannot convert object to primitive value"

/-- A member that is asked of nothing: of the missing value, or where there is no value at all. -/
structure NoMember where
  /-- Whether the missing value was written down. -/
  written : Bool
  member : String
  deriving DecidableEq, Repr

/-- The text of the failure to ask for a member. -/
def NoMember.message (failure : NoMember) : String :=
  "Cannot read properties of " ++ (if failure.written then "null" else "undefined") ++
    " (reading '" ++ failure.member ++ "')"

/-- The member of a record under a name. -/
def member? (value : Value) (name : String) : Option Value :=
  match value with
  | record members => members.lookup name
  | _ => none

/-- The name of the type of a value; a list and the missing value pass for records. -/
def typeName : Value → String
  | null => "object"
  | boolean _ => "boolean"
  | number _ => "number"
  | text _ => "string"
  | list _ => "object"
  | record _ => "object"

/-- Whether a value is the missing one. -/
def isNull : Value → Bool
  | null => true
  | _ => false

mutual

/-- The one-line text of a value.  A record shows only that it is one, and not even that if it has
a member in the place of its description. -/
def describe : Value → Except Indescribable String
  | null => .ok "null"
  | boolean true => .ok "true"
  | boolean false => .ok "false"
  | number x => .ok x.text
  | text s => .ok s
  | list items => describeItems items
  | record members =>
    if (members.lookup "toString").isSome then .error .noPrimitiveForm else .ok "[object Object]"

/-- The texts of list items with commas between them; a missing item has the empty text. -/
def describeItems : List Value → Except Indescribable String
  | [] => .ok ""
  | item :: items => do
    let first ← if item.isNull then .ok "" else describe item
    if items.isEmpty then return first
    let others ← describeItems items
    return first ++ "," ++ others

end

/-- The one-line text of a value that may be absent. -/
def describe? : Option Value → Except Indescribable String
  | none => .ok "undefined"
  | some value => value.describe

end Value

end FilterPushdown
