import DocClient.Number.Basic

/-!
JSON values. The members of an object are kept in ascending order of their keys, one member a
key; `setMember` is the way in, and a later value for a key replaces the earlier one.
-/
namespace DocClient

inductive Json where
  | null
  | bool (b : Bool)
  | number (n : Number)
  | string (s : String)
  | array (items : List Json)
  | object (members : List (String × Json))

/-- An object's members. -/
abbrev Document := List (String × Json)

namespace Json

/-- Puts a member into an ordered list, in the place of one with the same key. -/
def setMember (key : String) (value : Json) : Document → Document
  | [] => [(key, value)]
  | (k, v) :: rest =>
    if key < k then (key, value) :: (k, v) :: rest
    else if key = k then (key, value) :: rest
    else (k, v) :: setMember key value rest

/-- The name of a value's type. -/
def kind : Json → String
  | null => "null"
  | bool _ => "boolean"
  | number _ => "number"
  | string _ => "string"
  | array _ => "array"
  | object _ => "object"

/-- The value of a floating-point number; what is not finite has none. -/
def ofExtended : Extended → Json
  | .finite x => number (.real x)
  | .infinite _ | .nan => null

end Json

end DocClient
