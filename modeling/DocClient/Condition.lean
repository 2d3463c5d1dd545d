import DocClient.Json.Printer
import DocClient.Name

/-!
Filter conditions. A caller's own text is taken as it is; a comparison is a name, an operator and
a JSON value, in which a string keeps its quotes.
-/
namespace DocClient

inductive Comparison where
  | eq
  | gt
  | gte
  | lt
  | lte
  deriving DecidableEq, Repr

namespace Comparison

def symbol : Comparison → String
  | eq => "="
  | gt => ">"
  | gte => ">="
  | lt => "<"
  | lte => "<="

def all : List Comparison := [eq, gt, gte, lt, lte]

end Comparison

structure Condition where
  text : String
  deriving DecidableEq, Repr

namespace Condition

def compare (field : Name) (comparison : Comparison) (value : Json) : Condition :=
  ⟨field.text ++ comparison.symbol ++ value.render⟩

end Condition

end DocClient
