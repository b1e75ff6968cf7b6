import MarkupArena.Number.Text
import MarkupArena.Record
/-!
JSON values. An object keeps its members as a record, in order of assignment.
-/
namespace MarkupArena

inductive Json where
  | null
  | bool (value : Bool)
  | number (value : Number)
  | string (value : String)
  | array (items : List Json)
  | object (members : List (String × Json))
  deriving Repr

namespace Json

/-- The value of a member; absent for other names and for values that are no objects. -/
def member? : Json → String → Option Json
  | object members, name => Record.get? members name
  | _, _ => none

end Json

end MarkupArena
