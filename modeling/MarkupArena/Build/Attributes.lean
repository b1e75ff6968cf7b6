import MarkupArena.Number.Text
import MarkupArena.Record
import MarkupArena.Schema.Check
import MarkupArena.World.Node
/-!
Attributes as they are given, and as an element stores them. Omitted values leave no trace, a set
flag is the empty text, and a number is written out.
-/
namespace MarkupArena

inductive AttributeValue where
  | omitted
  | flag (set : Bool)
  | text (value : String)
  | number (value : Number)
  deriving DecidableEq, Repr

/-- The text that an element stores, if any. -/
def AttributeValue.text? : AttributeValue → Option String
  | omitted => none
  | flag set => if set then some "" else none
  | text value => some value
  | number value => some value.text

/-- Attributes as a list, or as the assignments that make up a record. -/
inductive AttributeInput where
  | entries (pairs : List (String × AttributeValue))
  | record (assignments : List (String × AttributeValue))
  deriving DecidableEq, Repr

namespace AttributeInput

def empty : AttributeInput := entries []

def pairs : AttributeInput → List (String × AttributeValue)
  | entries pairs => pairs
  | record assignments => Record.enumerate (Record.ofAssignments assignments)

/-- Keeps the pairs that have a text. The first of them whose name is malformed, or the same as an
earlier one, is refused; malformed comes first. -/
def keep (tag : String) : List String → List (String × AttributeValue) →
    Except Rejection (List Attribute)
  | _, [] => .ok []
  | seen, (name, value) :: rest =>
    match value.text? with
    | none => keep tag seen rest
    | some text =>
      if !Text.isAttributeName name then .error (.invalidAttributeName tag name)
      else if seen.contains name then .error (.duplicateAttribute tag name)
      else (keep tag (name :: seen) rest).map (⟨name, text⟩ :: ·)

/-- The attributes that an element with a tag stores. -/
def normalize (tag : String) (input : AttributeInput) : Except Rejection (List Attribute) :=
  keep tag [] input.pairs

end AttributeInput

end MarkupArena
