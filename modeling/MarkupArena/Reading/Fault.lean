/-!
Why markup cannot be read. Nearly all markup can: what is malformed is put right by rules.
-/
namespace MarkupArena.Reading

inductive Fault where
  /-- A numeric reference has too many digits to have a value. -/
  | overlongReference
  /-- Every open element was closed, and there is nothing to go on in. -/
  | nothingOpen
  deriving DecidableEq, Repr

def Fault.message : Fault → String
  | overlongReference => "a numeric reference has too many digits"
  | nothingOpen => "no element is open"

end MarkupArena.Reading
