import MarkupArena.Number.Text
import MarkupArena.Reading.Fault
import MarkupArena.Schema.Check
import MarkupArena.Text.Units
import MarkupArena.World.Handle
/-!
Why an operation fails, and the wording of each reason.
-/
namespace MarkupArena

/-- Why a handle does not resolve. -/
inductive HandleFault where
  | staleGeneration
  | foreignArena
  | outOfRange
  deriving DecidableEq, Repr

inductive Failure where
  /-- The schema refuses, because of the child at an index if one is given. -/
  | rejected (why : Rejection) (childIndex : Option Nat)
  /-- A handle does not resolve; the arena is the one where the search ended. -/
  | invalidHandle (fault : HandleFault) (handle : Handle) (arena : ArenaId)
  | budgetExceeded (limit : Number) (actual : Nat)
  | notLeased (arena : ArenaId)
  /-- A text would be longer than texts can be. -/
  | textTooLong
  | unreadable (fault : Reading.Fault)
  /-- The depth bound of a traversal is used up. -/
  | tooDeep
  deriving DecidableEq, Repr

def HandleFault.reason : HandleFault → String
  | staleGeneration => "stale-generation"
  | foreignArena => "foreign-arena"
  | outOfRange => "out-of-range"

def Rejection.message (why : Rejection) (childIndex : Option Nat) : String :=
  let part (label : String) (value : Option String) : String :=
    match value with
    | some text => " " ++ label ++ "=" ++ text
    | none => ""
  "Schema validation failed: " ++ why.code ++ " tag=" ++ why.tag ++
    part "attribute" why.attribute? ++ part "child" why.child? ++
    part "index" (childIndex.map toString) ++
    part "allowed" (why.allowed?.map fun names => "[" ++ ", ".intercalate names ++ "]")

def Failure.message : Failure → String
  | rejected why childIndex => why.message childIndex
  | invalidHandle fault handle arena =>
    "Invalid handle " ++ handle.text ++ " for arena " ++ toString arena.number ++ ": " ++
      fault.reason
  | budgetExceeded limit actual =>
    "Budget exceeded: maxNodes limit=" ++ limit.text ++ " actual=" ++ toString actual
  | notLeased arena => "Pool misuse: ARENA_NOT_LEASED arena=" ++ toString arena.number
  | textTooLong => "the text is too long"
  | unreadable fault => "the markup cannot be read: " ++ fault.message
  | tooDeep => "the tree is too deep"

/-- A text as it is handed out. What is read from a world may be of any length, but nobody is handed
a text that is longer than texts can be. -/
def handOut (text : String) : Except Failure String :=
  if Text.maxUnits < (Text.units text).length then .error .textTooLong else .ok text

end MarkupArena
