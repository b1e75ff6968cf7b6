import MarkupArena.Text.Blank
/-!
The place where an element is made, as its stack of calls tells. The calls within the library
itself say nothing about it and are left out.
-/
namespace MarkupArena

/-- Lines of a call stack, innermost call first, and the roots that mark a line as the library's
own. -/
structure CallSite where
  lines : List String
  ownRoots : List String
  deriving DecidableEq, Repr

namespace CallSite

def maxFrames : Nat := 8

def isOwn (site : CallSite) (line : List Char) : Bool :=
  site.ownRoots.any fun root => Text.occursIn root.toList line

/-- The innermost calls outside the library, without blanks around them. -/
def frames (site : CallSite) : List (List Char) :=
  let lines := (site.lines.flatMap fun line => Text.splitAt '\n' line.toList).map Text.trim
  (lines.filter fun line => !line.isEmpty && !site.isOwn line).take maxFrames

/-- The text that records the place in an element. -/
def title (site : CallSite) : String :=
  "Generated at:\n" ++ "\n".intercalate (site.frames.map String.ofList)

end CallSite

end MarkupArena
