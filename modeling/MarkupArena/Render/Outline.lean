import MarkupArena.World.Ownership
/-!
An outline of a stored tree for readers: one line for each tag, attribute, text and piece of
rendered markup, indented by depth. Fragments leave no line and no indentation.
-/
namespace MarkupArena.World

def outlineLine (level : Nat) (text : String) : String :=
  "| " ++ String.ofList (List.replicate (2 * level) ' ') ++ text

/-- Quotes without escaping. -/
def inQuotes (text : String) : String := "\"" ++ text ++ "\""

def tagLines (level : Nat) (e : Element) : List String :=
  outlineLine level ("<" ++ e.tag ++ ">") ::
    e.attributes.map fun given =>
      outlineLine (level + 1) (given.name ++ "=" ++ inQuotes given.value)

/-- The lines of a node at a level of indentation. -/
def outlineNode (w : World) (a : ArenaId) : Nat → Nat → Handle → Except Failure (List String)
  | 0, _, _ => .error .tooDeep
  | fuel + 1, level, h => do
    match ← w.resolve a h with
    | .text value => return [outlineLine level (inQuotes value)]
    | .rendered markup => return [outlineLine level ("#preserialized " ++ inQuotes markup.html)]
    | .fragment children => return (← children.mapM (w.outlineNode a fuel level)).flatten
    | .element e =>
      let content ← e.children.mapM (w.outlineNode a fuel (level + 1))
      return tagLines level e ++ content.flatten

def outline (w : World) (a : ArenaId) (h : Handle) : Except Failure String := do
  return "\n".intercalate (← w.outlineNode a w.depthBound 0 h)

end MarkupArena.World
