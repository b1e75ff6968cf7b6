import MarkupArena.Render.Markup
import MarkupArena.Text.Blank
import MarkupArena.Text.Units
/-!
Rendering a subtree once, together with a summary of its top level, so that it can stand in any
arena in place of the subtree.
-/
namespace MarkupArena.World

/-- The tags at the top level of a node, in order, and whether there is text among them. Members of
a fragment are at the top level of the fragment. -/
def topLevel (w : World) (a : ArenaId) : Nat → Handle → Except Failure (List String × Bool)
  | 0, _ => .error .tooDeep
  | fuel + 1, h => do
    match ← w.resolve a h with
    | .element e => return ([e.tag], false)
    | .text value => return ([], !Text.onlyMarkupSpace value)
    | .rendered markup => return (markup.tagNames, markup.hasText)
    | .fragment children =>
      let members ← children.mapM (w.topLevel a fuel)
      return (members.flatMap Prod.fst, members.any Prod.snd)

def preserialize (w : World) (a : ArenaId) (h : Handle) : Except Failure Rendered := do
  let (tags, hasText) ← w.topLevel a w.depthBound h
  let html ← w.render a h false
  return ⟨html, Text.distinct tags, hasText⟩

end MarkupArena.World
