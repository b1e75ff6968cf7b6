import MarkupArena.Text.Escape
import MarkupArena.World.Ownership
/-!
Rendering a stored tree as markup. Handles into linked arenas are followed, and markup that was
rendered before is copied as it is. Markup may be of any length here; it is handed out by `handOut`.
-/
namespace MarkupArena.World

def doctype : String := "<!DOCTYPE html>\n"

def attributeText (given : Attribute) : String :=
  " " ++ given.name ++ "=\"" ++ Text.escapeAttribute given.value ++ "\""

def startTagText (e : Element) : String :=
  "<" ++ e.tag ++ String.join (e.attributes.map attributeText) ++ ">"

def endTagText (e : Element) : String := if e.info.hasClosingTag then "</" ++ e.tag ++ ">" else ""

/-- The markup of a node, whose depth the first argument bounds. -/
def renderNode (w : World) (a : ArenaId) : Nat → Handle → Except Failure String
  | 0, _ => .error .tooDeep
  | fuel + 1, h => do
    match ← w.resolve a h with
    | .text value => return Text.escapeText value
    | .rendered markup => return markup.html
    | .fragment children => return String.join (← children.mapM (w.renderNode a fuel))
    | .element e =>
      let content ← e.children.mapM (w.renderNode a fuel)
      return startTagText e ++ String.join content ++ endTagText e

def render (w : World) (a : ArenaId) (h : Handle) (withDoctype : Bool) : Except Failure String := do
  let markup ← w.renderNode a w.depthBound h
  return if withDoctype then doctype ++ markup else markup

/-- The markup as it is handed out, in UTF-8. -/
def renderBytes (w : World) (a : ArenaId) (h : Handle) (withDoctype : Bool) :
    Except Failure ByteArray := do
  let markup ← w.render a h withDoctype
  return (← handOut markup).toUTF8

end MarkupArena.World
