import MarkupArena.Reading.Table
/-!
The frame of a document: its head, its body and frames. A text is read as the content of a template,
so none of this has a place in it; the modes are entered only after foreign elements of these names.
-/
namespace MarkupArena.Reading.Builder

/-- Closes the head. -/
def closeHead (b : Builder) : Builder := b.pop.withMode .afterHead

/-- Opens a body that no tag asked for. -/
def openBody (b : Builder) : Builder := (b.openImplied "body").withMode .body

/-- What describes a document still goes to its head when that was closed. -/
def startLateHead (b : Builder) (tag : Tag) : Builder :=
  match b.head with
  | none => b.startHead tag
  | some number =>
    let b := b.onElements (OpenElements.push · ⟨number, .html, "head", []⟩)
    (b.startHead tag).remove number

def startAfterHead (b : Builder) (tag : Tag) : Builder :=
  match tag.name with
  | "html" | "head" => b
  | "body" => (b.openTag tag).withMode .body
  | "frameset" => (b.openTag tag).withMode .frameset
  | name => if headNames.contains name then b.startLateHead tag else b.openBody.startBody tag

def startFrameset (b : Builder) (tag : Tag) : Builder :=
  match tag.name with
  | "frameset" => b.openTag tag
  | "frame" => b.addVoid tag.name
  | "noframes" => b.startHead tag
  | _ => b

/-- The document's element is no frameset, whatever tag asks for its end. -/
def endFrameset (b : Builder) : Builder :=
  match b.stack with
  | [e] => if e.name = "html" then b else b.pop
  | _ => b.pop

end MarkupArena.Reading.Builder
