import MarkupArena.Build.Attributes
/-!
Children as they are given, nested to any depth, and descriptions of nodes yet to be built.
-/
namespace MarkupArena

inductive Child where
  | omitted
  | text (value : String)
  | node (handle : Handle)
  | many (children : List Child)
  deriving Repr

/-- A child that is really there. -/
inductive Part where
  | text (value : String)
  | node (handle : Handle)
  deriving DecidableEq, Repr

mutual

/-- The parts of a child, in order. -/
def Child.parts : Child → List Part
  | .omitted => []
  | .text value => [.text value]
  | .node handle => [.node handle]
  | .many children => Child.listParts children

def Child.listParts : List Child → List Part
  | [] => []
  | child :: rest => child.parts ++ Child.listParts rest

end

theorem Child.listParts_append (first second : List Child) :
    Child.listParts (first ++ second) = Child.listParts first ++ Child.listParts second := by
  induction first with
  | nil => simp [Child.listParts]
  | cons child rest ih => simp [Child.listParts, ih]

theorem Child.listParts_singleton (child : Child) : Child.listParts [child] = child.parts := by
  simp [Child.listParts]

theorem Child.listParts_map_node (handles : List Handle) :
    Child.listParts (handles.map Child.node) = handles.map Part.node := by
  induction handles with
  | nil => rfl
  | cons h rest ih => exact congrArg (Part.node h :: ·) ih

/-- A node described without being stored. -/
inductive Description where
  | element (tag : String) (attributes : AttributeInput) (children : Child)
  | text (value : String)
  | fragment (children : Child)
  | rendered (markup : Rendered)
  deriving Repr

end MarkupArena
