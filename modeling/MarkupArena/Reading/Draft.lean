/-!
Content that is still being put together. The elements of a draft are numbered in the order in which
they were made and know where they are, so that content can be added to an element, and an element
moved, long after others were opened. Number 0 is the document and number 1 its element, which holds
the content that is read; what the document gets besides is lost.
-/
namespace MarkupArena.Reading

/-- What markup contains. -/
inductive Content where
  | element (name : String) (children : List Content)
  | text (value : String)
  deriving Repr

/-- A child in a draft; elements stand for themselves by their number. -/
inductive Piece where
  | text (value : String)
  | element (number : Nat)
  deriving DecidableEq, Repr

/-- An element in a draft; its pieces have the last one first. -/
structure Branch where
  name : String
  /-- Whether what it holds is not part of its content. -/
  sealed : Bool
  parent : Option Nat
  pieces : List Piece
  deriving Repr

namespace Piece

/-- Adds a piece at the end; text joins the text before it. -/
def push (piece : Piece) (pieces : List Piece) : List Piece :=
  match piece, pieces with
  | text more, text before :: rest => text (before ++ more) :: rest
  | _, _ => piece :: pieces

/-- Adds a piece just before the element of a number. -/
def pushBefore (number : Nat) (piece : Piece) : List Piece → List Piece
  | [] => [piece]
  | other :: rest =>
    if other = element number then other :: push piece rest
    else other :: pushBefore number piece rest

end Piece

/-- Where content goes: to the end of an element, or before one of its children. -/
structure Spot where
  parent : Nat
  before : Option Nat
  deriving DecidableEq, Repr

structure Draft where
  branches : Array Branch
  deriving Repr

namespace Draft

def document : Nat := 0

def root : Nat := 1

def start : Draft :=
  ⟨#[⟨"document", false, none, [.element root]⟩, ⟨"html", false, some document, []⟩]⟩

/-- The number of the next element. -/
def size (d : Draft) : Nat := d.branches.size

def parent? (d : Draft) (number : Nat) : Option Nat := d.branches[number]?.bind Branch.parent

def modify (d : Draft) (number : Nat) (change : Branch → Branch) : Draft :=
  ⟨d.branches.modify number change⟩

/-- Makes an element that is nowhere yet. -/
def create (d : Draft) (name : String) (isSealed : Bool) : Draft :=
  ⟨d.branches.push ⟨name, isSealed, none, []⟩⟩

def setParent (d : Draft) (piece : Piece) (parent : Option Nat) : Draft :=
  match piece with
  | .text _ => d
  | .element number => d.modify number fun branch => { branch with parent }

/-- Adds a piece that is nowhere yet. -/
def insert (d : Draft) (spot : Spot) (piece : Piece) : Draft :=
  (d.setParent piece (some spot.parent)).modify spot.parent fun branch =>
    { branch with
      pieces := match spot.before with
        | none => piece.push branch.pieces
        | some number => piece.pushBefore number branch.pieces }

/-- Adds a piece at the end of an element. -/
def append (d : Draft) (parent : Nat) (piece : Piece) : Draft := d.insert ⟨parent, none⟩ piece

/-- Takes an element from where it is. -/
def detach (d : Draft) (number : Nat) : Draft :=
  match d.parent? number with
  | none => d
  | some parent =>
    (d.modify parent fun branch =>
      { branch with pieces := branch.pieces.filter (· ≠ .element number) }).setParent
        (.element number) none

/-- Moves all that an element holds to the end of another. -/
def moveContent (d : Draft) (source target : Nat) : Draft :=
  let pieces := (d.branches[source]?.map Branch.pieces).getD []
  let d := d.modify source fun branch => { branch with pieces := [] }
  let d := d.modify target fun branch => { branch with pieces := pieces ++ branch.pieces }
  pieces.foldl (fun d piece => d.setParent piece (some target)) d

/-- The content of an element, down to a depth. -/
def contentOf (d : Draft) : Nat → Nat → List Content
  | 0, _ => []
  | depth + 1, number =>
    match d.branches[number]? with
    | none => []
    | some branch =>
      if branch.sealed then []
      else branch.pieces.reverse.map fun
        | .text value => .text value
        | .element child =>
          .element ((d.branches[child]?.map Branch.name).getD "") (d.contentOf depth child)

/-- The content of the document's element. No element is deeper than there are elements. -/
def content (d : Draft) : List Content := d.contentOf d.size root

end Draft

end MarkupArena.Reading
