import MarkupArena.Reading.Stack
/-!
The open elements, also when a rule closes one although none is open. Such a closing leaves a debt,
and the elements opened next pay it off: they take content and are closed one by one, but no search
finds them.
-/
namespace MarkupArena.Reading

/-- What the innermost element says about the tokens to come. -/
structure Context where
  /-- Whether a tag is looked at by the rules of foreign content first. -/
  notHtml : Bool
  /-- Whether those rules take all that comes. -/
  foreign : Bool
  deriving DecidableEq, Repr

namespace Context

def html : Context := ⟨false, false⟩

/-- The context in an element. Where there is none, there is no HTML either. -/
def within : Option OpenElement → Context
  | none => ⟨true, false⟩
  | some e => ⟨e.space != .html, e.space != .html && !e.isIntegration⟩

end Context

structure OpenElements where
  /-- The elements that searches find, innermost first. -/
  visible : Stack
  /-- The elements that paid off a debt, innermost first. They are around all visible ones. -/
  sunk : Stack
  /-- How many closings were too many. -/
  debt : Nat
  /-- The elements that were open further in, each the last at its depth, outermost first. -/
  past : List OpenElement
  /-- The context while at most one element is visible. -/
  outer : Context
  deriving DecidableEq, Repr

namespace OpenElements

/-- One element, which stands for a template. -/
def start (e : OpenElement) : OpenElements := ⟨[e], [], 0, [], .html⟩

def innermost? (o : OpenElements) : Option OpenElement := o.visible.head?.or o.sunk.head?

def context (o : OpenElements) : Context :=
  match o.visible with
  | e :: _ :: _ => .within e
  | _ => o.outer

def any (o : OpenElements) (test : OpenElement → Bool) : Bool :=
  o.visible.any test || o.sunk.any test

/-- Whether an element is open. Where none is visible, those of the past still count, as far as the
debt leaves them. -/
def isOpen (o : OpenElements) (number : Nat) : Bool :=
  let candidates := if o.visible.isEmpty then o.past.take (o.past.length - o.debt) else o.visible
  candidates.any fun e => e.number == number

def push (o : OpenElements) (e : OpenElement) : OpenElements :=
  if o.debt = 0 then { o with visible := e :: o.visible, past := o.past.drop 1 }
  else { o with sunk := e :: o.sunk, debt := o.debt - 1 }

/-- Closes innermost visible elements. -/
def popMany (n : Nat) (o : OpenElements) : OpenElements :=
  let closed := o.visible.take n
  let rest := o.visible.drop n
  let outer :=
    if closed.isEmpty then o.outer
    else if rest.isEmpty then .within o.sunk.head?
    else .html
  { o with visible := rest, past := closed.reverse ++ o.past, outer }

/-- Closes innermost sunk elements. -/
def popSunk (n : Nat) (o : OpenElements) : OpenElements :=
  let sunk := o.sunk.drop n
  { o with sunk, debt := o.debt + n, outer := .within sunk.head? }

def pop (o : OpenElements) : OpenElements :=
  if o.visible.isEmpty then o.popSunk 1 else o.popMany 1

/-- Closes elements one by one as long as a test holds of the innermost one. -/
def popWhile (test : OpenElement → Bool) (o : OpenElements) : OpenElements :=
  let o := o.popMany (o.visible.takeWhile test).length
  let below := o.sunk.takeWhile test
  if o.visible.isEmpty && !below.isEmpty then o.popSunk below.length else o

/-- Closes visible elements as long as a test holds. -/
def clearWhile (test : OpenElement → Bool) (o : OpenElements) : OpenElements :=
  o.popMany (o.visible.takeWhile test).length

/-- Closes visible elements up to and with the first of which a test holds, and all if it holds of
none. -/
def popThrough (test : OpenElement → Bool) (o : OpenElements) : OpenElements :=
  o.popMany ((o.visible.takeWhile fun e => !test e).length + 1)

/-- Closes one element and leaves those inside it open. One of the past adds to the debt. -/
def remove (number : Nat) (o : OpenElements) : OpenElements :=
  let isIt (e : OpenElement) : Bool := e.number == number
  match o.visible with
  | e :: rest =>
    if isIt e then o.popMany 1
    else { o with visible := e :: rest.eraseP isIt, outer := o.context }
  | [] =>
    if o.isOpen number then
      { o with past := o.past.eraseP isIt, sunk := o.sunk.drop 1, debt := o.debt + 1 }
    else o

end OpenElements

end MarkupArena.Reading
