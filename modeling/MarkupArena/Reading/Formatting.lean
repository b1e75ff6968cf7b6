import MarkupArena.Reading.Builder
/-!
Formatting elements. The list of them outlives the elements themselves: those that a block ended
early are opened again, and an end tag in the wrong place moves blocks out of its element.
-/
namespace MarkupArena.Reading.Builder

def isOpen (b : Builder) (entry : Formatting) : Bool := b.elements.isOpen entry.number

def addMarker (b : Builder) : Builder := { b with formatting := none :: b.formatting }

/-- Forgets the elements since the last marker, and the marker. -/
def clearFormatting (b : Builder) : Builder :=
  { b with formatting := (b.formatting.dropWhile Option.isSome).drop 1 }

def hasNumber (number : Nat) (entry : Option Formatting) : Bool :=
  (entry.map Formatting.number) == some number

def forget (b : Builder) (number : Nat) : Builder :=
  { b with formatting := b.formatting.filter fun entry => !hasNumber number entry }

/-- The entries since the last marker. -/
def recent (b : Builder) : List Formatting :=
  (b.formatting.takeWhile Option.isSome).filterMap id

def formatting? (b : Builder) (name : String) : Option Formatting :=
  b.recent.find? fun entry => entry.name == name

def sameAttributes (first second : List Attribute) : Bool :=
  first.length == second.length && first.all second.contains

/-- Opens a formatting element. Of equal elements since the last marker only the latest three are
kept. -/
def openFormatting (b : Builder) (tag : Tag) : Builder :=
  let entry : Formatting := ⟨b.draft.size, tag.name, tag.attributes⟩
  let equal := b.recent.filter fun other =>
    other.name == tag.name && sameAttributes other.attributes tag.attributes
  let b := (equal.drop 2).foldl (fun b other => b.forget other.number) b
  let b := b.openTag tag
  { b with formatting := some entry :: b.formatting }

/-- Whether an entry stops the reopening of those after it. -/
def settled (b : Builder) : Option Formatting → Bool
  | none => true
  | some entry => b.isOpen entry

/-- Opens one formatting element again. -/
def reopen (b : Builder) (entry : Option Formatting) : Builder :=
  match entry with
  | none => b
  | some old =>
    let number := b.draft.size
    let b := b.openTag ⟨old.name, old.attributes, false⟩
    { b with formatting := some { old with number } :: b.formatting }

/-- Opens the latest formatting elements that were closed by something else. -/
def reopenFormatting (b : Builder) : Builder :=
  let closed := b.formatting.takeWhile fun entry => !b.settled entry
  closed.reverse.foldl reopen { b with formatting := b.formatting.drop closed.length }

/-- Closes the innermost element of a name, with what is open inside, unless an element of
structure comes first. -/
def closeOther (b : Builder) (name : String) : Builder :=
  let inner := b.stack.dropLast.takeWhile fun e => !e.endsWith name && !e.isSpecial
  match b.stack.dropLast.drop inner.length with
  | e :: _ =>
    if e.endsWith name then
      (b.popImpliedBut name).popThrough fun o => o.number == e.number
    else b
  | [] => b

/-- Copies the formatting elements between a block and one around it, innermost first, and moves the
block into the first copy and each copy into the next. No more than three are copied; the others
are no longer open. The result has the copies and the number of the outermost. -/
def copyBetween (b : Builder) (last : Nat) : Nat → List OpenElement →
    Builder × Nat × List OpenElement
  | _, [] => (b, last, [])
  | count, e :: rest =>
    if b.formatting.any (hasNumber e.number) && count < 3 then
      let number := b.draft.size
      let draft := ((b.draft.create e.name false).detach last).append number (.element last)
      let formatting := b.formatting.map fun entry => entry.map fun old =>
        if old.number = e.number then { old with number } else old
      let (b, outermost, copies) :=
        copyBetween { b with draft, formatting } number (count + 1) rest
      (b, outermost, { e with number } :: copies)
    else copyBetween (b.forget e.number) last (count + 1) rest

/-- Puts an entry just after the one of a number. -/
def insertAfter (number : Nat) (entry : Formatting) :
    List (Option Formatting) → List (Option Formatting)
  | [] => [some entry]
  | other :: rest =>
    if hasNumber number other then some entry :: other :: rest
    else other :: insertAfter number entry rest

/-- Closes a formatting element around a block that stays open: the block moves out of it, and what
the block holds moves into a copy of it inside the block. -/
def closeAround (b : Builder) (entry : Formatting) (block : OpenElement) : Builder :=
  let inner := b.stack.takeWhile fun e => e.number != block.number
  let outside := b.stack.drop (inner.length + 1)
  let between := outside.takeWhile fun e => e.number != entry.number
  let below := outside.drop (between.length + 1)
  let (b, last, copies) := b.copyBetween block.number 0 between
  let bookmark := (copies.head?.map OpenElement.number).getD entry.number
  let draft := b.draft.detach last
  let spot : Spot :=
    if Stack.topFosters below then fosterSpot draft none below else endSpot below.head?
  let number := draft.size
  let draft := (draft.insert spot (.element last)).create entry.name false
  let draft := (draft.moveContent block.number number).append block.number (.element number)
  let copy : OpenElement := ⟨number, .html, entry.name, entry.attributes⟩
  let visible := inner ++ copy :: block :: (copies ++ below)
  let b := { b with
    draft
    elements := { b.elements with visible }
    formatting := insertAfter bookmark { entry with number } b.formatting }
  b.forget entry.number

/-- Closes a formatting element of a name. Blocks inside it that are still open are moved out of it,
one at a time. -/
def closeFormatting : Nat → Builder → String → Builder
  | 0, b, _ => b
  | tries + 1, b, name =>
    match b.formatting? name with
    | none => b.closeOther name
    | some entry =>
      if !b.isOpen entry then b.forget entry.number
      else if !b.stack.has name then b
      else
        let inside := b.stack.takeWhile fun e => e.number != entry.number
        match (inside.filter OpenElement.isSpecial).getLast? with
        | none =>
          (b.popThrough fun e => e.number == entry.number).forget entry.number
        | some block => closeFormatting tries (b.closeAround entry block) name

end MarkupArena.Reading.Builder
