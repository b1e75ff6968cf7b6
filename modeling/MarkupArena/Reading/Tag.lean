import MarkupArena.Reading.Reference
import MarkupArena.Text.Blank
import MarkupArena.World.Node
/-!
Tags in markup: a name, attributes of which the first of a name counts, and the slash that closes a
tag by itself. Reading goes character by character up to the closing angle bracket.
-/
namespace MarkupArena.Reading

structure Tag where
  name : String
  attributes : List Attribute
  selfClosing : Bool
  deriving DecidableEq, Repr

/-- Where in a tag the reader stands. -/
inductive Place where
  | tagName
  | beforeName
  | attributeName
  | afterName
  | beforeValue
  | doubleQuoted
  | singleQuoted
  | unquoted
  | afterValue
  | slash
  | closed
  deriving DecidableEq, Repr

/-- A tag being read. Names and values have their last character first. -/
structure OpenTag where
  place : Place
  name : List Char
  current : Option (List Char × List Char)
  attributes : List Attribute
  selfClosing : Bool
  /-- Whether a value had a reference with too many digits. -/
  overlong : Bool
  deriving DecidableEq, Repr

namespace OpenTag

def foldCase (c : Char) : Char := withoutNul c.toLower

def start (c : Char) : OpenTag := ⟨.tagName, [foldCase c], none, [], false, false⟩

/-- Adds the current attribute to the others, unless they have its name. -/
def commit (t : OpenTag) : OpenTag :=
  match t.current with
  | none => t
  | some (name, value) =>
    let name := String.ofList name.reverse
    let value? := decode? true value.reverse
    let attributes :=
      if t.attributes.any fun other => other.name == name then t.attributes
      else t.attributes ++ [⟨name, String.ofList (value?.getD [])⟩]
    { t with current := none, attributes, overlong := t.overlong || value?.isNone }

def startAttribute (t : OpenTag) (c : Char) : OpenTag :=
  { t.commit with current := some ([foldCase c], []), place := .attributeName }

def pushName (t : OpenTag) (c : Char) : OpenTag :=
  { t with
    current := t.current.map fun (name, value) => (foldCase c :: name, value)
    place := .attributeName }

def pushValue (t : OpenTag) (c : Char) (place : Place) : OpenTag :=
  { t with
    current := t.current.map fun (name, value) => (name, withoutNul c :: value)
    place }

def moveTo (t : OpenTag) (place : Place) : OpenTag := { t with place }

def afterName (t : OpenTag) (c : Char) : OpenTag :=
  if Text.isMarkupSpace c then t.moveTo .afterName
  else if c = '/' then t.moveTo .slash
  else if c = '=' then t.moveTo .beforeValue
  else if c = '>' then t.moveTo .closed
  else t.startAttribute c

def beforeName (t : OpenTag) (c : Char) : OpenTag :=
  if Text.isMarkupSpace c then t.moveTo .beforeName
  else if c = '/' ∨ c = '>' then t.afterName c
  else t.startAttribute c

def unquoted (t : OpenTag) (c : Char) : OpenTag :=
  if Text.isMarkupSpace c then t.moveTo .beforeName
  else if c = '>' then t.moveTo .closed
  else t.pushValue c .unquoted

/-- Takes one more character. -/
def feed (t : OpenTag) (c : Char) : OpenTag :=
  match t.place with
  | .tagName =>
    if Text.isMarkupSpace c then t.moveTo .beforeName
    else if c = '/' then t.moveTo .slash
    else if c = '>' then t.moveTo .closed
    else { t with name := foldCase c :: t.name }
  | .beforeName => t.beforeName c
  | .attributeName =>
    if Text.isMarkupSpace c ∨ c = '/' ∨ c = '>' then t.afterName c
    else if c = '=' then t.moveTo .beforeValue
    else t.pushName c
  | .afterName => t.afterName c
  | .beforeValue =>
    if Text.isMarkupSpace c then t
    else if c = '"' then t.moveTo .doubleQuoted
    else if c = '\'' then t.moveTo .singleQuoted
    else if c = '>' then t.moveTo .closed
    else t.unquoted c
  | .doubleQuoted => if c = '"' then t.moveTo .afterValue else t.pushValue c .doubleQuoted
  | .singleQuoted => if c = '\'' then t.moveTo .afterValue else t.pushValue c .singleQuoted
  | .unquoted => t.unquoted c
  | .afterValue =>
    if c = '/' then t.moveTo .slash
    else t.beforeName c
  | .slash => if c = '>' then { t with place := .closed, selfClosing := true } else t.beforeName c
  | .closed => t

def tag (t : OpenTag) : Tag := ⟨String.ofList t.name.reverse, t.attributes, t.selfClosing⟩

/-- Reads on to the end of the tag or of the text, and gives the text after it. -/
def read : OpenTag → List Char → OpenTag × List Char
  | t, [] => (t.commit, [])
  | t, c :: rest =>
    let t := t.feed c
    if t.place = .closed then (t.commit, rest) else t.read rest

end OpenTag

end MarkupArena.Reading
