import MarkupArena.Build.Element
import MarkupArena.Text.Units
/-!
Plain text laid out line by line. Each line is followed by a line break element, so long lines may
still wrap; tabs become runs of non-breaking spaces, as far as a text can hold them.
-/
namespace MarkupArena.Build

/-- What becomes of a tab. -/
inductive Tab where
  | kept
  | spaces (width : Number)
  deriving DecidableEq, Repr

def Tab.default : Tab := .spaces (Number.ofNat 8)

/-- How many spaces stand for a tab, or `none` if tabs stay. A width counts by its integer part and
not below zero. -/
def Tab.count? : Tab → Except Failure (Option Nat)
  | kept => .ok none
  | spaces (.infinite false) => .error .textTooLong
  | spaces width =>
    let count := (width.floor?.getD 0).toNat
    if Text.maxUnits < count then .error .textTooLong else .ok (some count)

def tabText : Option Nat → List Char
  | none => ['\t']
  | some count => List.replicate count '\u00a0'

def onFirst (c : Char) : List (List Char) → List (List Char)
  | [] => [[c]]
  | line :: rest => (c :: line) :: rest

/-- Splits at every occurrence of a separator, found from left to right without overlap. `skip`
counts the characters of the last one that are still to come. -/
def splitLines (separator : List Char) : Nat → List Char → List (List Char)
  | _, [] => [[]]
  | skip + 1, _ :: rest => splitLines separator skip rest
  | 0, c :: rest =>
    if separator.isPrefixOf (c :: rest) then
      [] :: splitLines separator (separator.length - 1) rest
    else onFirst c (splitLines separator 0 rest)

/-- The lines of a text. The empty separator makes every character a line. -/
def linesOf (separator text : List Char) : List (List Char) :=
  if separator.isEmpty then text.map fun c => [c] else splitLines separator 0 text

def expandTabs (count : Option Nat) (line : List Char) : List Char :=
  line.flatMap fun c => if c = '\t' then tabText count else [c]

/-- The number of UTF-16 units of a line when its tabs are expanded. -/
def expandedSize (count : Option Nat) (line : List Char) : Nat :=
  line.foldl (fun n c => n + if c = '\t' then count.getD 1 else (Text.unitsOf c).length) 0

def expand? (count : Option Nat) (line : List Char) : Except Failure (List Char) :=
  if Text.maxUnits < expandedSize count line then .error .textTooLong
  else .ok (expandTabs count line)

/-- Stores a line, unless it is empty, and the break after it. -/
def storeLine (a : ArenaId) (site : CallSite) (line : List Char) : Action (List Handle) := do
  let before ← if line.isEmpty then pure [] else do
    let handle ← text a (String.ofList line)
    pure [handle]
  let lineBreak ← element a site "br" .empty []
  return before ++ [lineBreak]

/-- A division that lays a text out in lines. -/
def lines (a : ArenaId) (site : CallSite) (value : String) (tab : Tab) (separator : String) :
    Action Handle := do
  let count ← observe fun _ => tab.count?
  let stored ← (linesOf separator.toList value.toList).mapM fun line => do
    let expanded ← observe fun _ => expand? count line
    storeLine a site expanded
  element a site "div" (.record [("class", .text "soft_pre")])
    [.many (stored.flatten.map Child.node)]

end MarkupArena.Build
