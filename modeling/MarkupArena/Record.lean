/-!
Records: names with values, built by assignment. A repeated name keeps its first place and takes
the last value. Enumeration lists names that are array indices first, in increasing order, and the
others in order of first assignment.
-/
namespace MarkupArena.Record

variable {α : Type}

/-- Gives `name` a value, in its place if it has one. -/
def assign : List (String × α) → String → α → List (String × α)
  | [], name, value => [(name, value)]
  | (other, old) :: rest, name, value =>
    if other = name then (other, value) :: rest else (other, old) :: assign rest name value

/-- The record that results from assigning pairs in order. -/
def ofAssignments (pairs : List (String × α)) : List (String × α) :=
  pairs.foldl (fun record pair => assign record pair.1 pair.2) []

def get? : List (String × α) → String → Option α
  | [], _ => none
  | (other, value) :: rest, name => if other = name then some value else get? rest name

def decimalValue (digits : List Char) : Nat :=
  digits.foldl (fun n c => 10 * n + (c.toNat - '0'.toNat)) 0

def greatestIndex : Nat := 4294967294

/-- The array index that a name spells: decimal digits without a leading zero, up to the greatest
index. -/
def index? (name : String) : Option Nat :=
  let digits := name.toList
  if digits = ['0'] then some 0
  else
    match digits with
    | [] => none
    | first :: _ =>
      if first = '0' ∨ ¬ digits.all Char.isDigit ∨ 10 < digits.length then none
      else if decimalValue digits ≤ greatestIndex then some (decimalValue digits)
      else none

def insertByIndex (entry : Nat × (String × α)) :
    List (Nat × (String × α)) → List (Nat × (String × α))
  | [] => [entry]
  | other :: rest =>
    if entry.1 ≤ other.1 then entry :: other :: rest else other :: insertByIndex entry rest

/-- The entries in order of enumeration. -/
def enumerate (record : List (String × α)) : List (String × α) :=
  let indexed := record.filterMap fun entry => (index? entry.1).map fun n => (n, entry)
  let named := record.filter fun entry => (index? entry.1).isNone
  (indexed.foldr insertByIndex []).map Prod.snd ++ named

theorem get?_assign_self (record : List (String × α)) (name : String) (value : α) :
    get? (assign record name value) name = some value := by
  induction record with
  | nil => simp [assign, get?]
  | cons entry rest ih =>
    by_cases h : entry.1 = name <;> simp [assign, get?, h, ih]

theorem get?_assign_of_ne (record : List (String × α)) {name other : String} (value : α)
    (h : other ≠ name) : get? (assign record name value) other = get? record other := by
  induction record with
  | nil => simp [assign, get?, Ne.symm h]
  | cons entry rest ih =>
    by_cases hn : entry.1 = name
    · simp [assign, get?, hn, Ne.symm h]
    · have step : assign (entry :: rest) name value = entry :: assign rest name value := by
        simp [assign, hn]
      by_cases ho : entry.1 = other <;> simp [step, get?, ho, ih]

/-- An assignment adds its name at the end or leaves the names as they are. -/
theorem names_assign (record : List (String × α)) (name : String) (value : α) :
    (assign record name value).map Prod.fst =
      if name ∈ record.map Prod.fst then record.map Prod.fst
      else record.map Prod.fst ++ [name] := by
  induction record with
  | nil => simp [assign]
  | cons entry rest ih =>
    by_cases h : entry.1 = name
    · simp [assign, h]
    · by_cases hr : name ∈ rest.map Prod.fst <;>
        simp_all [assign, Ne.symm h]

end MarkupArena.Record
