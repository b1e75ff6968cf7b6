import MarkupArena.Json.Basic
/-!
Reading JSON text. The grammar is strict: four blank characters, no leading zeros, no control
characters in strings, nothing after the value. Each reader takes a fuel argument above the length
of its text, so a text is never too deep for it.
-/
namespace MarkupArena.Json

def isSpace (c : Char) : Bool := c == ' ' || c == '\t' || c == '\n' || c == '\r'

def skipSpace (text : List Char) : List Char := text.dropWhile isSpace

def hexDigit? (c : Char) : Option Nat :=
  if c.isDigit then some (c.toNat - '0'.toNat)
  else if 'a' ≤ c ∧ c ≤ 'f' then some (c.toNat - 'a'.toNat + 10)
  else if 'A' ≤ c ∧ c ≤ 'F' then some (c.toNat - 'A'.toNat + 10)
  else none

def readHex4? : List Char → Option (Nat × List Char)
  | a :: b :: c :: d :: rest => do
    let a ← hexDigit? a
    let b ← hexDigit? b
    let c ← hexDigit? c
    let d ← hexDigit? d
    some (((a * 16 + b) * 16 + c) * 16 + d, rest)
  | _ => none

def simpleEscape? : Char → Option Char
  | '"' => some '"'
  | '\\' => some '\\'
  | '/' => some '/'
  | 'b' => some '\x08'
  | 'f' => some '\x0c'
  | 'n' => some '\n'
  | 'r' => some '\r'
  | 't' => some '\t'
  | _ => none

/-- The character written by escapes of UTF-16 units, a surrogate pair taking two of them. A lone
surrogate has no character and is read as the replacement character. -/
def readUnits? (text : List Char) : Option (Char × List Char) := do
  let (unit, rest) ← readHex4? text
  if 0xD800 ≤ unit ∧ unit < 0xDC00 then
    match rest with
    | '\\' :: 'u' :: more =>
      let (low, rest') ← readHex4? more
      if 0xDC00 ≤ low ∧ low < 0xE000 then
        some (Char.ofNat (0x10000 + (unit - 0xD800) * 0x400 + (low - 0xDC00)), rest')
      else some ('\ufffd', rest)
    | _ => some ('\ufffd', rest)
  else if 0xDC00 ≤ unit ∧ unit < 0xE000 then some ('\ufffd', rest)
  else some (Char.ofNat unit, rest)

/-- Reads a string after its opening quote; `done` holds its characters so far, last first. -/
def readString : Nat → List Char → List Char → Option (String × List Char)
  | 0, _, _ => none
  | fuel + 1, done, text =>
    match text with
    | [] => none
    | '"' :: rest => some (String.ofList done.reverse, rest)
    | '\\' :: 'u' :: rest =>
      match readUnits? rest with
      | some (c, rest') => readString fuel (c :: done) rest'
      | none => none
    | '\\' :: c :: rest =>
      match simpleEscape? c with
      | some c' => readString fuel (c' :: done) rest
      | none => none
    | c :: rest => if c.toNat < 0x20 ∨ c = '\\' then none else readString fuel (c :: done) rest

def spanDigits (text : List Char) : List Char × List Char := text.span Char.isDigit

/-- The exponent part of a number, zero when there is none. -/
def readExponent? (text : List Char) : Option (Int × List Char) :=
  match text with
  | e :: rest =>
    if e = 'e' ∨ e = 'E' then
      let (negative, rest) := match rest with
        | '-' :: more => (true, more)
        | '+' :: more => (false, more)
        | _ => (false, rest)
      match spanDigits rest with
      | ([], _) => none
      | (digits, rest') =>
        let n : Int := Record.decimalValue digits
        some (if negative then -n else n, rest')
    else some (0, text)
  | [] => some (0, text)

def readFraction? (text : List Char) : Option (List Char × List Char) :=
  match text with
  | '.' :: rest =>
    match spanDigits rest with
    | ([], _) => none
    | (digits, rest') => some (digits, rest')
  | _ => some ([], text)

def readNumber? (text : List Char) : Option (Number × List Char) := do
  let (negative, text) := match text with
    | '-' :: rest => (true, rest)
    | _ => (false, text)
  let (whole, rest) := spanDigits text
  match whole with
  | [] => none
  | first :: more =>
    if first = '0' ∧ more ≠ [] then none
    else
      let (fraction, rest) ← readFraction? rest
      let (exponent, rest) ← readExponent? rest
      some (Number.ofDecimal negative (Record.decimalValue (whole ++ fraction))
        (exponent - fraction.length), rest)

def readWord? : List Char → Option (Json × List Char)
  | 'n' :: 'u' :: 'l' :: 'l' :: rest => some (null, rest)
  | 't' :: 'r' :: 'u' :: 'e' :: rest => some (bool true, rest)
  | 'f' :: 'a' :: 'l' :: 's' :: 'e' :: rest => some (bool false, rest)
  | _ => none

mutual

/-- Reads a value and returns the text after it. -/
def readValue : Nat → List Char → Option (Json × List Char)
  | 0, _ => none
  | fuel + 1, text =>
    match skipSpace text with
    | '"' :: rest => (readString fuel [] rest).map fun (s, rest) => (string s, rest)
    | '[' :: rest =>
      match skipSpace rest with
      | ']' :: rest' => some (array [], rest')
      | _ => readItems fuel [] rest
    | '\x7b' :: rest =>
      match skipSpace rest with
      | '\x7d' :: rest' => some (object [], rest')
      | _ => readMembers fuel [] rest
    | text =>
      match readWord? text with
      | some found => some found
      | none => (readNumber? text).map fun (n, rest) => (number n, rest)

/-- Reads the items of an array up to its closing bracket; `done` holds those before, last first. -/
def readItems : Nat → List Json → List Char → Option (Json × List Char)
  | 0, _, _ => none
  | fuel + 1, done, text =>
    match readValue fuel text with
    | none => none
    | some (item, rest) =>
      match skipSpace rest with
      | ',' :: rest' => readItems fuel (item :: done) rest'
      | ']' :: rest' => some (array (item :: done).reverse, rest')
      | _ => none

/-- Reads the members of an object up to its closing brace. -/
def readMembers : Nat → List (String × Json) → List Char → Option (Json × List Char)
  | 0, _, _ => none
  | fuel + 1, done, text =>
    match skipSpace text with
    | '"' :: rest =>
      match readString fuel [] rest with
      | none => none
      | some (name, rest) =>
        match skipSpace rest with
        | ':' :: rest =>
          match readValue fuel rest with
          | none => none
          | some (value, rest) =>
            let done := (name, value) :: done
            match skipSpace rest with
            | ',' :: rest' => readMembers fuel done rest'
            | '\x7d' :: rest' => some (object (Record.ofAssignments done.reverse), rest')
            | _ => none
        | _ => none
    | _ => none

end

/-- Reads a whole text as one value. -/
def read? (text : String) : Option Json :=
  let chars := text.toList
  match readValue (2 * chars.length + 2) chars with
  | some (value, rest) => if skipSpace rest = [] then some value else none
  | none => none

end MarkupArena.Json
