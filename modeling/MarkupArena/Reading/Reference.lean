import MarkupArena.Reading.ReferenceTable
/-!
Character references. A numeric reference names a code point, with the usual remapping of the C1
controls; a named one is the longest name of the table that the text starts with.
-/
namespace MarkupArena.Reading

/-- What the code points 0x80 to 0x9F stand for, where they do not stand for themselves. -/
def remapped : List (Nat × Nat) := [
  (0x80, 0x20AC), (0x82, 0x201A), (0x83, 0x0192), (0x84, 0x201E), (0x85, 0x2026), (0x86, 0x2020),
  (0x87, 0x2021), (0x88, 0x02C6), (0x89, 0x2030), (0x8A, 0x0160), (0x8B, 0x2039), (0x8C, 0x0152),
  (0x8E, 0x017D), (0x91, 0x2018), (0x92, 0x2019), (0x93, 0x201C), (0x94, 0x201D), (0x95, 0x2022),
  (0x96, 0x2013), (0x97, 0x2014), (0x98, 0x02DC), (0x99, 0x2122), (0x9A, 0x0161), (0x9B, 0x203A),
  (0x9C, 0x0153), (0x9E, 0x017E), (0x9F, 0x0178)]

def replacement : Char := '\ufffd'

/-- The character of a numeric reference. Zero, surrogates and what lies beyond the last code point
have none and become the replacement character. -/
def charOfCode (n : Nat) : Char :=
  if n = 0 ∨ 0x10FFFF < n ∨ (0xD800 ≤ n ∧ n < 0xE000) then replacement
  else Char.ofNat ((remapped.lookup n).getD n)

def digitValue (c : Char) : Nat :=
  if c.isDigit then c.toNat - '0'.toNat
  else if 'a' ≤ c ∧ c ≤ 'f' then c.toNat - 'a'.toNat + 10
  else c.toNat - 'A'.toNat + 10

def isHexDigit (c : Char) : Bool :=
  c.isDigit || ('a' ≤ c && c ≤ 'f') || ('A' ≤ c && c ≤ 'F')

def codeOf (base : Nat) (digits : List Char) : Nat :=
  digits.foldl (fun n c => n * base + digitValue c) 0

/-- How the digits of a numeric reference are written. -/
structure Radix where
  base : Nat
  isDigit : Char → Bool
  /-- The most digits of a reference that has a value: with one more, the power of the base is
  beyond the numbers of double precision. -/
  most : Nat

def Radix.decimal : Radix := ⟨10, Char.isDigit, 308⟩

def Radix.hexadecimal : Radix := ⟨16, isHexDigit, 255⟩

/-- A reference: what it stands for, if it has a value, and how many characters after its ampersand
it takes. -/
structure Reference where
  text? : Option (List Char)
  length : Nat
  deriving DecidableEq, Repr

/-- A numeric reference with `skip` characters before its digits. -/
def numeric? (skip : Nat) (radix : Radix) (text : List Char) : Option Reference :=
  match text.takeWhile radix.isDigit with
  | [] => none
  | digits =>
    let closed := (text.drop digits.length).head? = some ';'
    let length := skip + digits.length + if closed then 1 else 0
    if digits.length ≤ radix.most then
      some ⟨some [charOfCode (codeOf radix.base digits)], length⟩
    else some ⟨none, length⟩

/-- A name that a semicolon closes. -/
def closed? (text : List Char) : Option Reference :=
  let name := text.takeWhile Char.isAlphanum
  if text[name.length]? = some ';' then
    (textOfReference? name).map fun found => ⟨some found, name.length + 1⟩
  else none

/-- The longest name without a semicolon. Within an attribute value it does not count before an
equals sign, a letter or a digit. -/
def bare? (inAttribute : Bool) (text : List Char) : Option Reference := do
  let name ← (bareReferences.map String.toList).find? fun name => name.isPrefixOf text
  let continued := (text[name.length]?.map fun c => c == '=' || c.isAlphanum).getD false
  if inAttribute && continued then none
  else (textOfReference? name).map fun found => ⟨some found, name.length⟩

/-- The reference that a text after an ampersand starts with. -/
def reference? (inAttribute : Bool) (text : List Char) : Option Reference :=
  match text with
  | '#' :: 'x' :: rest => numeric? 2 .hexadecimal rest
  | '#' :: 'X' :: rest => numeric? 2 .hexadecimal rest
  | '#' :: rest => numeric? 1 .decimal rest
  | _ => (closed? text).or (bare? inAttribute text)

/-- Replaces every reference by what it stands for and puts the result after `done`, whose last
character comes first. -/
def decodeAfter? (inAttribute : Bool) (done : List Char) : List Char → Option (List Char)
  | [] => some done.reverse
  | c :: rest =>
    match if c = '&' then reference? inAttribute rest else none with
    | none => decodeAfter? inAttribute (c :: done) rest
    | some found =>
      match found.text? with
      | none => none
      | some text => decodeAfter? inAttribute (text.reverse ++ done) (rest.drop found.length)
termination_by text => text.length

/-- Replaces every reference by what it stands for, if all have a value. -/
def decode? (inAttribute : Bool) (text : List Char) : Option (List Char) :=
  decodeAfter? inAttribute [] text

/-- Every line end becomes a line feed. -/
def normalizeNewlines : List Char → List Char
  | [] => []
  | '\r' :: '\n' :: rest => '\n' :: normalizeNewlines rest
  | c :: rest => (if c = '\r' then '\n' else c) :: normalizeNewlines rest

/-- A NUL in markup becomes the replacement character. -/
def withoutNul (c : Char) : Char := if c = '\x00' then replacement else c

end MarkupArena.Reading
