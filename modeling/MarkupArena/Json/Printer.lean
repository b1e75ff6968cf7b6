import MarkupArena.Json.Basic
/-!
Writing JSON without spaces. Members come in order of enumeration; a number that is not finite is
written as `null`.
-/
namespace MarkupArena.Json

def hexText (n : Nat) : List Char :=
  let digits := Nat.toDigits 16 n
  List.replicate (4 - digits.length) '0' ++ digits

/-- Escapes what a string may not hold: quotes, backslashes and control characters. -/
def escapeChar (c : Char) : List Char :=
  if c = '"' then ['\\', '"']
  else if c = '\\' then ['\\', '\\']
  else if c = '\x08' then ['\\', 'b']
  else if c = '\x0c' then ['\\', 'f']
  else if c = '\n' then ['\\', 'n']
  else if c = '\r' then ['\\', 'r']
  else if c = '\t' then ['\\', 't']
  else if c.toNat < 0x20 then '\\' :: 'u' :: hexText c.toNat
  else [c]

def quote (s : String) : String :=
  "\"" ++ String.ofList (s.toList.flatMap escapeChar) ++ "\""

def numberText : Number → String
  | .finite negative mantissa exponent => (Number.finite negative mantissa exponent).text
  | _ => "null"

def commaSeparated (parts : List String) : String := ",".intercalate parts

mutual

def print : Json → String
  | null => "null"
  | bool true => "true"
  | bool false => "false"
  | number n => numberText n
  | string s => quote s
  | array items => "[" ++ commaSeparated (printItems items) ++ "]"
  | object members =>
    let parts := (Record.enumerate (printMembers members)).map fun (name, text) =>
      quote name ++ ":" ++ text
    "\x7b" ++ commaSeparated parts ++ "\x7d"

def printItems : List Json → List String
  | [] => []
  | item :: rest => print item :: printItems rest

def printMembers : List (String × Json) → List (String × String)
  | [] => []
  | (name, value) :: rest => (name, print value) :: printMembers rest

end

end MarkupArena.Json
