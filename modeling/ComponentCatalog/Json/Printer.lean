import ComponentCatalog.Json.Value

/-!
# Writing JSON

A document is written with two spaces for each level of nesting, one item or
field on a line, and only with printable ASCII characters: everything else in a
string is escaped, a code point beyond the sixteen-bit range as a pair of
surrogates. An empty list or object is written on one line.
-/

namespace ComponentCatalog.Json

open Text

/-- A hexadecimal digit. -/
def hexChar (n : Nat) : Char :=
  if n < 10 then Char.ofNat ('0'.toNat + n) else Char.ofNat ('a'.toNat + (n - 10))

/-- The escape of a sixteen-bit unit. -/
def escapeUnit (n : Nat) : List Char :=
  ['\\', 'u', hexChar (n / 4096 % 16), hexChar (n / 256 % 16), hexChar (n / 16 % 16),
    hexChar (n % 16)]

/-- A code point as it is written in a string. -/
def escapePoint (p : CodePoint) : List Char :=
  let n := p.val
  if n == 0x22 then ['\\', '"']
  else if n == 0x5C then ['\\', '\\']
  else if n == 0x0A then ['\\', 'n']
  else if n == 0x0D then ['\\', 'r']
  else if n == 0x09 then ['\\', 't']
  else if n == 0x08 then ['\\', 'b']
  else if n == 0x0C then ['\\', 'f']
  else if 0x20 ≤ n && n ≤ 0x7E then [Char.ofNat n]
  else if n < 0x10000 then escapeUnit n
  else
    let m := n - 0x10000
    escapeUnit (0xD800 + m / 0x400) ++ escapeUnit (0xDC00 + m % 0x400)

/-- A string as it is written. -/
def quote (s : Wide) : List Char :=
  '"' :: s.points.flatMap escapePoint ++ ['"']

/-- A line end and the blanks in front of a line at a level of nesting. -/
def newLine (level : Nat) : List Char :=
  '\n' :: List.replicate (2 * level) ' '

mutual

/-- A value as it is written at a level of nesting. -/
def renderAt (level : Nat) : Json → List Char
  | .null => "null".toList
  | .bool true => "true".toList
  | .bool false => "false".toList
  | .number n => n.toList
  | .string s => quote s
  | .array [] => ['[', ']']
  | .array (v :: vs) =>
    '[' :: newLine (level + 1) ++ renderAt (level + 1) v ++ renderItems (level + 1) vs ++
      newLine level ++ [']']
  | .object [] => ['\x7b', '\x7d']
  | .object ((k, v) :: fs) =>
    '\x7b' :: newLine (level + 1) ++ quote k ++ [':', ' '] ++ renderAt (level + 1) v ++
      renderFields (level + 1) fs ++ newLine level ++ ['\x7d']

/-- The items of an array after the first. -/
def renderItems (level : Nat) : List Json → List Char
  | [] => []
  | v :: vs => ',' :: newLine level ++ renderAt level v ++ renderItems level vs

/-- The fields of an object after the first. -/
def renderFields (level : Nat) : List (Wide × Json) → List Char
  | [] => []
  | (k, v) :: fs =>
    ',' :: newLine level ++ quote k ++ [':', ' '] ++ renderAt level v ++ renderFields level fs

end

/-- A value as it is written to a file. -/
def render (j : Json) : String :=
  String.ofList (renderAt 0 j)

end ComponentCatalog.Json
