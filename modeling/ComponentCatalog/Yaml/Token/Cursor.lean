import ComponentCatalog.Yaml.Token

/-!
# Places in a YAML text

A cursor is what is left of a text, together with the place that has been reached.
Columns matter, because indentation does. A line may end in any of the line breaks
of Unicode; those of one character each become a newline, but for the separators of
lines and paragraphs, which stay as they are.
-/

namespace ComponentCatalog.Yaml

/-- Whether a character ends a line. -/
def isBreak (c : Char) : Bool :=
  c == '\n' || c == '\r' || c == '\x85' || c == '\u2028' || c == '\u2029'

/-- Whether a character is a blank or ends a line. -/
def isGap (c : Char) : Bool :=
  c == ' ' || c == '\t' || isBreak c

/-- Whether what follows starts with a blank or the end of a line or of the text. -/
def gapFollows : List Char → Bool
  | [] => true
  | c :: _ => isGap c

/-- Whether what follows starts with the end of a line or of the text. -/
def endFollows : List Char → Bool
  | [] => true
  | c :: _ => isBreak c

/-- Whether what follows starts with a space or the end of a line or of the text. -/
def spaceFollows : List Char → Bool
  | [] => true
  | c :: _ => c == ' ' || isBreak c

/-- Whether what follows is a mark that separates documents. -/
def separatorFollows : List Char → Bool
  | '-' :: '-' :: '-' :: rest => gapFollows rest
  | '.' :: '.' :: '.' :: rest => gapFollows rest
  | _ => false

/-- A place in a text. -/
structure Cursor where
  /-- What follows the place. -/
  rest : List Char
  /-- The number of characters before the place. -/
  index : Nat := 0
  line : Nat := 0
  column : Nat := 0

namespace Cursor

/-- Whether the next character is a given one. -/
def sees (c : Cursor) (ch : Char) : Bool :=
  c.rest.head? == some ch

/-- The place behind one character. -/
def next (c : Cursor) : Cursor :=
  match c.rest with
  | [] => c
  | ch :: rest =>
    if isBreak ch && !(ch == '\r' && rest.head? == some '\n') then
      { rest := rest, index := c.index + 1, line := c.line + 1, column := 0 }
    else
      { c with rest := rest, index := c.index + 1,
               column := if ch == '\ufeff' then c.column else c.column + 1 }

/-- The place behind a number of characters. -/
def skip (c : Cursor) : Nat → Cursor
  | 0 => c
  | n + 1 => c.next.skip n

/-- The characters up to the first that fails a test, and the place behind them. -/
def takeWhile (c : Cursor) (test : Char → Bool) : List Char × Cursor :=
  let taken := c.rest.takeWhile test
  (taken, c.skip taken.length)

/-- The place behind the characters up to the first that fails a test. -/
def dropWhile (c : Cursor) (test : Char → Bool) : Cursor :=
  (c.takeWhile test).2

/-- The place behind spaces. -/
def dropSpaces (c : Cursor) : Cursor :=
  c.dropWhile (· == ' ')

/-- The place behind spaces, as long as they are left of a column. -/
def dropIndent (c : Cursor) (column : Nat) : Cursor :=
  c.skip (min (c.rest.takeWhile (· == ' ')).length (column - c.column))

/-- The place behind a comment, if one starts here. -/
def dropComment (c : Cursor) : Cursor :=
  if c.sees '#' then c.dropWhile fun ch => !isBreak ch else c

/-- A line break, if there is one here: how it counts, and the place behind it. -/
def lineBreak? (c : Cursor) : Option (Char × Cursor) :=
  match c.rest with
  | '\r' :: '\n' :: _ => some ('\n', c.skip 2)
  | ch :: _ =>
    if ch == '\u2028' || ch == '\u2029' then some (ch, c.next)
    else if isBreak ch then some ('\n', c.next)
    else none
  | [] => none

/-- The place behind a line break, if there is one here. -/
def dropBreak (c : Cursor) : Cursor :=
  match c.lineBreak? with
  | some (_, c) => c
  | none => c

/-- The place behind the rest of a line that may hold only spaces and a comment. -/
def endOfLine (c : Cursor) : Except Fault Cursor :=
  let c := c.dropSpaces.dropComment
  if endFollows c.rest then .ok c.dropBreak else .error .malformed

end Cursor

end ComponentCatalog.Yaml
