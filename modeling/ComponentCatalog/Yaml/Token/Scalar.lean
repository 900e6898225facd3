import ComponentCatalog.Text.Wide
import ComponentCatalog.Yaml.Token.Cursor

/-!
# Texts of scalars

A scalar is written plainly, between quotes, or as a block of lines. Whichever way,
its lines are folded: a single line break counts as a space, and of several the first
is dropped. Literal blocks keep every line break.
-/

namespace ComponentCatalog.Yaml

open Text

/-! ## Plain scalars -/

/-- The characters of a plain scalar up to a blank or a mark that ends it. -/
def plainWord (inFlow : Bool) : List Char → List Char
  | [] => []
  | c :: cs =>
    let endsKey :=
      gapFollows cs || (inFlow && [',', '[', ']', '\x7b', '\x7d'].contains (cs.headD ' '))
    if isGap c || (c == ':' && endsKey) ||
        (inFlow && [',', '?', '[', ']', '\x7b', '\x7d'].contains c) then []
    else c :: plainWord inFlow cs

/-- The line breaks after the first, with the spaces between them; nothing if a mark
that separates documents follows. -/
def plainBreaks (done : List Char) : (limit : Nat) → Cursor → Option (List Char) × Cursor
  | 0, c => (some done, c)
  | limit + 1, c =>
    if c.sees ' ' then plainBreaks done limit c.next
    else match c.lineBreak? with
      | some (b, c) =>
        if separatorFollows c.rest then (none, c) else plainBreaks (done ++ [b]) limit c
      | none => (some done, c)

/-- What stands for a line break and those that follow it. -/
def foldBreaks (first : Char) (others : List Char) : List Char :=
  if first != '\n' then first :: others else if others.isEmpty then [' '] else others

/-- The space between two words of a plain scalar, whether it has a line break, and
the place behind it. -/
def plainSpace (c : Cursor) : List Char × Bool × Cursor :=
  let (spaces, c) := c.takeWhile (· == ' ')
  match c.lineBreak? with
  | none => (spaces, false, c)
  | some (first, c) =>
    if separatorFollows c.rest then ([], true, c)
    else match plainBreaks [] c.rest.length c with
      | (none, c) => ([], true, c)
      | (some others, c) => (foldBreaks first others, true, c)

/-- The words of a plain scalar from a place on, after the space before them. -/
def plainFrom (inFlow : Bool) (indent : Int) (done space : List Char) (broken : Bool) :
    (limit : Nat) → Cursor → List Char × Bool × Cursor
  | 0, c => (done, broken, c)
  | limit + 1, c =>
    let word := plainWord inFlow c.rest
    if c.sees '#' || word.isEmpty then (done, broken, c)
    else
      let done := done ++ space ++ word
      let (space, broken, c) := plainSpace (c.skip word.length)
      if space.isEmpty || c.sees '#' || (!inFlow && (c.column : Int) < indent) then
        (done, broken, c)
      else plainFrom inFlow indent done space broken limit c

/-- A plain scalar that must be indented so far, whether a line break follows it, and
the place behind it. -/
def plainScalar (inFlow : Bool) (indent : Int) (c : Cursor) : Wide × Bool × Cursor :=
  let (text, broken, c) := plainFrom inFlow indent [] [] false c.rest.length c
  (Wide.ofString (String.ofList text), broken, c)

/-! ## Quoted scalars -/

/-- What a character after a backslash stands for. -/
def escaped? : Char → Option Nat
  | '0' => some 0x00
  | 'a' => some 0x07
  | 'b' => some 0x08
  | 't' => some 0x09
  | '\t' => some 0x09
  | 'n' => some 0x0A
  | 'v' => some 0x0B
  | 'f' => some 0x0C
  | 'r' => some 0x0D
  | 'e' => some 0x1B
  | ' ' => some 0x20
  | '"' => some 0x22
  | '\\' => some 0x5C
  | '/' => some 0x2F
  | 'N' => some 0x85
  | '_' => some 0xA0
  | 'L' => some 0x2028
  | 'P' => some 0x2029
  | _ => none

/-- The number of hexadecimal digits after a character that announces them. -/
def escapeLength? : Char → Option Nat
  | 'x' => some 2
  | 'u' => some 4
  | 'U' => some 8
  | _ => none

/-- The number that a hexadecimal digit stands for. -/
def hexDigit? (c : Char) : Option Nat :=
  if '0' ≤ c && c ≤ '9' then some (c.toNat - 48)
  else if 'a' ≤ c && c ≤ 'f' then some (c.toNat - 87)
  else if 'A' ≤ c && c ≤ 'F' then some (c.toNat - 55)
  else none

/-- The number that hexadecimal digits spell. -/
def hexNumber? (cs : List Char) : Option Nat :=
  cs.foldl (fun n c => n.bind fun n => (hexDigit? c).map (16 * n + ·)) (some 0)

/-- The line breaks and blanks at the beginning of a line of a quoted scalar. -/
def quotedBreaks (done : List Char) : (limit : Nat) → Cursor → Except Fault (List Char × Cursor)
  | 0, c => .ok (done, c)
  | limit + 1, c =>
    if separatorFollows c.rest then .error .malformed
    else
      let c := c.dropWhile fun ch => ch == ' ' || ch == '\t'
      match c.lineBreak? with
      | some (b, c) => quotedBreaks (done ++ [b]) limit c
      | none => .ok (done, c)

/-- The space between two words of a quoted scalar. -/
def quotedSpace (c : Cursor) : Except Fault (List Char × Cursor) := do
  let (blanks, c) := c.takeWhile fun ch => ch == ' ' || ch == '\t'
  match c.lineBreak? with
  | some (first, c) =>
    let (others, c) ← quotedBreaks [] (c.rest.length + 1) c
    return (foldBreaks first others, c)
  | none => if c.rest.isEmpty then throw .malformed else return (blanks, c)

/-- The code point of a number. -/
def codePoint (n : Nat) : Except Fault CodePoint :=
  if h : n < 0x110000 then .ok ⟨n, h⟩
  else .error (if n < 0x80000000 then .outOfRange else .tooLarge)

/-- What a backslash and the characters behind it stand for. -/
def escapeAt (c : Cursor) : Except Fault (List CodePoint × Cursor) := do
  match c.rest with
  | [] => throw .malformed
  | ch :: rest =>
    match escaped? ch, escapeLength? ch with
    | some n, _ => return ([← codePoint n], c.next)
    | none, some length =>
      match hexNumber? (rest.take length), decide (length ≤ rest.length) with
      | some n, true => return ([← codePoint n], c.skip (length + 1))
      | _, _ => throw .malformed
    | none, none =>
      -- a line break behind a backslash joins two lines without a space
      match c.lineBreak? with
      | some (_, c) =>
        let (breaks, c) ← quotedBreaks [] (c.rest.length + 1) c
        return (breaks.map CodePoint.ofChar, c)
      | none => throw .malformed

/-- The content of a scalar between quotes, from a place on to the closing quote. -/
def quotedFrom (double : Bool) (done : List CodePoint) :
    (limit : Nat) → Cursor → Except Fault (List CodePoint × Cursor)
  | 0, _ => .error .malformed
  | limit + 1, c => do
    match c.rest with
    | [] => throw .malformed
    | ch :: rest =>
      if double && ch == '\\' then
        let (points, c) ← escapeAt c.next
        quotedFrom double (done ++ points) limit c
      else if !double && ch == '\'' && rest.head? == some '\'' then
        quotedFrom double (done ++ [CodePoint.ofChar '\'']) limit (c.skip 2)
      else if ch == (if double then '"' else '\'') then return (done, c.next)
      else if isGap ch then
        let (space, c) ← quotedSpace c
        quotedFrom double (done ++ space.map CodePoint.ofChar) limit c
      else
        let (word, c) := c.takeWhile fun ch => !(isGap ch || ch == '\'' || ch == '"' || ch == '\\')
        -- a quote of the other kind, or a backslash between single quotes
        if word.isEmpty then quotedFrom double (done ++ [CodePoint.ofChar ch]) limit c.next
        else quotedFrom double (done ++ word.map CodePoint.ofChar) limit c

/-- A scalar between quotes, of which the first is next, and the place behind it. -/
def quotedScalar (double : Bool) (c : Cursor) : Except Fault (Wide × Cursor) := do
  let (points, c) ← quotedFrom double [] c.rest.length c.next
  return (⟨points⟩, c)

/-! ## Block scalars -/

/-- What becomes of the line breaks at the end of a block. -/
inductive Chomping where
  | strip
  | clip
  | keep
  deriving DecidableEq, Repr

/-- The chomping that a character asks for. -/
def chomping? : Char → Option Chomping
  | '+' => some .keep
  | '-' => some .strip
  | _ => none

/-- The indentation that a digit asks for. -/
def increment? (c : Char) : Option Nat :=
  if '0' ≤ c && c ≤ '9' then some (c.toNat - 48) else none

/-- The marks behind the one that starts a block, in either order. -/
def blockMarks (c : Cursor) : Except Fault (Chomping × Option Nat × Cursor) :=
  let (chomping, increment, c) :=
    match c.rest with
    | a :: rest =>
      match chomping? a, increment? a with
      | some ch, _ =>
        match rest.head?.bind increment? with
        | some i => (ch, some i, c.skip 2)
        | none => (ch, none, c.next)
      | none, some i =>
        match rest.head?.bind chomping? with
        | some ch => (ch, some i, c.skip 2)
        | none => (.clip, some i, c.next)
      | none, none => (.clip, none, c)
    | [] => (.clip, none, c)
  if increment == some 0 || !spaceFollows c.rest then .error .malformed
  else .ok (chomping, increment, c)

/-- The empty lines at the beginning of a block, and the largest column among them
and the first line. -/
def blockIndentation (done : List Char) (column : Nat) :
    (limit : Nat) → Cursor → List Char × Nat × Cursor
  | 0, c => (done, column, c)
  | limit + 1, c =>
    if c.sees ' ' then blockIndentation done (max column (c.column + 1)) limit c.next
    else match c.lineBreak? with
      | some (b, c) => blockIndentation (done ++ [b]) column limit c
      | none => (done, column, c)

/-- The empty lines between the lines of a block. -/
def blockBreaks (indent : Nat) (done : List Char) : (limit : Nat) → Cursor → List Char × Cursor
  | 0, c => (done, c)
  | limit + 1, c =>
    let c := c.dropIndent indent
    match c.lineBreak? with
    | some (b, c) => blockBreaks indent (done ++ [b]) limit c
    | none => (done, c)

/-- Whether the next character is a blank. -/
def blankFollows (c : Cursor) : Bool :=
  c.sees ' ' || c.sees '\t'

/-- The lines of a block from a place on. The result has the line break behind the
last line, if there is one, and the empty lines behind that. -/
def blockLines (folded : Bool) (indent : Nat) (done breaks : List Char) (last : List Char) :
    (limit : Nat) → Cursor → List Char × List Char × List Char × Cursor
  | 0, c => (done, last, breaks, c)
  | limit + 1, c =>
    if c.column != indent || c.rest.isEmpty then (done, last, breaks, c)
    else
      let startsBlank := blankFollows c
      let (text, c) := c.takeWhile fun ch => !isBreak ch
      let done := done ++ breaks ++ text
      let (last, c) := match c.lineBreak? with
        | some (b, c) => ([b], c)
        | none => ([], c)
      let (breaks, c) := blockBreaks indent [] (c.rest.length + 1) c
      if c.column != indent || c.rest.isEmpty then (done, last, breaks, c)
      -- lines that begin with a blank are not folded
      else if folded && last == ['\n'] && !startsBlank && !blankFollows c then
        let done := if breaks.isEmpty then done ++ [' '] else done
        blockLines folded indent done breaks last limit c
      else blockLines folded indent (done ++ last) breaks last limit c

/-- A block, of which the mark that starts it is next, inside a collection of a given
indentation, and the place behind it. -/
def blockScalar (folded : Bool) (outer : Int) (c : Cursor) : Except Fault (Wide × Cursor) := do
  let (chomping, increment, c) ← blockMarks c.next
  let c ← c.endOfLine
  let least := max 1 (outer + 1).toNat
  let (indent, breaks, c) := match increment with
    | none =>
      let (breaks, column, c) := blockIndentation [] 0 c.rest.length c
      (max least column, breaks, c)
    | some i =>
      let indent := least + i - 1
      let (breaks, c) := blockBreaks indent [] (c.rest.length + 1) c
      (indent, breaks, c)
  let (text, last, breaks, c) := blockLines folded indent [] breaks [] (c.rest.length + 1) c
  let tail := match chomping with
    | .strip => []
    | .clip => last
    | .keep => last ++ breaks
  return (Wide.ofString (String.ofList (text ++ tail)), c)

end ComponentCatalog.Yaml
