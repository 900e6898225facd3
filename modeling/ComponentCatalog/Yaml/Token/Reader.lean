import ComponentCatalog.Text.Utf8
import ComponentCatalog.Yaml.Token.Scalar

/-!
# Reading tokens

In a block, indentation starts and ends collections, and a mapping is recognised only
at the colon behind its first key: whatever might turn out to be a key is remembered
as a possible one, and when the colon comes, the mark of a key is put in front of it.
A key lies on one line and has at most 1024 characters.

Inside brackets and braces indentation does not matter, and every level has a
possible key of its own.

A text is read no further than is asked for, so what cannot be read does not show
before it is met. What may turn out to be a key is not certain before more has been
read.
-/

namespace ComponentCatalog.Yaml

/-- Something that may turn out to be the key of a mapping. -/
structure PossibleKey where
  /-- The number of tokens before it. -/
  position : Nat
  /-- Whether nothing but a key can stand there. -/
  required : Bool
  index : Nat
  line : Nat
  column : Nat

/-- What has been read and what the tokens that follow depend on. -/
structure Scanner where
  cursor : Cursor
  tokens : Array Token := #[]
  /-- The number of open brackets and braces. -/
  flowLevel : Nat := 0
  /-- The column of the innermost block collection. -/
  indent : Int := -1
  /-- The columns of those around it. -/
  indents : List Int := []
  /-- Whether a key may start here. -/
  allowKey : Bool := true
  /-- The possible keys, by the levels they are on. -/
  keys : List (Nat × PossibleKey) := []

namespace Scanner

/-- A step of reading. -/
abbrev Step := Scanner → Except Fault Scanner

/-- Adds a token. -/
def push (s : Scanner) (t : Token) : Scanner :=
  { s with tokens := s.tokens.push t }

/-- Whether brackets or braces are open. -/
def inFlow (s : Scanner) : Bool :=
  s.flowLevel != 0

/-- Moves on by a number of characters. -/
def skip (s : Scanner) (n : Nat) : Scanner :=
  { s with cursor := s.cursor.skip n }

/-! ## Possible keys -/

/-- Drops the possible keys that cannot be keys any more. -/
def dropStaleKeys : Step := fun s =>
  let isStale := fun (k : PossibleKey) =>
    k.line != s.cursor.line || s.cursor.index - k.index > 1024
  if s.keys.any fun (_, k) => isStale k && k.required then .error .malformed
  else .ok { s with keys := s.keys.filter fun (_, k) => !isStale k }

/-- Drops the possible key of the present level. -/
def dropKey : Step := fun s =>
  match s.keys.lookup s.flowLevel with
  | some k =>
    if k.required then .error .malformed
    else .ok { s with keys := s.keys.filter fun (l, _) => l != s.flowLevel }
  | none => .ok s

/-- Remembers that what comes next may be a key. -/
def saveKey : Step := fun s => do
  if !s.allowKey then return s
  -- at the column of its collection nothing but a key can stand
  let required := !s.inFlow && s.indent == s.cursor.column
  let s ← s.dropKey
  let key : PossibleKey :=
    { position := s.tokens.size, required := required, index := s.cursor.index,
      line := s.cursor.line, column := s.cursor.column }
  return { s with keys := (s.flowLevel, key) :: s.keys }

/-! ## Indentation -/

/-- Ends the block collections that are indented further than a column. -/
def unwindTo (column : Int) : (limit : Nat) → Scanner → Scanner
  | 0, s => s
  | limit + 1, s =>
    if s.indent > column then
      unwindTo column limit
        { s.push .blockEnd with indent := s.indents.headD (-1), indents := s.indents.tail }
    else s

/-- Ends the block collections that are indented further than a column, unless
brackets or braces are open. -/
def unwind (s : Scanner) (column : Int) : Scanner :=
  if s.inFlow then s else unwindTo column (s.indents.length + 1) s

/-- Whether a column starts a block collection. -/
def isDeeper (s : Scanner) (column : Nat) : Bool :=
  s.indent < column

/-- Starts a block collection at a column. -/
def deepen (s : Scanner) (column : Nat) : Scanner :=
  { s with indents := s.indent :: s.indents, indent := column }

/-! ## Marks -/

/-- The end of the text. -/
def streamEnd : Step := fun s => do
  let s ← (s.unwind (-1)).dropKey
  return { s.push .streamEnd with allowKey := false, keys := [] }

/-- A mark that separates documents. -/
def separator (t : Token) : Step := fun s => do
  let s ← (s.unwind (-1)).dropKey
  return { (s.skip 3).push t with allowKey := false }

/-- A bracket or brace that opens. -/
def openFlow (t : Token) : Step := fun s => do
  let s ← s.saveKey
  return { (s.skip 1).push t with flowLevel := s.flowLevel + 1, allowKey := true }

/-- A bracket or brace that closes. -/
def closeFlow (t : Token) : Step := fun s => do
  let s ← s.dropKey
  return { (s.skip 1).push t with flowLevel := s.flowLevel - 1, allowKey := false }

/-- A comma between the entries of a flow collection. -/
def flowEntry : Step := fun s => do
  let s ← s.dropKey
  return { (s.skip 1).push .flowEntry with allowKey := true }

/-- A mark that may start a block collection. -/
def startBlock (t : Token) (s : Scanner) : Except Fault Scanner :=
  if s.inFlow then .ok s
  else if !s.allowKey then .error .malformed
  else if s.isDeeper s.cursor.column then .ok ((s.deepen s.cursor.column).push t)
  else .ok s

/-- A dash before an entry. -/
def blockEntry : Step := fun s => do
  let s ← (← s.startBlock .blockSequenceStart).dropKey
  return { (s.skip 1).push .blockEntry with allowKey := true }

/-- A question mark before a key. -/
def keyMark : Step := fun s => do
  let s ← (← s.startBlock .blockMappingStart).dropKey
  return { (s.skip 1).push .key with allowKey := !s.inFlow }

/-- A token put in front of the one at a position. -/
def insertAt (ts : Array Token) (i : Nat) (t : Token) : Array Token :=
  ts.extract 0 i ++ #[t] ++ ts.extract i ts.size

/-- A colon before a value. -/
def valueMark : Step := fun s => do
  match s.keys.lookup s.flowLevel with
  | some k =>
    -- the mark of the key is put where the key begins, behind which more has been read by now
    let s := { s with keys := s.keys.filter (fun (l, _) => l != s.flowLevel)
                      tokens := insertAt s.tokens k.position .key, allowKey := false }
    -- the first key of a mapping starts it
    let s := if !s.inFlow && s.isDeeper k.column then
        let deeper := s.deepen k.column
        { deeper with tokens := insertAt deeper.tokens k.position .blockMappingStart }
      else s
    return (s.skip 1).push .value
  | none =>
    let s ← (← s.startBlock .blockMappingStart).dropKey
    return { (s.skip 1).push .value with allowKey := !s.inFlow }

/-! ## Names and tags -/

/-- Whether a character may stand in the name of an anchor. -/
def isNameChar (c : Char) : Bool :=
  c.isAlphanum || c == '-' || c == '_'

/-- An anchor or an alias. -/
def nameMark (token : String → Token) : Step := fun s => do
  let s ← s.saveKey
  let (name, c) := s.cursor.next.takeWhile isNameChar
  let ends := match c.rest with
    | [] => true
    | ch :: _ => isGap ch || ['?', ':', ',', ']', '\x7d', '%', '@', '\x60'].contains ch
  if name.isEmpty || !ends then throw .malformed
  return { { s with cursor := c }.push (token (String.ofList name)) with allowKey := false }

/-- The bytes that percent signs with two hexadecimal digits spell. -/
def percentBytes (done : List UInt8) : (limit : Nat) → Cursor → Except Fault (List UInt8 × Cursor)
  | 0, c => .ok (done, c)
  | limit + 1, c =>
    match c.rest with
    | '%' :: a :: b :: _ =>
      match hexNumber? [a, b] with
      | some n => percentBytes (done ++ [n.toUInt8]) limit (c.skip 3)
      | none => .error .malformed
    | '%' :: _ => .error .malformed
    | _ => .ok (done, c)

/-- Whether a character may stand in a tag. -/
def isTagChar (c : Char) : Bool :=
  c.isAlphanum || ("-;/?:@&=+$,_.!~*\x27()[]%".toList).contains c

/-- The characters of a tag, with those that are written as bytes. -/
def tagText (done : List Char) : (limit : Nat) → Cursor → Except Fault (List Char × Cursor)
  | 0, c => .ok (done, c)
  | limit + 1, c => do
    let (plain, c) := c.takeWhile fun ch => isTagChar ch && ch != '%'
    if c.sees '%' then
      let (bytes, c) ← percentBytes [] c.rest.length c
      match Text.decode? bytes with
      | some text => tagText (done ++ plain ++ text.toList) limit c
      | none => throw .malformed
    else return (done ++ plain, c)

/-- The text of a tag; there has to be one. -/
def tagSuffix (c : Cursor) : Except Fault (String × Cursor) := do
  let (text, after) ← tagText [] (c.rest.length + 1) c
  if after.index == c.index then throw .malformed
  return (String.ofList text, after)

/-- A handle: an exclamation mark, or a name between two. -/
def tagHandle (c : Cursor) : Except Fault (String × Cursor) :=
  match c.rest with
  | '!' :: rest =>
    if rest.head? == some ' ' then .ok ("!", c.next)
    else
      let name := rest.takeWhile isNameChar
      if (rest.drop name.length).head? == some '!' then
        .ok ("!" ++ String.ofList name ++ "!", c.skip (name.length + 2))
      else .error .malformed
  | _ => .error .malformed

/-- The handle and the text of a tag, of which the exclamation mark is next. -/
def tagParts (c : Cursor) : Except Fault (Option String × String × Cursor) := do
  match c.rest.tail with
  | '<' :: _ =>
    let (suffix, c) ← tagSuffix (c.skip 2)
    if c.sees '>' then return (none, suffix, c.next) else throw .malformed
  | rest =>
    if gapFollows rest then return (none, "!", c.next)
    let word := rest.takeWhile fun ch => !(ch == ' ' || isBreak ch)
    if word.contains '!' then
      let (handle, c) ← tagHandle c
      let (suffix, c) ← tagSuffix c
      return (some handle, suffix, c)
    else
      let (suffix, c) ← tagSuffix c.next
      return (some "!", suffix, c)

/-- A tag. -/
def tagMark : Step := fun s => do
  let s ← s.saveKey
  let (handle, suffix, c) ← tagParts s.cursor
  if !spaceFollows c.rest then throw .malformed
  return { { s with cursor := c }.push (.tag handle suffix) with allowKey := false }

/-! ## Directives -/

/-- A number of a version. -/
def versionNumber (c : Cursor) : Except Fault (Nat × Cursor) :=
  let (digits, c) := c.takeWhile Char.isDigit
  if digits.isEmpty then .error .malformed
  else if digitLimit < digits.length then .error .outOfRange
  else .ok (digits.foldl (fun n d => 10 * n + (d.toNat - 48)) 0, c)

/-- The directive of a given name. -/
def directiveValue (name : String) (c : Cursor) : Except Fault (Directive × Cursor) := do
  if name == "YAML" then
    let (major, c) ← versionNumber c.dropSpaces
    if !c.sees '.' then throw .malformed
    let (_, c) ← versionNumber c.next
    if !spaceFollows c.rest then throw .malformed
    return (.version major, c)
  else if name == "TAG" then
    let (handle, c) ← tagHandle c.dropSpaces
    if !c.sees ' ' then throw .malformed
    let (start, c) ← tagSuffix c.dropSpaces
    if !spaceFollows c.rest then throw .malformed
    return (.tagHandle handle start, c)
  else return (.other, c.dropWhile fun ch => !isBreak ch)

/-- A directive, of which the percent sign is next. -/
def directive : Step := fun s => do
  let s ← (s.unwind (-1)).dropKey
  let (name, c) := s.cursor.next.takeWhile isNameChar
  if name.isEmpty || !spaceFollows c.rest then throw .malformed
  let (d, c) ← directiveValue (String.ofList name) c
  let c ← c.endOfLine
  return { { s with cursor := c }.push (.directive d) with allowKey := false }

/-! ## Scalars -/

/-- A block of lines. -/
def block (folded : Bool) : Step := fun s => do
  let s ← s.dropKey
  let (text, c) ← blockScalar folded s.indent s.cursor
  return { { s with cursor := c }.push (.scalar text false) with allowKey := true }

/-- A scalar between quotes. -/
def quoted (double : Bool) : Step := fun s => do
  let s ← s.saveKey
  let (text, c) ← quotedScalar double s.cursor
  return { { s with cursor := c }.push (.scalar text false) with allowKey := false }

/-- A plain scalar. -/
def plain : Step := fun s => do
  let s ← s.saveKey
  let (text, broken, c) := plainScalar s.inFlow (s.indent + 1) s.cursor
  return { { s with cursor := c }.push (.scalar text true) with allowKey := broken }

/-- Whether a plain scalar can start here. -/
def plainFollows (s : Scanner) : Bool :=
  match s.cursor.rest with
  | [] => false
  | c :: rest =>
    !(isGap c || ("-?:,[]\x7b\x7d#&*!|>\x27\"%@\x60".toList).contains c) ||
      (!gapFollows rest && (c == '-' || (!s.inFlow && (c == '?' || c == ':'))))

/-! ## All together -/

/-- Moves on to the next token. -/
def toNext : (limit : Nat) → Scanner → Scanner
  | 0, s => s
  | limit + 1, s =>
    let c := s.cursor.dropSpaces.dropComment
    match c.lineBreak? with
    | some (_, c) => toNext limit { s with cursor := c, allowKey := s.allowKey || !s.inFlow }
    | none => { s with cursor := c }

/-- Reads what starts here. -/
def read : Step := fun s =>
  match s.cursor.rest with
  | [] => s.streamEnd
  | c :: rest =>
    let atMargin := s.cursor.column == 0
    if c == '%' && atMargin then s.directive
    else if c == '-' && atMargin && separatorFollows s.cursor.rest then s.separator .documentStart
    else if c == '.' && atMargin && separatorFollows s.cursor.rest then s.separator .documentEnd
    else if c == '[' then s.openFlow .flowSequenceStart
    else if c == '\x7b' then s.openFlow .flowMappingStart
    else if c == ']' then s.closeFlow .flowSequenceEnd
    else if c == '\x7d' then s.closeFlow .flowMappingEnd
    else if c == ',' then s.flowEntry
    else if c == '-' && gapFollows rest then s.blockEntry
    else if c == '?' && (s.inFlow || gapFollows rest) then s.keyMark
    else if c == ':' && (s.inFlow || gapFollows rest) then s.valueMark
    else if c == '*' then s.nameMark .aliasTo
    else if c == '&' then s.nameMark .anchor
    else if c == '!' then s.tagMark
    else if c == '|' && !s.inFlow then s.block false
    else if c == '>' && !s.inFlow then s.block true
    else if c == '\'' then s.quoted false
    else if c == '"' then s.quoted true
    else if s.plainFollows then s.plain
    else .error .malformed

/-- Reads one token, or several that start at one place. -/
def fetch : Step := fun s => do
  let s ← (toNext (s.cursor.rest.length + 1) s).dropStaleKeys
  (s.unwind s.cursor.column).read

/-- The tokens that are certain: those before the first that may turn out to be a
key. -/
def settled (s : Scanner) : List Token :=
  match (s.keys.map fun (_, k) => k.position).min? with
  | some position => s.tokens.toList.take position
  | none => s.tokens.toList

/-- The tokens up to the end of the text, or up to where it cannot be read any
further. -/
def readAll : (limit : Nat) → Scanner → List Token
  | 0, s => s.settled ++ [.broken .malformed]
  | limit + 1, s =>
    match s.dropStaleKeys with
    | .error f => s.settled ++ [.broken f]
    | .ok s =>
      match s.fetch with
      | .error f => s.settled ++ [.broken f]
      | .ok next =>
        if next.tokens.back? == some .streamEnd then next.tokens.toList else readAll limit next

end Scanner

/-- Whether a character may stand in a YAML text. -/
def isPrintable (c : Char) : Bool :=
  let n := c.toNat
  n == 0x09 || n == 0x0A || n == 0x0D || (0x20 ≤ n && n ≤ 0x7E) || n == 0x85 ||
    (0xA0 ≤ n && n ≤ 0xD7FF) || (0xE000 ≤ n && n ≤ 0xFFFD) || 0x10000 ≤ n

/-- The tokens of a text. A byte order mark before it is passed over. -/
def tokens (text : String) : List Token :=
  let cs := text.toList
  if !cs.all isPrintable then [.broken .malformed]
  else
    let start : Cursor := { rest := cs }
    let start := if start.sees '\ufeff' then start.next else start
    Scanner.readAll (cs.length + 2) { cursor := start }

end ComponentCatalog.Yaml
