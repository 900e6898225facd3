import ComponentCatalog.Syntax.Dialect
import ComponentCatalog.Syntax.Tree
import Std.Data.TreeSet

/-!
# Reading a source from left to right

The grammar is written with small readers that move a cursor over the
characters of a source. A reader either yields something and moves the cursor,
or fails and leaves it where it was, so that the next alternative starts from
the same place. The source itself is given to every reader (`Input`) and is no
part of what moves, so that all readers read the same characters.

There is no separate pass that cuts the source into tokens: whether `/` begins
a regular expression, or `>>` is one operator or two closing brackets, depends
on the phrase that is being read, and the reader of that phrase knows.

Some phrases can only be told apart by trying. `(a, b)` is a parameter list or
an expression, depending on what follows the bracket. `speculate` remembers
where such a trial has failed, so that trials nested in one another are not
repeated and reading takes time polynomial in the length of the source.
-/

namespace ComponentCatalog.Syntax

/-- The trials whose failures are remembered. -/
inductive Trial where
  | arrow
  | typedArrow
  | functionType
  | block
  | generic
  deriving DecidableEq, Ord

/-- A source, as readers are given it. -/
structure Input where
  /-- The characters of the source. -/
  chars : Array Char
  /-- The dialect the source is written in. -/
  dialect : Dialect

/-- Trials with the places where they were made. -/
abbrev Trials :=
  Std.TreeSet (Trial × Nat) (compareLex (compareOn Prod.fst) (compareOn Prod.snd))

/-- A place in a source. -/
structure Cursor where
  /-- The position of the next character. -/
  pos : Nat
  /-- The trials that are known to fail, with their places. -/
  failed : Trials := {}

/-- A reader: it yields something and moves the cursor, or it fails. -/
abbrev Parse := ReaderT Input (EStateM Unit Cursor)

/-- A failing reader leaves the cursor where it was, and keeps what has been
learnt about failing trials. -/
instance : EStateM.Backtrackable Nat Cursor where
  save c := c.pos
  restore c p := { c with pos := p }

namespace Parse

/-- The reader that fails. -/
def fail {α : Type} : Parse α :=
  throw ()

/-- Fails unless the condition holds. -/
def guard (b : Bool) : Parse Unit :=
  if b then pure () else fail

/-- The position of the cursor. -/
def here : Parse Nat :=
  return (← get).pos

/-- Moves the cursor to a position. -/
def goTo (p : Nat) : Parse Unit :=
  modify fun c => { c with pos := p }

/-- Reads, then puts the cursor back; tells whether the reading succeeded. -/
def succeeds {α : Type} (p : Parse α) : Parse Bool := do
  let start ← here
  try
    let _ ← p
    goTo start
    return true
  catch _ => return false

/-- What a reader yields, or nothing if it fails. -/
def option {α : Type} (p : Parse α) : Parse (Option α) :=
  try
    let a ← p
    return some a
  catch _ => return none

/-- Runs a trial, unless it is known to fail at this place, and remembers a
failure. -/
def speculate {α : Type} (t : Trial) (p : Parse α) : Parse α := do
  let start ← here
  -- a trial comes to the same whenever it is made at the same place
  if (← get).failed.contains (t, start) then fail
  else
    try p
    catch _ =>
      modify fun c => { c with failed := c.failed.insert (t, start) }
      fail

/-! ## Characters -/

/-- The character at a position, if the source has one there. -/
def charAt (p : Nat) : Parse (Option Char) :=
  return (← read).chars[p]?

/-- Whether the characters from a position on spell the given text. -/
def spells (chars : Array Char) (p : Nat) : List Char → Bool
  | [] => true
  | c :: cs => chars[p]? == some c && spells chars (p + 1) cs

/-- The first position from `p` on whose character does not satisfy the test,
looking at no more than `limit` characters. -/
def skipWhile (chars : Array Char) (test : Char → Bool) (p : Nat) : (limit : Nat) → Nat
  | 0 => p
  | limit + 1 =>
    match chars[p]? with
    | some c => if test c then skipWhile chars test (p + 1) limit else p
    | none => p

/-- Code points of the spaces that may stand between two words. -/
def isSpacePoint (n : Nat) : Bool :=
  (0x09 ≤ n && n ≤ 0x0D) || n == 0x20 || n == 0xA0 || n == 0x1680 ||
    (0x2000 ≤ n && n ≤ 0x200B) || n == 0x2028 || n == 0x2029 || n == 0x202F ||
    n == 0x205F || n == 0x2060 || n == 0x3000 || n == 0xFEFF

/-- Whether a character may stand between two words. -/
def isSpace (c : Char) : Bool :=
  isSpacePoint c.toNat

/-- Whether a character may stand inside a name. Everything may that is
neither a control, nor a space, nor one of the marks of the language. -/
def isNameChar (c : Char) : Bool :=
  0x1F < c.toNat && !isSpace c &&
    !(":;`\"'@#.,|^&<=>+-*/\\%?!~()[]\x7b\x7d".toList.contains c)

/-- Whether a character may begin a name. -/
def isNameStart (c : Char) : Bool :=
  isNameChar c && !c.isDigit

/-! ## What stands between two tokens -/

/-- The end of a comment that begins at `p`, if one does. A line comment ends
before the line end, a block comment after its closing mark. -/
def commentEnd? (chars : Array Char) (p : Nat) : Option Nat :=
  if chars[p]? != some '/' then none
  else if chars[p + 1]? == some '/' then
    let inLine := fun (c : Char) =>
      c != '\n' && c != '\r' && c.toNat != 0x2028 && c.toNat != 0x2029
    some (skipWhile chars inLine (p + 2) chars.size)
  else if chars[p + 1]? == some '*' then closing (p + 2) chars.size
  else none
where
  /-- The position after the first closing mark from `p` on. -/
  closing (p : Nat) : (limit : Nat) → Option Nat
    | 0 => none
    | limit + 1 =>
      if chars[p]? == some '*' && chars[p + 1]? == some '/' then some (p + 2)
      else if p < chars.size then closing (p + 1) limit
      else none

/-- The position of the next token from `p` on, and whether a line end was
crossed on the way. A line end inside a block comment does not count. -/
def tokenStart (chars : Array Char) (p : Nat) (crossed : Bool) : (limit : Nat) → Nat × Bool
  | 0 => (p, crossed)
  | limit + 1 =>
    match chars[p]? with
    | none => (p, crossed)
    | some c =>
      if isSpace c then tokenStart chars (p + 1) (crossed || c == '\n') limit
      else match commentEnd? chars p with
        | some e => tokenStart chars e crossed limit
        | none => (p, crossed)

/-- The position of the next token, and whether it is on a later line. -/
def ahead : Parse (Nat × Bool) := do
  let chars := (← read).chars
  return tokenStart chars (← here) false (chars.size + 1)

/-- Moves to the next token. -/
def skipGap : Parse Unit := do
  goTo (← ahead).1

/-- Whether the next token is on a later line. -/
def lineEndAhead : Parse Bool :=
  return (← ahead).2

/-- The first character of the next token. -/
def peek : Parse (Option Char) := do
  charAt (← ahead).1

/-- Whether no token is left. -/
def atEnd : Parse Bool :=
  return (← peek).isNone

/-! ## Leaves and branches -/

/-- A leaf from a position up to the cursor. -/
def leafFrom (kind : Kind) (start : Nat) : Parse Node :=
  return .mk kind none start (← here) []

/-- A node over its children, which are not empty; it covers them from the
start of the first to the end of the last. -/
def branch (kind : Kind) (children : List Node) : Node :=
  .mk kind none ((children.head?.map Node.start).getD 0)
    ((children.getLast?.map Node.stop).getD 0) children

/-- Whether the next token starts with the given characters. -/
def looksAt (text : String) : Parse Bool := do
  let p := (← ahead).1
  return spells (← read).chars p text.toList

/-- Reads the given punctuation. -/
def mark (text : String) : Parse Node := do
  skipGap
  let start ← here
  guard (spells (← read).chars start text.toList)
  goTo (start + text.length)
  leafFrom (.token text) start

/-- Reads the given punctuation where no longer operator begins. -/
def markNotBefore (text : String) (followers : List Char) : Parse Node := do
  let m ← mark text
  match ← charAt m.stop with
  | some c => if followers.contains c then fail else return m
  | none => return m

/-- The end of the unicode escape that begins at `p`, if one does: four
hexadecimal digits, or any number of them in braces. -/
def escapeEnd? (chars : Array Char) (p : Nat) : Option Nat :=
  if chars[p]? == some '\\' && chars[p + 1]? == some 'u' then
    if chars[p + 2]? == some '\x7b' then
      let e := skipWhile chars isHex (p + 3) chars.size
      if p + 3 < e && chars[e]? == some '\x7d' then some (e + 1) else none
    else
      let e := skipWhile chars isHex (p + 2) 4
      if e == p + 6 then some e else none
  else none
where
  /-- Whether a character is a hexadecimal digit. -/
  isHex (c : Char) : Bool :=
    c.isDigit || ('a' ≤ c && c ≤ 'f') || ('A' ≤ c && c ≤ 'F')

/-- The end of the name characters from `p` on. -/
def nameEnd (chars : Array Char) (p : Nat) : (limit : Nat) → Nat
  | 0 => p
  | limit + 1 =>
    match chars[p]? with
    | none => p
    | some c =>
      if isNameChar c then nameEnd chars (p + 1) limit
      else match escapeEnd? chars p with
        | some e => nameEnd chars e limit
        | none => p

/-- Whether a name begins at a position. -/
def nameBegins (chars : Array Char) (p : Nat) : Bool :=
  match chars[p]? with
  | some c => isNameStart c || (escapeEnd? chars p).isSome
  | none => false

/-- The text of the word that is the next token, without reading it; empty if
the next token is not a word. -/
def wordAhead : Parse String := do
  let p := (← ahead).1
  let chars := (← read).chars
  if nameBegins chars p then
    return String.ofList (chars.extract p (nameEnd chars p chars.size)).toList
  else return ""

/-- Whether the next token is the given word. -/
def atWord (w : String) : Parse Bool :=
  return (← wordAhead) == w

/-- Reads a word of any spelling as a node of a given kind. -/
def name (kind : Kind) : Parse Node := do
  skipGap
  let start ← here
  let chars := (← read).chars
  guard (nameBegins chars start)
  goTo (nameEnd chars start chars.size)
  leafFrom kind start

/-- Reads the given word. -/
def word (w : String) : Parse Node := do
  guard (← atWord w)
  name (.token w)

/-! ## Sequences -/

/-- What a reader yields as a list of one, or the empty list if it fails. -/
def maybe (p : Parse Node) : Parse (List Node) :=
  try
    let n ← p
    return [n]
  catch _ => return []

/-- What a reader of several nodes yields, or nothing if it fails. -/
def maybeAll (p : Parse (List Node)) : Parse (List Node) :=
  try p
  catch _ => return []

/-- Runs a reader until it fails or stops moving, at most `limit` times. -/
def repeatFrom (p : Parse (List Node)) (done : List (List Node)) :
    (limit : Nat) → Parse (List Node)
  | 0 => return done.reverse.flatten
  | limit + 1 => do
    let start ← here
    match ← option p with
    | none => return done.reverse.flatten
    | some ns =>
      -- a reader that does not move would never stop
      if (← here) == start then return done.reverse.flatten
      else repeatFrom p (ns :: done) limit

/-- The nodes of a reader run as often as it succeeds. -/
def many (p : Parse (List Node)) : Parse (List Node) := do
  repeatFrom p [] ((← read).chars.size - (← here) + 1)

/-- Runs a reader until a stop is reached. The reader may not fail before it. -/
def untilFrom (stop : Parse Bool) (p : Parse (List Node)) (done : List (List Node)) :
    (limit : Nat) → Parse (List Node)
  | 0 => fail
  | limit + 1 => do
    if ← stop then return done.reverse.flatten
    else
      let start ← here
      let ns ← p
      if (← here) == start then fail
      else untilFrom stop p (ns :: done) limit

/-- The nodes of a reader run until a stop is reached. -/
def manyUntil (stop : Parse Bool) (p : Parse (List Node)) : Parse (List Node) := do
  untilFrom stop p [] ((← read).chars.size - (← here) + 1)

/-- One or more phrases with a mark between each two. -/
def separated (p : Parse (List Node)) (sep : Parse Node) : Parse (List Node) := do
  let first ← p
  let rest ← many do
    let s ← sep
    let n ← p
    return s :: n
  return first ++ rest

/-- The end of a statement or member: a semicolon, or the place where a line
end, a closing brace or the end of the source stands for one. -/
def statementEnd : Parse (List Node) := do
  match ← peek with
  | none => return []
  | some ';' => return [← mark ";"]
  | some '\x7d' => return []
  | some _ => if ← lineEndAhead then return [] else fail

end Parse

end ComponentCatalog.Syntax
