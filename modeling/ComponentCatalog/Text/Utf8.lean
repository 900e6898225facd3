/-!
# UTF-8

Files hold bytes. `decode?` is the text they spell, and there is none if a single
byte is out of place: no surrogates, no overlong forms, nothing beyond the last
code point, nothing cut short. `decodeLossy` puts a replacement character in the
place of every longest run of bytes that begins a character and does not finish
it, and of every byte that begins none.

Text read from a file has its line ends unified: a carriage return, alone or
before a line feed, is a line feed.
-/

namespace ComponentCatalog.Text

/-- What the first byte of a character says: the bits it holds, the number of bytes
that follow, and the range in which the first of those must lie. -/
def leadByte? (b : UInt8) : Option (Nat × Nat × UInt8 × UInt8) :=
  let n := b.toNat
  if n < 0x80 then some (n, 0, 0x80, 0xBF)
  else if n < 0xC2 then none
  else if n < 0xE0 then some (n - 0xC0, 1, 0x80, 0xBF)
  else if n == 0xE0 then some (0, 2, 0xA0, 0xBF)
  else if n == 0xED then some (0xD, 2, 0x80, 0x9F)
  else if n < 0xF0 then some (n - 0xE0, 2, 0x80, 0xBF)
  else if n == 0xF0 then some (0, 3, 0x90, 0xBF)
  else if n < 0xF4 then some (n - 0xF0, 3, 0x80, 0xBF)
  else if n == 0xF4 then some (4, 3, 0x80, 0x8F)
  else none

/-- Reads the bytes that continue a character; the first of them must lie between
`lo` and `hi`. Yields the code point, or nothing if the character is not finished,
and the bytes that are left. -/
def continueChar (bits : Nat) (lo hi : UInt8) : (count : Nat) → List UInt8 →
    Option Nat × List UInt8
  | 0, rest => (some bits, rest)
  | _ + 1, [] => (none, [])
  | count + 1, b :: rest =>
    if lo ≤ b && b ≤ hi then
      continueChar (bits * 64 + (b.toNat - 0x80)) 0x80 0xBF count rest
    else (none, b :: rest)

/-- The first character of a sequence of bytes, or nothing if they begin none, and
the bytes that are left. -/
def nextChar (b : UInt8) (rest : List UInt8) : Option Char × List UInt8 :=
  match leadByte? b with
  | none => (none, rest)
  | some (bits, count, lo, hi) =>
    let (n, rest) := continueChar bits lo hi count rest
    (n.map Char.ofNat, rest)

/-- The characters of a sequence of bytes, with nothing in the place of bytes that
spell none; `done` is what has been decoded, last first. -/
def decodeFrom (done : List (Option Char)) : (limit : Nat) → List UInt8 → List (Option Char)
  | 0, _ => done.reverse
  | _ + 1, [] => done.reverse
  | limit + 1, b :: rest =>
    let (c, rest) := nextChar b rest
    decodeFrom (c :: done) limit rest

/-- The text that bytes spell, if they spell one. -/
def decode? (bytes : List UInt8) : Option String :=
  ((decodeFrom [] bytes.length bytes).mapM id).map String.ofList

/-- The text that bytes spell, with a replacement character where they spell none. -/
def decodeLossy (bytes : List UInt8) : String :=
  String.ofList ((decodeFrom [] bytes.length bytes).map fun c => c.getD (Char.ofNat 0xFFFD))

/-- The bytes that spell a text. -/
def encode (s : String) : List UInt8 :=
  s.toUTF8.toList

/-- Characters with every line end written as a line feed; `done` is what has been
gone through, last first. -/
def unifyLineEnds (done : List Char) : List Char → List Char
  | [] => done.reverse
  | '\r' :: '\n' :: rest => unifyLineEnds ('\n' :: done) rest
  | '\r' :: rest => unifyLineEnds ('\n' :: done) rest
  | c :: rest => unifyLineEnds (c :: done) rest

/-- The text of a file with unified line ends, if its bytes spell one. -/
def ofFile? (bytes : List UInt8) : Option String :=
  (decode? bytes).map fun s => String.ofList (unifyLineEnds [] s.toList)

end ComponentCatalog.Text
