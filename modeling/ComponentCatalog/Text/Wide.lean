/-!
# Texts that need not be Unicode

A JSON document can spell any code point in a string, also one of the surrogates,
which stand for no character by themselves. Such a string can be stored and
passed on, but it cannot be encoded, and so it cannot be parsed as a source. A
`Wide` text holds arbitrary code points; `Wide.toString?` is the ordinary text it
is, when it is one.
-/

namespace ComponentCatalog.Text

/-- A code point of Unicode, character or surrogate. -/
abbrev CodePoint := Fin 0x110000

/-- The code point of a number. -/
def CodePoint.ofNat (n : Nat) : CodePoint :=
  Fin.ofNat 0x110000 n

/-- The code point of a character. -/
def CodePoint.ofChar (c : Char) : CodePoint :=
  .ofNat c.toNat

/-- Whether a code point is one of the surrogates. -/
def CodePoint.isSurrogate (p : CodePoint) : Bool :=
  0xD800 ≤ p.val && p.val ≤ 0xDFFF

/-- The character of a code point, if it has one. -/
def CodePoint.toChar? (p : CodePoint) : Option Char :=
  if p.isSurrogate then none else some (Char.ofNat p.val)

/-- Whether a code point is the first half of a pair of surrogates. -/
def isHigh (p : CodePoint) : Bool :=
  0xD800 ≤ p.val && p.val ≤ 0xDBFF

/-- Whether a code point is the second half of a pair of surrogates. -/
def isLow (p : CodePoint) : Bool :=
  0xDC00 ≤ p.val && p.val ≤ 0xDFFF

/-- The code point that a high and a low surrogate make together. -/
def joinSurrogates (high low : Nat) : Nat :=
  0x10000 + (high - 0xD800) * 0x400 + (low - 0xDC00)

/-- **Pairs of surrogates put together**, from left to right. -/
def joinPairs : List CodePoint → List CodePoint
  | [] => []
  | [p] => [p]
  | p :: q :: us =>
    if isHigh p && isLow q then .ofNat (joinSurrogates p.val q.val) :: joinPairs us
    else p :: joinPairs (q :: us)

/-- A text of code points. -/
structure Wide where
  points : List CodePoint
  deriving DecidableEq, Repr

namespace Wide

/-- An ordinary text as a text of code points. -/
def ofString (s : String) : Wide :=
  ⟨s.toList.map CodePoint.ofChar⟩

/-- The ordinary text that a text of code points is, if no surrogate is in it. -/
def toString? (w : Wide) : Option String :=
  (w.points.mapM CodePoint.toChar?).map String.ofList

/-- A text of code points with a replacement character for every surrogate. -/
def display (w : Wide) : String :=
  String.ofList (w.points.map fun p => (p.toChar?).getD (Char.ofNat 0xFFFD))

/-- Whether a text is empty. -/
def isEmpty (w : Wide) : Bool :=
  w.points.isEmpty

end Wide

end ComponentCatalog.Text
