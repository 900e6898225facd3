import ComponentCatalog.Text.CaseTable

/-!
# Small letters

Names are compared without regard to case by their small letters. The mapping is
that of Unicode, with its two exceptions to one letter for one: the capital I with
a dot becomes two characters, and a capital sigma becomes a final sigma at the end
of a word, that is, when a cased letter comes before it and none after it, apart
from characters that are ignored.
-/

namespace ComponentCatalog.Text

/-- Whether a code point lies in one of several ranges. -/
def inRanges (ranges : List (Nat × Nat)) (n : Nat) : Bool :=
  ranges.any fun (lo, hi) => lo ≤ n && n ≤ hi

/-- The small letter of a code point, if it has another one. -/
def smallLetter? (n : Nat) : Option Nat :=
  (caseRuns.find? fun r => r.first ≤ n && n ≤ r.last && (n - r.first) % r.step == 0).map
    fun r => ((n : Int) + r.offset).toNat

/-- Whether the first character that counts in a sequence is cased. -/
def casedFirst : List Char → Bool
  | [] => false
  | c :: cs =>
    if inRanges ignorableRanges c.toNat then casedFirst cs else inRanges casedRanges c.toNat

/-- The small letters of one character, given its neighbours; those before it are
listed from the nearest on. -/
def lowerChar (before : List Char) (c : Char) (after : List Char) : List Char :=
  let n := c.toNat
  if n < 0x80 then [c.toLower]
  else if n == 0x130 then ['i', Char.ofNat 0x307]
  else if n == 0x3A3 then
    [Char.ofNat (if casedFirst before && !casedFirst after then 0x3C2 else 0x3C3)]
  else [Char.ofNat ((smallLetter? n).getD n)]

/-- The small letters of a sequence of characters; `before` is what precedes it,
nearest first, and `done` what has been put together, last first. -/
def lowerFrom (before done : List Char) : List Char → List Char
  | [] => done.reverse
  | c :: cs => lowerFrom (c :: before) ((lowerChar before c cs).reverse ++ done) cs

/-- A text in small letters. -/
def lower (s : String) : String :=
  String.ofList (lowerFrom [] [] s.toList)

end ComponentCatalog.Text
