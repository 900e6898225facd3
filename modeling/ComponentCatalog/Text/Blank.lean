/-!
# Blank characters

Source text is trimmed and collapsed before it is shown: a type annotation
loses the blanks around it, and the arguments of an emitter call are written on
one line however they were laid out. Both operations use one notion of blank,
the white space of the Unicode standard together with the four information
separators, so that a no-break space or an ideographic space at the end of a
type is dropped as a plain space is.

`isBlank` is the class. `trim` removes blanks at both ends, `words` cuts a text
at every run of blanks, and `collapse` joins the words again with single spaces.
-/

namespace ComponentCatalog.Text

/-- The code points that count as blank: the ASCII controls from tab to
carriage return, the information separators, the space, and the Unicode
spaces and line ends. -/
def isBlankPoint (n : Nat) : Bool :=
  (0x09 ≤ n && n ≤ 0x0D) || (0x1C ≤ n && n ≤ 0x20) || n == 0x85 || n == 0xA0 ||
    n == 0x1680 || (0x2000 ≤ n && n ≤ 0x200A) || n == 0x2028 || n == 0x2029 ||
    n == 0x202F || n == 0x205F || n == 0x3000

/-- Whether a character is blank. -/
def isBlank (c : Char) : Bool :=
  isBlankPoint c.toNat

/-- A sequence of characters without the blanks at its two ends. -/
def trimChars (cs : List Char) : List Char :=
  ((cs.dropWhile isBlank).reverse.dropWhile isBlank).reverse

/-- A text without the blanks at its two ends. -/
def trim (s : String) : String :=
  String.ofList (trimChars s.toList)

/-- The maximal runs of characters that are not blank, in order; `run` is the
run being read, last character first. -/
def wordsFrom (run : List Char) : List Char → List (List Char)
  | [] => if run.isEmpty then [] else [run.reverse]
  | c :: cs =>
    if isBlank c then
      if run.isEmpty then wordsFrom [] cs else run.reverse :: wordsFrom [] cs
    else wordsFrom (c :: run) cs

/-- The words of a text: its maximal runs of characters that are not blank. -/
def words (s : String) : List String :=
  (wordsFrom [] s.toList).map String.ofList

/-- A text on one line: its words with one space between them. -/
def collapse (s : String) : String :=
  String.intercalate " " (words s)

end ComponentCatalog.Text
