import ComponentCatalog.Text.Affix
import ComponentCatalog.Text.Lowercase

/-!
# File stems of a type

The properties of a type are declared in a file that is named after it, but not
always in the same way: `WmProgressBarProps` may be declared in a file with the
stem `wmprogressbar`, `wm-progress-bar`, `progressbar` or `progress-bar`. The
usual ending of type names is cut off first; then the four spellings are tried in
this order, and a spelling that comes out like an earlier one counts once.

A hyphen is put between two words of a name in camel case: before a capital that
follows a small letter or a digit, and before the last of several capitals when a
small letter comes after it. Only ASCII letters count as letters here.
-/

namespace ComponentCatalog.Stem

/-- Whether a character is an ASCII capital. -/
def isCapital (c : Char) : Bool := 'A' ≤ c && c ≤ 'Z'

/-- Whether a character is a small ASCII letter. -/
def isSmall (c : Char) : Bool := 'a' ≤ c && c ≤ 'z'

/-- Whether a new word begins between a character and those that follow it. -/
def isBoundary (before : Char) (after : List Char) : Bool :=
  match after with
  | c :: rest =>
    isCapital c && (isSmall before || before.isDigit ||
      isCapital before && (rest.head?.map isSmall).getD false)
  | [] => false

/-- Characters with a hyphen at every boundary between words. -/
def hyphenate : List Char → List Char
  | [] => []
  | c :: cs => if isBoundary c cs then c :: '-' :: hyphenate cs else c :: hyphenate cs

/-- A name in small letters with hyphens between its words. -/
def kebab (name : String) : String :=
  Text.lower (String.ofList (hyphenate name.toList))

/-- A name without the first of the given beginnings that it has. A beginning must
be neither empty nor the whole name. -/
def unprefixed? (starts : List String) (name : String) : Option String :=
  (starts.find? fun p => !p.isEmpty && Text.startsWith name p && p.length < name.length).map
    fun p => Text.dropFirst name p.length

/-- The spellings of a stem, in the order in which they are tried. -/
def spellings (starts : List String) (name : String) : List (Option String) :=
  let bare := (unprefixed? starts name).filter fun s => !s.isEmpty
  [some (Text.lower name), some (kebab name), bare.map Text.lower, bare.map kebab]

/-- A type name without the usual ending, unless it is nothing but that ending. -/
def baseName (suffix name : String) : String :=
  if !suffix.isEmpty && Text.endsWith name suffix && suffix.length < name.length then
    Text.dropLast name suffix.length
  else name

/-- The distinct texts of a list, without the empty one, in order of first
occurrence; those that are seen already are left out. -/
def distinct (seen : List String) : List String → List String
  | [] => []
  | s :: rest =>
    if s.isEmpty || seen.contains s then distinct seen rest else s :: distinct (s :: seen) rest

/-- The stems of the files that may declare a type, in the order in which they are
looked for. -/
def candidates (starts : List String) (suffix typeName : String) : List String :=
  distinct [] ((spellings starts (baseName suffix typeName)).filterMap id)

end ComponentCatalog.Stem
