/-!
# Paths

A path is a root – none for a relative path – and a sequence of names. Writing a
path in another way, with doubled slashes, with a slash at its end or with single
dots, does not make it another path; double dots are kept, because what they stand
for depends on the directories on the way.

Paths are ordered name by name, and names by their characters. That is the order
in which directories are gone through and candidates for a file are tried.
-/

namespace ComponentCatalog

/-- A path. -/
structure Path where
  /-- The root: empty for a relative path. -/
  root : String := ""
  /-- The names, from the root on. -/
  parts : List String := []
  deriving DecidableEq, Repr

namespace Path

/-- The pieces between the slashes of a text; `piece` is the one being read, last
character first. -/
def piecesFrom (piece : List Char) : List Char → List String
  | [] => [String.ofList piece.reverse]
  | c :: cs =>
    if c == '/' then String.ofList piece.reverse :: piecesFrom [] cs else piecesFrom (c :: piece) cs

/-- The root that a text begins with. Two slashes are a root of their own, and any
other number of them is one. -/
def rootOf (cs : List Char) : String :=
  match cs.takeWhile (· == '/') with
  | [] => ""
  | [_, _] => "//"
  | _ => "/"

/-- The path that a text writes. -/
def ofString (s : String) : Path :=
  { root := rootOf s.toList
    parts := (piecesFrom [] s.toList).filter fun p => !p.isEmpty && p != "." }

/-- A path as text. -/
def toString (p : Path) : String :=
  if p.root.isEmpty && p.parts.isEmpty then "."
  else p.root ++ String.intercalate "/" p.parts

/-- A path seen from a directory. -/
def join (dir p : Path) : Path :=
  if p.root.isEmpty then { dir with parts := dir.parts ++ p.parts } else p

/-- A path seen from a directory, the path given as text. -/
def child (dir : Path) (s : String) : Path :=
  dir.join (ofString s)

/-- The path of an entry of a directory. -/
def below (dir : Path) (name : String) : Path :=
  { dir with parts := dir.parts ++ [name] }

/-- The last name of a path, empty if it has none. -/
def name (p : Path) : String :=
  p.parts.getLast?.getD ""

/-- The directory a path lies in. -/
def parent (p : Path) : Path :=
  { p with parts := p.parts.dropLast }

/-- Names with every double dot taken back together with the name before it, read
from the root; `done` is what is left so far, last first. -/
def settle (done : List String) : List String → List String
  | [] => done.reverse
  | p :: ps => if p == ".." then settle done.tail ps else settle (p :: done) ps

/-- The absolute path without double dots that a path stands for in a working
directory. Whichever root the path is written with, it is the same one. -/
def resolve (cwd p : Path) : Path :=
  { root := "/", parts := settle [] (cwd.join p).parts }

/-- A path with the tilde at its start replaced by the home directory. -/
def expandHome (home p : Path) : Path :=
  match p.root.isEmpty, p.parts with
  | true, "~" :: rest => { home with parts := home.parts ++ rest }
  | _, _ => p

/-- A path as seen from a directory above it, if it lies in that directory. -/
def relativeTo? (dir p : Path) : Option Path :=
  if p.root == dir.root && dir.parts.isPrefixOf p.parts then
    some { parts := p.parts.drop dir.parts.length }
  else none

/-- Whether a sequence of names does not come after another one. -/
def partsLe : List String → List String → Bool
  | [], _ => true
  | _ :: _, [] => false
  | a :: as, b :: bs => a < b || (a == b && partsLe as bs)

end Path

end ComponentCatalog
