import ComponentCatalog.Path
import ComponentCatalog.Text.Utf8

/-!
# Files and directories

The files that the catalogue reads and writes are a value: a tree whose leaves
hold bytes and whose inner nodes list their entries by name. The order of the list
means nothing, and nothing that is read from a directory depends on it; entries
are sorted where an order is needed.

A `Disk` is a tree with a working directory and a home directory. A path is
followed name by name, as an operating system does: a double dot leads back to the
directory above, every name but the last must be a directory, and a path through a
missing directory leads nowhere, even if a double dot would leave it again.
-/

namespace ComponentCatalog

/-- A file or a directory. -/
inductive FileTree where
  | file (bytes : List UInt8)
  | directory (entries : List (String × FileTree))

/-- Why a path cannot be used. -/
inductive PathFault where
  /-- Something on the way does not exist. -/
  | missing
  /-- Something on the way is a file. -/
  | notDirectory
  /-- A directory stands where a file is needed. -/
  | isDirectory
  /-- A file stands where a directory is needed. -/
  | occupied
  /-- A name or a path is longer than such may be. -/
  | nameTooLong
  /-- A name contains the character that ends names. -/
  | zeroCharacter
  deriving DecidableEq, Repr

namespace FileTree

/-- The entries of a directory; a file has none. -/
def entries : FileTree → List (String × FileTree)
  | file _ => []
  | directory es => es

/-- Whether a tree is a directory. -/
def isDirectory : FileTree → Bool
  | file _ => false
  | directory _ => true

/-- The entry that a sequence of plain names leads to. -/
def at? (t : FileTree) : List String → Option FileTree
  | [] => some t
  | p :: ps => (t.entries.lookup p).bind fun e => e.at? ps

/-- The entries of a directory with one put under a name, in the place of the one
that had it. -/
def putEntry (name : String) (e : FileTree) : List (String × FileTree) → List (String × FileTree)
  | [] => [(name, e)]
  | (n, x) :: rest => if n == name then (n, e) :: rest else (n, x) :: putEntry name e rest

/-- A tree with an entry put where a sequence of plain names leads. Directories
that are missing on the way are made. -/
def put (t : FileTree) (e : FileTree) : List String → FileTree
  | [] => e
  | p :: ps =>
    let inner := (t.entries.lookup p).getD (.directory [])
    .directory (putEntry p (inner.put e ps) t.entries)

/-- A tree without the entry that a sequence of plain names leads to. -/
def remove (t : FileTree) : List String → FileTree
  | [] => t
  | [p] => .directory (t.entries.filter fun e => e.1 != p)
  | p :: ps =>
    match t.entries.lookup p with
    | some inner => .directory (putEntry p (inner.remove ps) t.entries)
    | none => t

mutual

/-- Everything below a tree, each with the names that lead to it, in the order in
which directories list their entries. -/
def descendants : FileTree → List (List String × FileTree)
  | file _ => []
  | directory es => descendantsOf es

/-- Everything at and below the entries of a directory. -/
def descendantsOf : List (String × FileTree) → List (List String × FileTree)
  | [] => []
  | (n, t) :: es =>
    ([n], t) :: (descendants t).map (fun (ps, x) => (n :: ps, x)) ++ descendantsOf es

end

mutual

/-- The number of directories of a tree. -/
def directoryCount : FileTree → Nat
  | file _ => 0
  | directory es => directoryCountOf es + 1

/-- The number of directories at and below the entries of a directory. -/
def directoryCountOf : List (String × FileTree) → Nat
  | [] => 0
  | (_, t) :: es => directoryCount t + directoryCountOf es

end

mutual

/-- The contents of all files of a tree. -/
def files : FileTree → List (List UInt8)
  | file bytes => [bytes]
  | directory es => filesOf es

/-- The contents of all files at and below the entries of a directory. -/
def filesOf : List (String × FileTree) → List (List UInt8)
  | [] => []
  | (_, t) :: es => files t ++ filesOf es

end

theorem mem_filesOf {es : List (String × FileTree)} {n : String} {t : FileTree} {b : List UInt8}
    (h : es.lookup n = some t) (hb : b ∈ t.files) : b ∈ filesOf es := by
  induction es with
  | nil => simp at h
  | cons e es ih =>
    obtain ⟨m, u⟩ := e
    rw [List.lookup_cons] at h
    rw [filesOf, List.mem_append]
    split at h
    · cases h
      exact .inl hb
    · exact .inr (ih h)

/-- A file that a sequence of names leads to is one of the files of the tree. -/
theorem mem_files_of_at? {t : FileTree} {ps : List String} {b : List UInt8}
    (h : t.at? ps = some (.file b)) : b ∈ t.files := by
  induction ps generalizing t with
  | nil =>
    simp only [at?, Option.some.injEq] at h
    subst h
    simp [files]
  | cons p ps ih =>
    rw [at?, Option.bind_eq_some_iff] at h
    obtain ⟨e, he, h⟩ := h
    cases t with
    | file c => simp [entries] at he
    | directory es =>
      rw [files]
      exact mem_filesOf he (ih h)

/-- Names in increasing order. -/
def sortNames (names : List String) : List String :=
  names.mergeSort fun a b => decide (a ≤ b)

/-- Entries in increasing order of their names. -/
def sortEntries (entries : List (String × FileTree)) : List (String × FileTree) :=
  entries.mergeSort fun a b => decide (a.1 ≤ b.1)

/-- The names of the entries of a directory that satisfy a test, in increasing
order. -/
def sortedNames (t : FileTree) (test : FileTree → Bool) : List String :=
  sortNames ((t.entries.filter fun e => test e.2).map Prod.fst)

end FileTree

/-- A file tree with the directories that relative paths and the tilde refer to. -/
structure Disk where
  /-- Everything there is, from the root on. -/
  tree : FileTree
  /-- The working directory, an absolute path. -/
  cwd : Path
  /-- The home directory, an absolute path. -/
  home : Path

namespace Disk

/-- The largest number of bytes of a name. -/
def nameLimit : Nat := 255

/-- The largest number of bytes of a path. -/
def pathLimit : Nat := 4095

/-- The names from the root to a path. -/
def fullParts (d : Disk) (p : Path) : List String :=
  (d.cwd.join p).parts

/-- Follows one name from the place that a sequence of plain names leads to. -/
def step (t : FileTree) (place : List String) (part : String) : Except PathFault (List String) :=
  match t.at? place with
  | none => .error .missing
  | some (.file _) => .error .notDirectory
  | some (.directory es) =>
    if part == ".." then .ok place.dropLast
    else if nameLimit < part.utf8ByteSize then .error .nameTooLong
    else if (es.lookup part).isSome then .ok (place ++ [part])
    else .error .missing

/-- Whether the character that ends names stands in one. -/
def hasZero (parts : List String) : Bool :=
  parts.any fun p => p.toList.contains '\x00'

/-- The plain names of the place that a sequence of names leads to. -/
def follow (t : FileTree) (parts : List String) : Except PathFault (List String) :=
  if hasZero parts then .error .zeroCharacter
  else parts.foldlM (step t) []

/-- Whether a path is too long to be looked up. -/
def isTooLong (d : Disk) (p : Path) : Bool :=
  pathLimit < p.toString.utf8ByteSize && !hasZero (d.fullParts p)

/-- What a path leads to. -/
def find (d : Disk) (p : Path) : Except PathFault FileTree :=
  if d.isTooLong p then .error .nameTooLong
  else do
    let place ← follow d.tree (d.fullParts p)
    match d.tree.at? place with
    | some t => return t
    | none => throw .missing

/-- What a path leads to lies at the place that its names lead to. -/
theorem exists_follow_of_find {d : Disk} {p : Path} {t : FileTree} (h : d.find p = .ok t) :
    ∃ place, follow d.tree (d.fullParts p) = .ok place ∧ d.tree.at? place = some t := by
  unfold find at h
  split at h
  · cases h
  · cases hf : follow d.tree (d.fullParts p) with
    | error f =>
      rw [hf] at h
      cases h
    | ok place =>
      rw [hf] at h
      refine ⟨place, rfl, ?_⟩
      change (match d.tree.at? place with
        | some t => Except.ok t
        | none => .error PathFault.missing) = .ok t at h
      split at h
      · next u hu =>
        cases h
        exact hu
      · cases h

/-- What a path leads to, if it leads anywhere. -/
def find? (d : Disk) (p : Path) : Option FileTree :=
  (d.find p).toOption

/-- Whether a path leads to something. A path that is too long to be looked up is a
fault. -/
def exists? (d : Disk) (p : Path) : Except PathFault Bool :=
  match d.find p with
  | .ok _ => .ok true
  | .error .nameTooLong => .error .nameTooLong
  | .error _ => .ok false

/-- Whether a path leads to a directory. -/
def isDirectory (d : Disk) (p : Path) : Bool :=
  match d.find? p with
  | some t => t.isDirectory
  | none => false

/-- The directory that a path leads to, if it leads to one. A path that is too long
to be looked up is a fault. -/
def directory? (d : Disk) (p : Path) : Except PathFault (Option FileTree) :=
  match d.find p with
  | .ok t => .ok (if t.isDirectory then some t else none)
  | .error .nameTooLong => .error .nameTooLong
  | .error _ => .ok none

/-- Whether a path leads to a file. A path that is too long to be looked up is a
fault. -/
def isFile (d : Disk) (p : Path) : Except PathFault Bool :=
  match d.find p with
  | .ok t => .ok !t.isDirectory
  | .error .nameTooLong => .error .nameTooLong
  | .error _ => .ok false

/-- The bytes of the file that a path leads to. -/
def readFile (d : Disk) (p : Path) : Except PathFault (List UInt8) := do
  match ← d.find p with
  | .file bytes => return bytes
  | .directory _ => throw .isDirectory

/-- A file that can be read is one of the files there are. -/
theorem mem_files_of_readFile {d : Disk} {p : Path} {b : List UInt8}
    (h : d.readFile p = .ok b) : b ∈ d.tree.files := by
  unfold readFile at h
  cases hf : d.find p with
  | error f =>
    rw [hf] at h
    cases h
  | ok t =>
    rw [hf] at h
    obtain ⟨place, -, ht⟩ := exists_follow_of_find hf
    cases t with
    | directory es => cases h
    | file bytes =>
      cases h
      exact FileTree.mem_files_of_at? ht

/-- The directory that a path leads to. -/
def readDirectory (d : Disk) (p : Path) : Except PathFault FileTree := do
  let t ← d.find p
  if t.isDirectory then return t else throw .notDirectory

/-- Whether all entries of a directory can be looked up. -/
def isListable (d : Disk) (dir : Path) (t : FileTree) : Bool :=
  t.entries.all fun e => !d.isTooLong (dir.below e.1)

/-- The absolute path without double dots that a path stands for. -/
def resolve (d : Disk) (p : Path) : Path :=
  Path.resolve d.cwd p

/-- The place of the directory that a path lies in, and the name of the entry there that
it names, whether there is one or not. -/
def entryOf (d : Disk) (p : Path) : Except PathFault (List String × String) :=
  if d.isTooLong p then .error .nameTooLong
  else match (d.fullParts p).getLast? with
    | none => .error .isDirectory
    | some name =>
      match follow d.tree (d.fullParts p).dropLast with
      | .error f => .error f
      | .ok dir =>
        -- the directory is looked up first, so a fault on the way there is told before this one
        if hasZero (d.fullParts p) then .error .zeroCharacter
        else match d.tree.at? dir with
          | none => .error .missing
          | some (.file _) => .error .notDirectory
          | some (.directory _) =>
            if name == ".." then .error .isDirectory
            else if nameLimit < name.utf8ByteSize then .error .nameTooLong
            else .ok (dir, name)

/-- A disk with a file put at a place. -/
def putFile (d : Disk) (place : List String) (bytes : List UInt8) : Disk :=
  { d with tree := d.tree.put (.file bytes) place }

/-- Writes a file, given what is to stand in it after what stands in it now. The
directory it lies in must exist. -/
def updateFile (d : Disk) (p : Path) (f : List UInt8 → List UInt8) : Except PathFault Disk :=
  match d.entryOf p with
  | .error e => .error e
  | .ok (dir, name) =>
    match d.tree.at? (dir ++ [name]) with
    | some (.directory _) => .error .isDirectory
    | some (.file bytes) => .ok (d.putFile (dir ++ [name]) (f bytes))
    | none => .ok (d.putFile (dir ++ [name]) (f []))

/-- Writes a file in the place of the one that may be there. -/
def writeFile (d : Disk) (p : Path) (bytes : List UInt8) : Except PathFault Disk :=
  d.updateFile p fun _ => bytes

/-- Makes the directories that a sequence of names leads through, from a place on. -/
def makeFrom (t : FileTree) (place : List String) : List String → Except PathFault FileTree
  | [] => .ok t
  | p :: ps =>
    match t.at? place with
    | some (.directory es) =>
      if p == ".." then makeFrom t place.dropLast ps
      else match es.lookup p with
        | some (.directory _) => makeFrom t (place ++ [p]) ps
        -- a file in the place of the directory itself, or of one that it lies in
        | some (.file _) => .error (if ps.isEmpty then .occupied else .notDirectory)
        | none =>
          if nameLimit < p.utf8ByteSize then .error .nameTooLong
          else makeFrom (t.put (.directory []) (place ++ [p])) (place ++ [p]) ps
    | some (.file _) => .error .notDirectory
    | none => .error .missing

/-- What there is after an attempt to make a directory and those it lies in: where not all of
them can be made, those before the first that cannot be are. -/
def attemptDirectories (d : Disk) (p : Path) : Disk :=
  let parts := d.fullParts p
  if d.isTooLong p || hasZero parts then d
  else
    -- the longest part of the path that can be made
    let made := (List.range (parts.length + 1)).reverse.findSome? fun n =>
      (makeFrom d.tree [] (parts.take n)).toOption
    { d with tree := made.getD d.tree }

/-- The fault that is told when directories cannot be made. If some of them have been, a file in
the way of the others is told as one that has the name of a directory. -/
def makingFault (d : Disk) (p : Path) (f : PathFault) : PathFault :=
  if f = .notDirectory ∧ (d.attemptDirectories p).tree.directoryCount ≠ d.tree.directoryCount then
    .occupied
  else f

/-- Makes a directory and those it lies in, where they do not exist. -/
def makeDirectories (d : Disk) (p : Path) : Except PathFault Disk := do
  let parts := d.fullParts p
  if d.isTooLong p then throw .nameTooLong
  if hasZero parts then throw .zeroCharacter
  match makeFrom d.tree [] parts with
  | .error f => throw (d.makingFault p f)
  | .ok t => return { d with tree := t }

end Disk

end ComponentCatalog
