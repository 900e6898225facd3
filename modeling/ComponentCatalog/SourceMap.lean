import ComponentCatalog.Json.Reader
import ComponentCatalog.Session

/-!
# Source maps

A compiled file comes with a source map: a JSON object that lists the files it was
compiled from and, at the same places, their contents. The two lists stay aligned:
an entry that is no text keeps its place and counts as missing.

Reading a map can fall short in several ways, and each has its message. `load`,
`contentAt` and `nameAt` yield a map or a text or the reason why there is none; `map?`,
`content?` and `name?` note the reason and go on without.
-/

namespace ComponentCatalog

open Text

/-- The lists of a source map. -/
structure SourceMap where
  /-- The names of the files that were compiled; empty where none is given. -/
  names : List Wide := []
  /-- Their contents, where they are given. -/
  contents : List (Option Wide) := []

namespace SourceMap

/-- Why a source map cannot be used. -/
inductive Problem where
  /-- The file cannot be read as text. -/
  | unreadable (path : String)
  /-- The text is not JSON. -/
  | invalid (path : String)
  /-- The JSON value is not an object. -/
  | notObject (path : String)
  /-- The text has an integer that is too long to be read. -/
  | oversized
  /-- The path of the file has a character that ends names. -/
  | zeroCharacter
  deriving DecidableEq, Repr

/-- What is said about a source map that cannot be used. -/
def Problem.message? : Problem → Option String
  | unreadable path => some ("Error reading source map " ++ path)
  | invalid path => some ("Invalid source map " ++ path)
  | notObject path => some ("Source map " ++ path ++ " is not a JSON object")
  | oversized | zeroCharacter => none

/-- The fault that a problem is, if one does not go on without the source map. -/
def Problem.fault? : Problem → Option Fault
  | oversized => some .oversizedNumber
  | zeroCharacter => some (.badPath .zeroCharacter)
  | _ => none

/-- The items of the list that is the value of a key; none if it is not a list. -/
def listAt (j : Json) (key : String) : List Json :=
  match j.field? key with
  | some (.array items) => items
  | _ => []

/-- The text that a JSON value is. -/
def text? : Json → Option Wide
  | .string s => some s
  | _ => none

/-- The source map that a JSON object is. -/
def ofJson (j : Json) : SourceMap :=
  { names := (listAt j "sources").map fun v => (text? v).getD ⟨[]⟩
    contents := (listAt j "sourcesContent").map text? }

/-- The source map that the bytes of a file spell; the path is for messages. -/
def ofBytes (path : String) (bytes : List UInt8) : Except Problem SourceMap :=
  match ofFile? bytes with
  | none => .error (.unreadable path)
  | some text =>
    match Json.read text with
    | .error .tooManyDigits => .error .oversized
    | .error .malformed => .error (.invalid path)
    | .ok (.object fields) => .ok (ofJson (.object fields))
    | .ok _ => .error (.notObject path)

/-- The source map in a file. -/
def load (d : Disk) (path : Path) : Except Problem SourceMap :=
  match d.readFile path with
  | .error .zeroCharacter => .error .zeroCharacter
  | .error _ => .error (.unreadable path.toString)
  | .ok bytes => ofBytes path.toString bytes

/-- Why a source map has no text at a place. -/
inductive Shortfall where
  /-- The map itself cannot be used. -/
  | problem (p : Problem)
  /-- The map lists no contents. -/
  | noContents (path : String)
  /-- The map lists no names. -/
  | noNames (path : String)
  /-- The place is not in the list. -/
  | outOfBounds (index : Int) (path : String)
  /-- The content at the place is missing or empty. -/
  | noContent (index : Int) (path : String)
  /-- The name at the place is missing or empty. -/
  | noName
  deriving DecidableEq, Repr

/-- What is said about a missing text, if anything is. -/
def Shortfall.message? : Shortfall → Option String
  | problem p => p.message?
  | noContents path => some ("No source content found in " ++ path)
  | noNames path => some ("No source names found in " ++ path)
  | outOfBounds index path =>
    some ("Source index " ++ index.repr ++ " out of bounds for " ++ path)
  | noContent index path =>
    some ("Source " ++ index.repr ++ " of " ++ path ++ " has no embedded content")
  | noName => none

/-- The fault that a missing text is, if one does not go on without it. -/
def Shortfall.fault? : Shortfall → Option Fault
  | problem p => p.fault?
  | _ => none

/-- The item of a list at a place that may be outside it. -/
def itemAt? {α : Type} (items : List α) (index : Int) : Option α :=
  if index < 0 then none else items[index.toNat]?

/-- The content at a place of a source map, of which the path is given for
messages. -/
def contentIn (m : SourceMap) (path : String) (index : Int) : Except Shortfall Wide :=
  if m.contents.isEmpty then .error (.noContents path)
  else match itemAt? m.contents index with
    | none => .error (.outOfBounds index path)
    | some content =>
      match content.filter fun s => !s.isEmpty with
      | some s => .ok s
      | none => .error (.noContent index path)

/-- The content at a place of the source map in a file. -/
def contentAt (d : Disk) (path : Path) (index : Int) : Except Shortfall Wide :=
  match load d path with
  | .error p => .error (.problem p)
  | .ok m => m.contentIn path.toString index

/-- The file name at a place of a source map, of which the path is given for
messages. -/
def nameIn (m : SourceMap) (path : String) (index : Int) : Except Shortfall Wide :=
  if m.names.isEmpty then .error (.noNames path)
  else match itemAt? m.names index with
    | none => .error (.outOfBounds index path)
    | some name => if name.isEmpty then .error .noName else .ok name

/-- The file name at a place of the source map in a file. -/
def nameAt (d : Disk) (path : Path) (index : Int) : Except Shortfall Wide :=
  match load d path with
  | .error p => .error (.problem p)
  | .ok m => m.nameIn path.toString index

theorem ofBytes_eq_ok_of_eq_ok {path : String} {bytes : List UInt8} {m : SourceMap}
    (h : ofBytes path bytes = .ok m) (path' : String) : ofBytes path' bytes = .ok m := by
  unfold ofBytes at h ⊢
  split at h <;> try cases h
  split at h <;> try cases h
  simp_all

theorem contentIn_eq_ok_of_eq_ok {m : SourceMap} {path : String} {index : Int} {s : Wide}
    (h : m.contentIn path index = .ok s) (path' : String) : m.contentIn path' index = .ok s := by
  unfold contentIn at h ⊢
  split at h <;> try cases h
  split at h <;> try cases h
  split at h <;> try cases h
  simp_all

/-- The first content of the source map that the bytes of a file spell. -/
def firstContent? (bytes : List UInt8) : Option Wide :=
  match ofBytes "" bytes with
  | .ok m => (m.contentIn "" 0).toOption
  | .error _ => none

/-- A content that can be read from a file is the first content of one of the files
there are. -/
theorem exists_firstContent?_of_contentAt {d : Disk} {path : Path} {s : Wide}
    (h : contentAt d path 0 = .ok s) : ∃ bytes ∈ d.tree.files, firstContent? bytes = some s := by
  unfold contentAt load at h
  split at h
  · cases h
  · next m hm =>
    split at hm
    · cases hm
    · cases hm
    · next bytes hb =>
      refine ⟨bytes, Disk.mem_files_of_readFile hb, ?_⟩
      unfold firstContent?
      rw [ofBytes_eq_ok_of_eq_ok hm ""]
      simp [contentIn_eq_ok_of_eq_ok h "", Except.toOption]

/-- What was found, or nothing with a note of the reason, unless the reason is a
fault. -/
def orNote {α : Type} (r : Except Shortfall α) : Catalog (Option α) := do
  match r with
  | .ok found => return some found
  | .error s =>
    match s.fault?, s.message? with
    | some f, _ => throw f
    | none, some m =>
      Catalog.note (Log.warning "source_map" m)
      return none
    -- a missing name is passed over in silence
    | none, none => return none

/-- The source map in a file, if there is one that can be used. -/
def map? (d : Disk) (path : Path) : Catalog (Option SourceMap) :=
  orNote ((load d path).mapError .problem)

/-- The content at a place of a source map, if there is one. -/
def content? (d : Disk) (path : Path) (index : Int) : Catalog (Option Wide) :=
  orNote (contentAt d path index)

/-- The file name at a place of a source map, if there is one. -/
def name? (d : Disk) (path : Path) (index : Int) : Catalog (Option Wide) :=
  orNote (nameAt d path index)

end SourceMap

end ComponentCatalog
