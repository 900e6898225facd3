import ComponentCatalog.Inheritance.Chain

/-!
# Finding components

The components of a library lie in groups, the directories in its components
directory. Every directory of a group may be a component, the group itself
included: it is one when it holds a source map named after itself. Directories are
gone through in order, each before those inside it and siblings by name, and of
several components of one name the first counts.

A configuration narrows the components down to those it lists and gives some of them
further names. An alias stands for a component found before it, or for an earlier
alias, and is dropped if its name is taken.
-/

namespace ComponentCatalog

open Text

/-- A component that was found, or a further name for one. -/
structure Candidate where
  name : String
  path : String
  category : String
  /-- The name that an alias stands for. -/
  aliasOf? : Option String := none
  deriving DecidableEq, Repr

/-- Whether a directory of components is passed over. -/
def isSkipped (name : String) : Bool :=
  startsWith name "." || name == "node_modules" || name == "__pycache__"

/-- The directories in a directory that are gone through, by name, with what they
hold. -/
def subdirectories (dir : Path) (t : FileTree) : List (Path × FileTree) :=
  let inner := t.entries.filter fun e => e.2.isDirectory && !isSkipped e.1
  (FileTree.sortEntries inner).map fun e => (dir.below e.1, e.2)

/-- The size of several trees together. -/
noncomputable def sizeOfAll {α : Type} : List (α × FileTree) → Nat
  | [] => 0
  | e :: es => sizeOf e.2 + sizeOfAll es

section SizeOfAll

variable {α β : Type}

theorem sizeOfAll_append (es es' : List (α × FileTree)) :
    sizeOfAll (es ++ es') = sizeOfAll es + sizeOfAll es' := by
  induction es with
  | nil => simp [sizeOfAll]
  | cons e es ih => rw [List.cons_append, sizeOfAll, sizeOfAll, ih, Nat.add_assoc]

theorem sizeOfAll_map (f : α → β) (es : List (α × FileTree)) :
    sizeOfAll (es.map fun e => (f e.1, e.2)) = sizeOfAll es := by
  induction es with
  | nil => rfl
  | cons e es ih => rw [List.map_cons, sizeOfAll, sizeOfAll, ih]

theorem sizeOfAll_eq_of_perm {es es' : List (α × FileTree)} (h : es.Perm es') :
    sizeOfAll es = sizeOfAll es' := by
  induction h with
  | nil => rfl
  | cons e _ ih => rw [sizeOfAll, sizeOfAll, ih]
  | swap e e' es =>
    simp only [sizeOfAll]
    omega
  | trans _ _ ih ih' => exact ih.trans ih'

theorem sizeOf_le_sizeOfAll {e : α × FileTree} {es : List (α × FileTree)} (h : e ∈ es) :
    sizeOf e.2 ≤ sizeOfAll es := by
  induction h with
  | head => exact Nat.le_add_right _ _
  | tail e' _ ih => exact Nat.le_trans ih (Nat.le_add_left _ _)

theorem sizeOfAll_filter_le (test : String × FileTree → Bool) (es : List (String × FileTree)) :
    sizeOfAll (es.filter test) ≤ sizeOf es := by
  induction es with
  | nil => exact Nat.zero_le _
  | cons e es ih =>
    have he : sizeOf e.2 ≤ sizeOf e := by
      cases e
      simp
    rw [List.filter_cons, List.cons.sizeOf_spec]
    split
    · rw [sizeOfAll]
      omega
    · omega

end SizeOfAll

/-- The directories in a directory are smaller than it, all of them together. -/
theorem sizeOfAll_subdirectories_lt (dir : Path) (t : FileTree) :
    sizeOfAll (subdirectories dir t) < sizeOf t := by
  unfold subdirectories FileTree.sortEntries
  rw [sizeOfAll_map, sizeOfAll_eq_of_perm (List.mergeSort_perm _ _)]
  cases t with
  | file bytes =>
    rw [FileTree.file.sizeOf_spec]
    exact Nat.lt_of_lt_of_le Nat.zero_lt_one (Nat.le_add_right _ _)
  | directory es =>
    rw [FileTree.directory.sizeOf_spec, Nat.add_comm]
    exact Nat.lt_succ_of_le (sizeOfAll_filter_le _ es)

namespace Library

/-- The directory that holds the groups of components. -/
def componentsPath (l : Library) : Path :=
  l.path.child "components"

/-- Whether all entries of a directory of the library can be looked up. -/
def isListable (l : Library) (dir : Path) (t : FileTree) : Bool :=
  l.disk.isListable dir t

/-- The candidate of a name. -/
def named? (candidates : List Candidate) (name : String) : Option Candidate :=
  candidates.find? fun c => c.name == name

/-- The candidates that were found before, with a directory of a group if that is a
component. A component whose name is taken is noted and passed over. -/
def consider (l : Library) (group : String) (found : List Candidate) (dir : Path) :
    Catalog (List Candidate) := do
  if l.config.excludeComponents.contains dir.name then return found
  else match hasArtifacts l.disk dir with
    | .error f => throw (.badPath f)
    | .ok false => return found
    | .ok true =>
      match named? found dir.name with
      | some earlier =>
        Catalog.note (Log.debug "discovery" ("Ignoring duplicate component " ++ dir.name ++
          " at " ++ dir.toString ++ " (already found at " ++ earlier.path ++ ")"))
        return found
      | none => return found ++ [{ name := dir.name, path := dir.toString, category := group }]

/-- Goes through the directories of a group, given those that have been met and not yet
been gone through. The directories in one are gone through before the others; one with
an entry that cannot be looked up is noted and not gone into. -/
def walk (l : Library) (group : String) (found : List Candidate) :
    (stack : List (Path × FileTree)) → Catalog (List Candidate)
  | [] => return found
  | (dir, t) :: stack => do
    let found ← l.consider group found dir
    if l.isListable dir t then l.walk group found (subdirectories dir t ++ stack)
    else
      Catalog.note (Log.warning "discovery" ("Cannot list " ++ dir.toString))
      l.walk group found stack
termination_by stack => sizeOfAll stack
decreasing_by
  all_goals
    have := sizeOfAll_subdirectories_lt dir t
    simp only [sizeOfAll_append, sizeOfAll]
    omega

/-- Whether an entry of the directory of groups is a group that is gone through. -/
def isGroup (l : Library) (e : String × FileTree) : Bool :=
  e.2.isDirectory && !isSkipped e.1 && !l.config.excludeGroups.contains e.1

/-- Goes through the groups of components among the entries of their directory. -/
def walkGroups (l : Library) (found : List Candidate) :
    List (String × FileTree) → Catalog (List Candidate)
  | [] => return found
  | (name, t) :: rest => do
    let dir := l.componentsPath.below name
    -- the path is looked up before the name is tested
    if l.disk.isTooLong dir then throw (.badPath .nameTooLong)
    else if l.isGroup (name, t) then l.walkGroups (← l.walk name found [(dir, t)]) rest
    else l.walkGroups found rest

/-- The components of a library, whether they are documented or not. -/
def walkCandidates (l : Library) : Catalog (List Candidate) := do
  match l.disk.directory? l.componentsPath with
  | .error f => throw (.badPath f)
  | .ok none =>
    Catalog.note
      (Log.error "discovery" ("Components path not found: " ++ l.componentsPath.toString))
    return []
  | .ok (some components) => l.walkGroups [] (FileTree.sortEntries components.entries)

/-- The candidates with those that further names give; an alias that stands for
nothing, or whose name is taken, is noted and dropped. -/
def withAliases (candidates : List Candidate) : List (String × String) → Catalog (List Candidate)
  | [] => return candidates
  | (name, source) :: rest => do
    match named? candidates source with
    | none =>
      Catalog.note (Log.debug "discovery"
        ("Alias " ++ name ++ " skipped: " ++ source ++ " was not discovered"))
      withAliases candidates rest
    | some c =>
      if (named? candidates name).isSome then
        Catalog.note (Log.debug "discovery"
          ("Alias " ++ name ++ " skipped: a component with that name exists"))
        withAliases candidates rest
      else
        let added : Candidate :=
          { name := name, path := c.path, category := c.category, aliasOf? := some source }
        withAliases (candidates ++ [added]) rest

/-- The components of a library that are documented, and then their further names. -/
def findComponents (l : Library) : Catalog (List Candidate) := do
  let candidates ← l.walkCandidates
  withAliases (candidates.filter fun c => l.config.includeComponents.contains c.name)
    l.config.aliases

/-- The children that are declared for a component, with the paths that lead to
them. -/
def declaredChildren (l : Library) (component : String) : List (String × String) :=
  (l.config.childComponents.lookup component).getD []

/-- The directory of a declared child, seen from the directory of its parent. -/
def childPath (l : Library) (parent : String) (dir : Path) (child relative : String) :
    Except Fault Path :=
  let path := dir.child relative
  match l.disk.directory? path with
  | .ok (some _) => .ok path
  | .ok none => .error (.missingChild parent child path.toString)
  | .error f => .error (.badPath f)

end Library

end ComponentCatalog
