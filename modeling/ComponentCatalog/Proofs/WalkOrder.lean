import ComponentCatalog.Discovery
import ComponentCatalog.Proofs.Files
import ComponentCatalog.Proofs.Names
import ComponentCatalog.Proofs.Sessions
import Mathlib.Algebra.Order.BigOperators.Group.List
import Mathlib.Algebra.Order.Group.Nat

/-!
# The order in which components are found

Components are looked for with a stack of directories: the next one is taken from it, and
the directories in that one are put on it. What this goes through is the pre-order of the
tree, each directory before those inside it and siblings by name, which is defined here by
recursion on the tree (`FileTree.inOrder`). The two meet in `result_walk`: what is still to
be gone through is the pre-order of every tree on the stack, one after the other.

So the components that are found are those in the directories of the tree, in that order,
the first of each name. Whether a directory is a component, and whether the directories in it
can be listed, is looked up by paths, and a path may be too long to be looked up. The first
ends the search with a fault, the second keeps it out of the directory.
-/

namespace ComponentCatalog

/-! ## The pre-order of a tree -/

namespace FileTree

mutual

/-- **The directories of a tree in order**, each by its path and with what it holds: the
tree itself, then those inside it, siblings by name. Only a directory that `enter` lets in
is gone into. -/
def inOrder (enter : Path → FileTree → Bool) (dir : Path) : FileTree → List (Path × FileTree)
  | file _ => []
  | directory es =>
    (dir, directory es) ::
      if enter dir (directory es) then
        ((inOrderOf enter dir es).mergeSort fun a b => decide (a.1 ≤ b.1)).flatMap Prod.snd
      else []

/-- The directories among the entries of a directory, by name, each with those inside it. -/
def inOrderOf (enter : Path → FileTree → Bool) (dir : Path) :
    List (String × FileTree) → List (String × List (Path × FileTree))
  | [] => []
  | (n, t) :: es =>
    if t.isDirectory && !isSkipped n then
      (n, inOrder enter (dir.below n) t) :: inOrderOf enter dir es
    else inOrderOf enter dir es

end

variable (enter : Path → FileTree → Bool)

/-- The directories in one are those that are not skipped. -/
theorem inOrderOf_eq_map (dir : Path) (es : List (String × FileTree)) :
    inOrderOf enter dir es
      = (es.filter fun e => e.2.isDirectory && !isSkipped e.1).map
          fun e => (e.1, inOrder enter (dir.below e.1) e.2) := by
  induction es with
  | nil => rfl
  | cons e es ih =>
    obtain ⟨n, t⟩ := e
    rw [inOrderOf, List.filter_cons, ih]
    split <;> rfl

/-- After a directory come the directories in it, each with those inside it. -/
theorem inOrder_eq_cons (dir : Path) {t : FileTree} (ht : t.isDirectory = true) :
    t.inOrder enter dir
      = (dir, t) ::
          if enter dir t then (subdirectories dir t).flatMap fun e => e.2.inOrder enter e.1
          else [] := by
  cases t with
  | file bytes => cases ht
  | directory es =>
    rw [inOrder, inOrderOf_eq_map, subdirectories, List.flatMap_map]
    rw [← List.map_mergeSort (r := fun a b => decide (a.1 ≤ b.1)) fun _ _ _ _ => rfl,
      List.flatMap_map]
    rfl

/-- Where every directory is let in, nothing is kept out. -/
theorem inOrder_eq_of_enter (dir : Path) {t : FileTree}
    (h : ∀ e ∈ t.inOrder (fun _ _ => true) dir, enter e.1 e.2 = true) :
    t.inOrder enter dir = t.inOrder (fun _ _ => true) dir := by
  cases ht : t.isDirectory with
  | false =>
    cases t with
    | file bytes => rfl
    | directory es => cases ht
  | true =>
    rw [inOrder_eq_cons _ _ ht, if_pos rfl] at h
    rw [inOrder_eq_cons _ _ ht, inOrder_eq_cons _ _ ht, if_pos rfl,
      if_pos (h _ List.mem_cons_self)]
    refine congrArg _ (List.flatMap_congr fun e he => ?_)
    have := sizeOfAll_subdirectories_lt dir t
    have := sizeOf_le_sizeOfAll he
    exact inOrder_eq_of_enter e.1
      fun e' he' => h e' (List.mem_cons_of_mem _ (List.mem_flatMap.2 ⟨e, he, he'⟩))
termination_by sizeOf t

end FileTree

theorem isDirectory_of_mem_subdirectories {dir : Path} {t : FileTree} {e : Path × FileTree}
    (h : e ∈ subdirectories dir t) : e.2.isDirectory = true := by
  obtain ⟨e', he', rfl⟩ := List.mem_map.1 h
  have := (List.mem_filter.1 (List.mem_mergeSort.1 he')).2
  simp_all

/-! ## One directory -/

section Named

variable {cs : List Candidate} {c : Candidate} {name : String}

theorem mem_of_named? (h : Library.named? cs name = some c) : c ∈ cs ∧ c.name = name :=
  ⟨List.mem_of_find?_eq_some h, by simpa using List.find?_some h⟩

/-- No candidate of a name is there if none has it. -/
theorem named?_eq_none_iff : Library.named? cs name = none ↔ name ∉ cs.map Candidate.name := by
  simp [Library.named?]

end Named

namespace Disk

variable (d : Disk)

/-- Whether a directory holds a file of a given name. -/
def holds (dir : Path) (file : String) : Bool :=
  (d.readFile (dir.child file)).toOption.isSome

theorem directory?_eq_error {p : Path} {f : PathFault} (h : d.directory? p = .error f) :
    f = .nameTooLong := by
  unfold directory? at h
  split at h
  · cases h
  · exact (Except.error.inj h).symm
  · cases h

theorem isFile_of_tooLong {p : Path} (h : d.find p = .error .nameTooLong) :
    d.isFile p = .error .nameTooLong := by
  rw [isFile, h]

theorem isFile_eq_ok {dir : Path} {file : String}
    (h : d.find (dir.child file) ≠ .error .nameTooLong) :
    d.isFile (dir.child file) = .ok (d.holds dir file) := by
  unfold isFile holds readFile
  cases hf : d.find (dir.child file) with
  | ok t => cases t <;> rfl
  | error f =>
    cases f with
    | nameTooLong => exact absurd hf h
    | _ => rfl

end Disk

namespace Library

variable (l : Library)

/-- Whether a directory holds a map that makes it a component. -/
def isComponent (dir : Path) : Bool :=
  l.disk.holds dir (dir.name ++ propsSuffix) || l.disk.holds dir (dir.name ++ componentSuffix)

/-- **It cannot be decided** whether a directory is a component, because the path of a map
that would make it one is too long to be looked up. -/
def Undecided (dir : Path) : Prop :=
  l.disk.find (dir.child (dir.name ++ propsSuffix)) = .error .nameTooLong ∨
    l.disk.holds dir (dir.name ++ propsSuffix) = false ∧
      l.disk.find (dir.child (dir.name ++ componentSuffix)) = .error .nameTooLong

theorem hasArtifacts_eq (dir : Path) :
    hasArtifacts l.disk dir
      = match l.disk.isFile (dir.child (dir.name ++ propsSuffix)) with
        | .error f => .error f
        | .ok true => .ok true
        | .ok false => l.disk.isFile (dir.child (dir.name ++ componentSuffix)) := by
  unfold hasArtifacts
  generalize l.disk.isFile (dir.child (dir.name ++ propsSuffix)) = props
  generalize l.disk.isFile (dir.child (dir.name ++ componentSuffix)) = component
  rcases props with f | _ | _ <;> rfl

/-- Where a file of a directory cannot be looked up, it cannot be told what is in it. -/
theorem hasArtifacts_of_undecided {dir : Path} (h : l.Undecided dir) :
    hasArtifacts l.disk dir = .error .nameTooLong := by
  rw [hasArtifacts_eq]
  by_cases hprops : l.disk.find (dir.child (dir.name ++ propsSuffix)) = .error .nameTooLong
  · rw [l.disk.isFile_of_tooLong hprops]
  · obtain ⟨hholds, hcomponent⟩ := h.resolve_left hprops
    rw [l.disk.isFile_eq_ok hprops, hholds, l.disk.isFile_of_tooLong hcomponent]

/-- Otherwise it can be told whether it is a component. -/
theorem hasArtifacts_of_decided {dir : Path} (h : ¬l.Undecided dir) :
    hasArtifacts l.disk dir = .ok (l.isComponent dir) := by
  obtain ⟨hprops, hcomponent⟩ := not_or.1 h
  rw [hasArtifacts_eq, isComponent, l.disk.isFile_eq_ok hprops]
  cases hholds : l.disk.holds dir (dir.name ++ propsSuffix) with
  | true => rw [Bool.true_or]
  | false =>
    rw [Bool.false_or]
    exact l.disk.isFile_eq_ok fun hlong => hcomponent ⟨hholds, hlong⟩

/-- A directory at which the search for components ends with a fault: it is not excluded,
and it cannot be decided whether it is a component. -/
def Fails (dir : Path) : Prop :=
  dir.name ∉ l.config.excludeComponents ∧ l.Undecided dir

/-- Whether a directory is a component that is not excluded. -/
def isEligible (dir : Path) : Bool :=
  !l.config.excludeComponents.contains dir.name && l.isComponent dir

/-- The candidate in a directory of a group. -/
def candidateAt (v : Path × String) : Candidate :=
  { name := v.1.name, path := v.1.toString, category := v.2 }

/-- **The candidates in directories**, which are given with their groups. -/
def eligible (visits : List (Path × String)) : List Candidate :=
  (visits.filter fun v => l.isEligible v.1).map candidateAt

/-- What becomes of the candidates at a directory of a group, in whichever session. -/
def considered (found : List Candidate) (v : Path × String) : Except Fault (List Candidate) :=
  (l.consider v.2 found v.1).fresh

/-- Considering a directory adds a candidate, or none, or fails. -/
theorem result_consider (found : List Candidate) (v : Path × String) (s : Session) :
    (l.consider v.2 found v.1).result s = l.considered found v := by
  unfold considered Catalog.fresh consider
  split
  · rfl
  · split
    · rfl
    · rfl
    · split <;> rfl

/-- Considering a directory fails if its path is too long. -/
theorem considered_of_fails {v : Path × String} (h : l.Fails v.1) (found : List Candidate) :
    l.considered found v = .error (.badPath .nameTooLong) := by
  unfold considered consider
  rw [if_neg (by simpa using h.1), hasArtifacts_of_undecided l h.2]
  rfl

/-- Considering a directory that is not eligible adds nothing. -/
theorem considered_of_not_eligible {v : Path × String} (h : ¬l.Fails v.1)
    (he : l.isEligible v.1 = false) (found : List Candidate) :
    l.considered found v = .ok found := by
  unfold considered consider
  by_cases hexcluded : v.1.name ∈ l.config.excludeComponents
  · rw [if_pos (by simpa using hexcluded)]
    rfl
  · have hcomponent : l.isComponent v.1 = false := by simpa [isEligible, hexcluded] using he
    rw [if_neg (by simpa using hexcluded),
      hasArtifacts_of_decided l fun hu => h ⟨hexcluded, hu⟩, hcomponent]
    rfl

/-- A component is added to the candidates if its name is free. -/
theorem considered_of_eligible {v : Path × String} (h : ¬l.Fails v.1)
    (he : l.isEligible v.1 = true) (found : List Candidate) :
    l.considered found v
      = .ok (if v.1.name ∈ found.map Candidate.name then found else found ++ [candidateAt v]) := by
  obtain ⟨hexcluded, hcomponent⟩ : v.1.name ∉ l.config.excludeComponents
      ∧ l.isComponent v.1 = true := by simpa [isEligible] using he
  unfold considered consider
  rw [if_neg (by simpa using hexcluded),
    hasArtifacts_of_decided l fun hu => h ⟨hexcluded, hu⟩, hcomponent]
  dsimp only
  cases hn : named? found v.1.name with
  | none =>
    rw [if_neg (named?_eq_none_iff.1 hn)]
    rfl
  | some earlier =>
    obtain ⟨hmem, hname⟩ := mem_of_named? hn
    rw [if_pos (hname ▸ List.mem_map_of_mem hmem)]
    rfl

/-! ## One directory after the other -/

/-- Where the search ends with a fault, it does so whatever was found before. -/
theorem foldlM_considered_of_fails {visits : List (Path × String)}
    (h : ∃ v ∈ visits, l.Fails v.1) (found : List Candidate) :
    visits.foldlM l.considered found = .error (.badPath .nameTooLong) := by
  induction visits generalizing found with
  | nil => simp at h
  | cons v visits ih =>
    rw [List.foldlM_cons]
    by_cases hv : l.Fails v.1
    · rw [considered_of_fails l hv]
      rfl
    · have hrest : ∃ v ∈ visits, l.Fails v.1 := by simpa [hv] using h
      cases he : l.isEligible v.1 with
      | false =>
        rw [considered_of_not_eligible l hv he]
        exact ih hrest _
      | true =>
        rw [considered_of_eligible l hv he]
        exact ih hrest _

/-- **The candidates in directories are added**, the first of each name. -/
theorem foldlM_considered {visits : List (Path × String)} (h : ∀ v ∈ visits, ¬l.Fails v.1)
    (found : List Candidate) :
    visits.foldlM l.considered found
      = .ok (found ++ firstOfEachName Candidate.name (found.map Candidate.name)
          (l.eligible visits)) := by
  induction visits generalizing found with
  | nil => simp [eligible, firstOfEachName, pure, Except.pure]
  | cons v visits ih =>
    obtain ⟨hv, hrest⟩ := List.forall_mem_cons.1 h
    rw [List.foldlM_cons]
    unfold eligible at ih ⊢
    rw [List.filter_cons]
    cases he : l.isEligible v.1 with
    | false =>
      rw [considered_of_not_eligible l hv he, if_neg Bool.false_ne_true]
      exact ih hrest found
    | true =>
      rw [considered_of_eligible l hv he, if_pos rfl, List.map_cons, firstOfEachName]
      show List.foldlM _ _ _ = _
      rw [ih hrest]
      by_cases htaken : v.1.name ∈ found.map Candidate.name
      · rw [if_pos htaken, if_pos (by simpa [candidateAt] using htaken)]
      · rw [if_neg htaken, if_neg (by simpa [candidateAt] using htaken), List.append_assoc,
          List.singleton_append, List.map_append]
        -- the new name stands last among those that were found, and first among those met
        refine congrArg (fun cs => Except.ok (found ++ candidateAt v :: cs)) ?_
        exact firstOfEachName_congr _ (fun n => by simp [or_comm]) _

/-! ## The walk -/

theorem isDirectory_of_isGroup {e : String × FileTree} (h : l.isGroup e = true) :
    e.2.isDirectory = true := by
  unfold isGroup at h
  simp_all

/-- **The stack goes through the pre-order**: what is still to be gone through are the
directories of each tree on the stack, one tree after the other. -/
theorem result_walk (group : String) (found : List Candidate)
    {stack : List (Path × FileTree)} (hstack : ∀ e ∈ stack, e.2.isDirectory = true)
    (s : Session) :
    (l.walk group found stack).result s
      = ((stack.flatMap fun e => e.2.inOrder l.isListable e.1).map
          fun e => (e.1, group)).foldlM l.considered found := by
  induction found, stack using walk.induct generalizing s with
  | case1 found =>
    rw [walk]
    rfl
  | case2 found dir t stack ihin ihout =>
    obtain ⟨ht, hstack⟩ := List.forall_mem_cons.1 hstack
    rw [walk, List.flatMap_cons, FileTree.inOrder_eq_cons _ _ ht, List.cons_append,
      List.map_cons, List.foldlM_cons, Catalog.result_bind, result_consider l found (dir, group)]
    refine congrArg _ (funext fun found' => ?_)
    cases l.isListable dir t with
    | true =>
      rw [if_pos rfl, if_pos rfl, ← List.flatMap_append]
      refine ihin found' (fun e he => ?_) _
      exact (List.mem_append.1 he).elim (isDirectory_of_mem_subdirectories) (hstack e)
    | false =>
      rw [if_neg Bool.false_ne_true, if_neg Bool.false_ne_true, List.nil_append]
      exact ihout found' hstack _

/-- **The directories of groups in order**, each with the name of its group. Only a
directory that `enter` lets in is gone into. -/
def directoriesOf (enter : Path → FileTree → Bool) (entries : List (String × FileTree)) :
    List (Path × String) :=
  (entries.filter l.isGroup).flatMap fun e =>
    (e.2.inOrder enter (l.componentsPath.below e.1)).map fun v => (v.1, e.1)

/-- The way through groups considers their directories one by one. -/
theorem result_walkGroups (found : List Candidate) {entries : List (String × FileTree)}
    (hshort : ∀ e ∈ entries, l.disk.isTooLong (l.componentsPath.below e.1) = false)
    (s : Session) :
    (l.walkGroups found entries).result s
      = (l.directoriesOf l.isListable entries).foldlM l.considered found := by
  induction entries generalizing found s with
  | nil => rfl
  | cons e entries ih =>
    obtain ⟨name, t⟩ := e
    obtain ⟨hname, hshort⟩ := List.forall_mem_cons.1 hshort
    rw [walkGroups, hname, if_neg Bool.false_ne_true, directoriesOf, List.filter_cons]
    cases hgroup : l.isGroup (name, t) with
    | true =>
      rw [if_pos rfl, if_pos rfl, List.flatMap_cons, List.foldlM_append, Catalog.result_bind,
        result_walk l name found (List.forall_mem_singleton.2 (l.isDirectory_of_isGroup hgroup)),
        List.flatMap_singleton]
      exact congrArg _ (funext fun found' => ih found' hshort _)
    | false =>
      rw [if_neg Bool.false_ne_true, if_neg Bool.false_ne_true]
      exact ih found hshort s

/-- A group whose path is too long to be looked up is a fault, if there is none before. -/
theorem result_walkGroups_of_tooLong (found : List Candidate)
    {entries : List (String × FileTree)}
    (hlong : ∃ e ∈ entries, l.disk.isTooLong (l.componentsPath.below e.1) = true)
    (s : Session) :
    (l.walkGroups found entries).result s = .error (.badPath .nameTooLong) := by
  induction entries generalizing found s with
  | nil => simp at hlong
  | cons e entries ih =>
    obtain ⟨name, t⟩ := e
    rw [walkGroups]
    cases hname : l.disk.isTooLong (l.componentsPath.below name) with
    | true => rfl
    | false =>
      have hrest : ∃ e ∈ entries, l.disk.isTooLong (l.componentsPath.below e.1) = true := by
        simpa [hname] using hlong
      rw [if_neg Bool.false_ne_true]
      cases hgroup : l.isGroup (name, t) with
      | false => exact ih found hrest s
      | true =>
        have ht := l.isDirectory_of_isGroup hgroup
        rw [if_pos rfl, Catalog.result_bind,
          result_walk l name found (List.forall_mem_singleton.2 ht)]
        generalize List.map _ _ = visits
        -- the group may hold a directory that ends the search, and then by the same fault
        by_cases hfails : ∃ v ∈ visits, l.Fails v.1
        · rw [foldlM_considered_of_fails l hfails]
          rfl
        · rw [foldlM_considered l (by simpa using hfails)]
          exact ih _ hrest _

/-! ## The whole search -/

/-- The entries of the directory of groups by name, none if there is no such directory. -/
def groupEntries : List (String × FileTree) :=
  match l.disk.directory? l.componentsPath with
  | .ok (some components) => FileTree.sortEntries components.entries
  | _ => []

/-- The directories that are gone through. -/
def directories : List (Path × String) :=
  l.directoriesOf l.isListable l.groupEntries

/-- All directories of the groups in order. -/
def allDirectories : List (Path × String) :=
  l.directoriesOf (fun _ _ => true) l.groupEntries

/-- **Nothing ends the search with a fault**: the directory of groups and its entries can be
looked up, and it can be decided for every directory that is gone through whether it is a
component. -/
structure Searchable : Prop where
  root : l.disk.directory? l.componentsPath ≠ .error .nameTooLong
  groups : ∀ e ∈ l.groupEntries, l.disk.isTooLong (l.componentsPath.below e.1) = false
  directories : ∀ v ∈ l.directories, ¬l.Fails v.1

/-- **Everything can be looked up**: besides, every directory of the groups can be listed. -/
structure WithinLimits : Prop extends l.Searchable where
  listable : ∀ e ∈ l.groupEntries, l.isGroup e = true →
    ∀ v ∈ e.2.inOrder (fun _ _ => true) (l.componentsPath.below e.1), l.isListable v.1 v.2 = true

theorem WithinLimits.directories_eq {l : Library} (h : l.WithinLimits) :
    l.directories = l.allDirectories := by
  refine List.flatMap_congr fun e he => ?_
  obtain ⟨hmem, hgroup⟩ := List.mem_filter.1 he
  rw [FileTree.inOrder_eq_of_enter l.isListable _ (h.listable e hmem hgroup)]

/-- **The candidates of a search**: of the eligible directories, in order, the first of each name.
-/
theorem result_walkCandidates {l : Library} (h : l.Searchable) (s : Session) :
    l.walkCandidates.result s
      = .ok (firstOfEachName Candidate.name [] (l.eligible l.directories)) := by
  obtain ⟨hroot, hgroups, hdirectories⟩ := h
  unfold walkCandidates directories groupEntries at *
  cases hfind : l.disk.directory? l.componentsPath with
  | error f => exact absurd (l.disk.directory?_eq_error hfind ▸ hfind) hroot
  | ok components? =>
    rw [hfind] at hgroups hdirectories
    cases components? with
    | none => rfl
    | some components =>
      dsimp only at hgroups hdirectories ⊢
      rw [result_walkGroups l [] hgroups s, foldlM_considered l hdirectories]
      rfl

/-- A directory that fails ends the search with its fault. -/
theorem result_walkCandidates_of_not_searchable {l : Library} (h : ¬l.Searchable)
    (s : Session) : l.walkCandidates.result s = .error (.badPath .nameTooLong) := by
  unfold walkCandidates
  cases hfind : l.disk.directory? l.componentsPath with
  | error f =>
    rw [l.disk.directory?_eq_error hfind]
    rfl
  | ok components? =>
    have hroot : l.disk.directory? l.componentsPath ≠ .error .nameTooLong := by
      rw [hfind]
      nofun
    cases components? with
    | none =>
      refine absurd ⟨hroot, ?_, ?_⟩ h
      · simp [groupEntries, hfind]
      · simp [directories, groupEntries, directoriesOf, hfind]
    | some components =>
      have hentries : l.groupEntries = FileTree.sortEntries components.entries := by
        rw [groupEntries, hfind]
      dsimp only
      rw [← hentries]
      -- an entry among the groups is too long, or else a directory on the walk fails
      by_cases hlong : ∃ e ∈ l.groupEntries,
          l.disk.isTooLong (l.componentsPath.below e.1) = true
      · exact result_walkGroups_of_tooLong l [] hlong s
      · have hgroups : ∀ e ∈ l.groupEntries,
            l.disk.isTooLong (l.componentsPath.below e.1) = false := by simpa using hlong
        rw [result_walkGroups l [] hgroups s]
        show l.directories.foldlM l.considered [] = _
        refine foldlM_considered_of_fails l ?_ []
        by_contra hnone
        exact h ⟨hroot, hgroups, by simpa using hnone⟩

end Library

/-- **The components that are found.** If everything can be looked up, they are the
components in the directories of the groups, in the order of the tree, the first of each
name; so their names are distinct, and every name stands for the first directory that has
it. In general they come from the directories that are gone into, and there is a fault
exactly if a directory of the groups, or a map that would make a directory a component, has a
path that is too long to be looked up. -/
theorem walkCandidates_inOrder (l : Library) (s : Session) :
    (l.WithinLimits →
      ∃ candidates, l.walkCandidates.result s = .ok candidates
        ∧ candidates = firstOfEachName Candidate.name [] (l.eligible l.allDirectories)
        ∧ (candidates.map Candidate.name).Nodup
        ∧ ∀ name, Library.named? candidates name
            = Library.named? (l.eligible l.allDirectories) name)
      ∧ (l.Searchable → l.walkCandidates.result s
          = .ok (firstOfEachName Candidate.name [] (l.eligible l.directories)))
      ∧ (¬l.Searchable → l.walkCandidates.result s = .error (.badPath .nameTooLong)) := by
  refine ⟨fun h => ?_, fun h => Library.result_walkCandidates h s,
    fun h => Library.result_walkCandidates_of_not_searchable h s⟩
  refine ⟨_, Library.result_walkCandidates h.toSearchable s, by rw [h.directories_eq],
    nodup_map_firstOfEachName _ _ _, fun name => ?_⟩
  rw [← h.directories_eq]
  exact find?_firstOfEachName _ List.not_mem_nil _

/-- A library in the top directory with four directories inside each other. All are
components; the second is excluded, and the third has the name of the first. -/
def nestedComponents : Library where
  disk :=
    { tree := .directory [("components", .directory [("form", .directory
        [("form.component.js.map", .file []), ("field", .directory
          [("field.props.js.map", .file []), ("form", .directory
            [("form.props.js.map", .file []), ("text", .directory
              [("text.props.js.map", .file [])])])])])])]
      cwd := ⟨"/", []⟩
      home := ⟨"/", []⟩ }
  path := ⟨"", []⟩
  config := { excludeComponents := ["field"] }

theorem walkCandidates_inOrder_nested :
    nestedComponents.WithinLimits
      ∧ ∃ candidates, nestedComponents.walkCandidates.result {} = .ok candidates
        ∧ candidates = firstOfEachName Candidate.name []
            (nestedComponents.eligible nestedComponents.allDirectories)
        ∧ candidates.map Candidate.path
          = ["components/form", "components/form/field/form/text"] := by
  have hfound : nestedComponents.walkCandidates.result {}
      = .ok [⟨"form", "components/form", "form", none⟩,
          ⟨"text", "components/form/field/form/text", "form", none⟩] := by
    decide +kernel
  have hlimits : nestedComponents.WithinLimits := by
    refine ⟨by_contra fun h => ?_, by decide +kernel⟩
    rw [Library.result_walkCandidates_of_not_searchable h] at hfound
    cases hfound
  obtain ⟨candidates, hresult, heq, -, -⟩ :=
    (walkCandidates_inOrder nestedComponents {}).1 hlimits
  refine ⟨hlimits, candidates, hresult, heq, ?_⟩
  rw [hfound] at hresult
  cases hresult
  rfl

/-- The directory of a component `a`, and in it an empty one of a given name. -/
def outer (name : String) : FileTree :=
  .directory [("a.props.js.map", .file []), (name, .directory [])]

/-- A library that consists of it. -/
def withInner (name : String) : Library where
  disk :=
    { tree := .directory [("components", .directory [("a", outer name)])]
      cwd := ⟨"/", []⟩
      home := ⟨"/", []⟩ }
  path := ⟨"", []⟩
  config := {}

/-- The path of the directory of the component. -/
def outerPath : Path := ⟨"", ["components", "a"]⟩

section WithInner

variable {name : String}

/-- The two directories that are gone through, if the inner one is not passed over. -/
theorem directoriesOf_withInner (hskip : isSkipped name = false)
    {enter : Path → FileTree → Bool} (henter : enter outerPath (outer name) = true) :
    (withInner name).directoriesOf enter (withInner name).groupEntries =
      [(outerPath, "a"), (outerPath.below name, "a")] := by
  have hentries : (withInner name).groupEntries = [("a", outer name)] := List.mergeSort_singleton _
  have hgroup : (withInner name).isGroup ("a", outer name) = true := by
    have hkept : (!isSkipped "a" && !({} : Config).excludeGroups.contains "a") = true := by
      decide
    rw [Library.isGroup, Bool.and_assoc, Bool.and_eq_true]
    exact ⟨rfl, hkept⟩
  have hinner : subdirectories outerPath (outer name) =
      [(outerPath.below name, .directory [])] := by
    simp [subdirectories, outer, FileTree.entries, FileTree.isDirectory, FileTree.sortEntries,
      hskip]
  have hpath : (withInner name).componentsPath.below "a" = outerPath := by
    show Path.below (Path.child ⟨"", []⟩ "components") "a" = _
    decide
  rw [Library.directoriesOf, hentries, List.filter_cons_of_pos hgroup, List.filter_nil,
    List.flatMap_singleton, hpath, FileTree.inOrder_eq_cons _ _ rfl, henter, if_pos rfl, hinner,
    List.flatMap_singleton, FileTree.inOrder_eq_cons _ _ rfl]
  simp [subdirectories, FileTree.entries, FileTree.sortEntries]

theorem isTooLong_below (hshort : name.utf8ByteSize ≤ Disk.nameLimit) (l : Library) :
    l.disk.isTooLong (outerPath.below name) = false := by
  have htext : (outerPath.below name).toString = "components" ++ "/" ++ "a" ++ "/" ++ name := rfl
  have hfixed : "components".utf8ByteSize + "/".utf8ByteSize + "a".utf8ByteSize +
      "/".utf8ByteSize = 13 := by decide
  rw [Disk.isTooLong, htext]
  simp only [String.utf8ByteSize_append, Disk.pathLimit, Bool.and_eq_false_imp,
    decide_eq_true_eq]
  simp only [Disk.nameLimit] at hshort
  omega

theorem find_outerPath : (withInner name).disk.find outerPath = .ok (outer name) := by
  have hshort : (withInner name).disk.isTooLong outerPath = false :=
    Bool.and_eq_false_imp.2 fun h => absurd h (by decide)
  have hfollow : Disk.follow (withInner name).disk.tree ["components", "a"] =
      .ok ["components", "a"] := by
    have hzero : Disk.hasZero ["components", "a"] = false := by decide
    rw [Disk.follow, if_neg (by simp [hzero])]
    rfl
  exact Disk.find_of_follow hshort hfollow rfl

/-- The component is one. -/
theorem isEligible_outerPath : (withInner name).isEligible outerPath = true := by
  have hchild : outerPath.child (outerPath.name ++ propsSuffix) =
      outerPath.below "a.props.js.map" := by decide
  have hfind := Disk.find_below find_outerPath
    (isTooLong_below (show "a.props.js.map".utf8ByteSize ≤ _ by decide) (withInner name))
    (by decide) (by decide)
  rw [if_neg (by decide), lookup_cons_eq, if_pos rfl] at hfind
  have hholds : (withInner name).disk.holds outerPath (outerPath.name ++ propsSuffix) = true := by
    rw [Disk.holds, Disk.readFile, hchild, hfind]
    rfl
  rw [Library.isEligible, Library.isComponent, hholds]
  rfl

/-- The inner directory is there, if its name is one of a directory. -/
theorem find_inner (hplain : ∀ c ∈ name.toList, c = 'n')
    (hshort : name.utf8ByteSize ≤ Disk.nameLimit) :
    (withInner name).disk.find (outerPath.below name) = .ok (.directory []) := by
  have hne (s : String) (c : Char) (hc : c ∈ s.toList) (hn : c ≠ 'n') : name ≠ s :=
    fun h => hn (hplain c (h ▸ hc))
  have hfind := Disk.find_below find_outerPath (isTooLong_below hshort (withInner name))
    (fun h => absurd (hplain _ h) (by decide)) (hne _ '.' (by decide) (by decide))
  rwa [if_neg (Nat.not_lt.2 hshort), lookup_cons_eq,
    if_neg (hne _ 'a' (by decide) (by decide)), lookup_cons_eq, if_pos rfl] at hfind

/-- A map in it cannot be looked up, if its name is too long. -/
theorem find_map (hplain : ∀ c ∈ name.toList, c = 'n')
    (hshort : name.utf8ByteSize ≤ Disk.nameLimit) {suffix : String}
    (hsuffix : suffix = propsSuffix ∨ suffix = componentSuffix)
    (hlong : Disk.nameLimit < (name ++ suffix).utf8ByteSize) :
    (withInner name).disk.find ((outerPath.below name).child (name ++ suffix)) =
      .error .nameTooLong := by
  have hnot {c : Char} (hc : c ≠ 'n') (hs : c ∉ suffix.toList) : c ∉ (name ++ suffix).toList := by
    rw [String.toList_append, List.mem_append, not_or]
    exact ⟨fun h => hc (hplain c h), hs⟩
  have hne (s : String) (hs : 'm' ∉ s.toList) : name ++ suffix ≠ s := by
    rintro rfl
    rw [String.toList_append, List.mem_append, not_or] at hs
    obtain rfl | rfl := hsuffix <;> exact hs.2 (by decide)
  have hslash : '/' ∉ suffix.toList ∧ '\x00' ∉ suffix.toList := by
    obtain rfl | rfl := hsuffix <;> decide
  rw [Path.child_eq_below _ (hne _ (by decide)) (hne _ (by decide)) (hnot (by decide) hslash.1)]
  exact Disk.find_below_of_long (find_inner hplain hshort) (hnot (by decide) hslash.2)
    (hne _ (by decide)) hlong

/-- The inner directory ends the search, if a map in it cannot be looked up. -/
theorem not_searchable_withInner (hskip : isSkipped name = false)
    (hshort : name.utf8ByteSize ≤ Disk.nameLimit)
    (hmap : (withInner name).disk.find ((outerPath.below name).child (name ++ propsSuffix)) =
      .error .nameTooLong) : ¬(withInner name).Searchable := by
  intro h
  have hlist : (withInner name).isListable outerPath (outer name) = true := by
    have hbeside := isTooLong_below (show "a.props.js.map".utf8ByteSize ≤ Disk.nameLimit by
      decide) (withInner name)
    simp [Library.isListable, Disk.isListable, outer, FileTree.entries, hbeside,
      isTooLong_below hshort]
  refine h.directories (outerPath.below name, "a") ?_ ⟨List.not_mem_nil, .inl hmap⟩
  rw [Library.directories, directoriesOf_withInner hskip hlist]
  exact .tail _ (.head _)

end WithInner

/-- A name of `n` characters. -/
def nameOfLength (n : Nat) : String :=
  String.ofList (List.replicate n 'n')

theorem toList_nameOfLength (n : Nat) : (nameOfLength n).toList = List.replicate n 'n' :=
  String.toList_ofList

theorem not_mem_nameOfLength {c : Char} (hc : c ≠ 'n') (n : Nat) :
    c ∉ (nameOfLength n).toList := by
  rw [toList_nameOfLength]
  exact fun h => hc (List.eq_of_mem_replicate h)

theorem utf8ByteSize_nameOfLength (n : Nat) : (nameOfLength n).utf8ByteSize = n := by
  induction n with
  | zero => rfl
  | succ n ih =>
    have happend : nameOfLength (n + 1) = "n" ++ nameOfLength n := by
      rw [nameOfLength, List.replicate_succ, ← List.singleton_append, String.ofList_append]
      rfl
    have hsize : "n".utf8ByteSize = 1 := by decide
    rw [happend, String.utf8ByteSize_append, ih, hsize, Nat.add_comm]

theorem isSkipped_nameOfLength (n : Nat) : isSkipped (nameOfLength (n + 1)) = false := by
  have hstart : Text.startsWith (nameOfLength (n + 1)) "." = false := by
    rw [Text.startsWith, toList_nameOfLength, List.replicate_succ]
    rfl
  have hne (s : String) (hs : 'e' ∈ s.toList) : (nameOfLength (n + 1) == s) = false :=
    beq_false_of_ne fun h => not_mem_nameOfLength (by decide) (n + 1) (h ▸ hs)
  rw [isSkipped, hstart, hne "node_modules" (by decide), hne "__pycache__" (by decide)]
  rfl

theorem eq_n_of_mem_nameOfLength {c : Char} {n : Nat} (hc : c ∈ (nameOfLength n).toList) :
    c = 'n' :=
  by_contra fun hne => not_mem_nameOfLength hne n hc

theorem utf8ByteSize_overlong_le : (nameOfLength 250).utf8ByteSize ≤ Disk.nameLimit := by
  decide +kernel

/-- A directory with a name of 250 characters ends the search. -/
theorem not_searchable_overlong : ¬(withInner (nameOfLength 250)).Searchable :=
  not_searchable_withInner (isSkipped_nameOfLength 249) utf8ByteSize_overlong_le
    (find_map (fun _ => eq_n_of_mem_nameOfLength) utf8ByteSize_overlong_le (.inl rfl)
      (by decide +kernel))

/-- The search for components fails at a directory that is none, because the names of the
maps that would make it one are too long, and a component beside it is not found. -/
theorem walkCandidates_overlongName :
    (withInner (nameOfLength 250)).walkCandidates.result {} = .error (.badPath .nameTooLong)
      ∧ firstOfEachName Candidate.name [] ((withInner (nameOfLength 250)).eligible
          (withInner (nameOfLength 250)).allDirectories)
        = [⟨"a", "components/a", "a", none⟩] := by
  refine ⟨Library.result_walkCandidates_of_not_searchable not_searchable_overlong {}, ?_⟩
  have hplain : ∀ c ∈ (nameOfLength 250).toList, c = 'n' := fun _ => eq_n_of_mem_nameOfLength
  have hshort := utf8ByteSize_overlong_le
  have hprops := find_map hplain hshort (.inl rfl) (by decide +kernel)
  have hcomponent := find_map hplain hshort (.inr rfl) (by decide +kernel)
  have hskip := isSkipped_nameOfLength 249
  generalize nameOfLength 250 = name at *
  have hname : (outerPath.below name).name = name := rfl
  have hholds {file : String} (h : (withInner name).disk.find
      ((outerPath.below name).child file) = .error .nameTooLong) :
      (withInner name).disk.holds (outerPath.below name) file = false := by
    rw [Disk.holds, Disk.readFile, h]
    rfl
  have hnone : (withInner name).isEligible (outerPath.below name) = false := by
    rw [Library.isEligible, Library.isComponent, hname, hholds hprops, hholds hcomponent]
    exact Bool.and_false _
  rw [Library.allDirectories, directoriesOf_withInner hskip rfl]
  simp only [Library.eligible, List.filter_cons, isEligible_outerPath, hnone, if_true,
    Bool.false_eq_true, if_false, List.filter_nil]
  decide +kernel

end ComponentCatalog
