import ComponentCatalog.Proofs.Relisted
import ComponentCatalog.Proofs.Searches

/-!
# The file that declares a type

The file for a type is looked for by three criteria, one within the other: the stems of its
name in their order, the search roots in theirs, and under a search root the paths, compared
name by name. The files of a search root are listed once, sorted, and looked up by their names.

All of that comes to one statement about places. A place is the number of a stem, the number of
a search root and the names that lead from there to a file (`Library.FileAt`); places are
compared lexicographically, and the file that is found is the one at the least place at which
there is any (`findArtifact_least`). Whether the same file can be reached through several
search roots or by several stems makes no difference to this.

There is one way in which the search fails although there is a file. A path has a greatest
length, and a search root that is too long, or has a directory below it that is, cannot be
looked through (`Library.Overlong`). The first stem is tried under all search roots, so the
search fails unless a file for the first stem is found before (`Library.Blocked`).
-/

namespace ComponentCatalog

/-- Paths are compared as lists of names are. -/
theorem Path.partsLe_iff_le (as bs : List String) : Path.partsLe as bs = true ↔ as ≤ bs := by
  induction as generalizing bs with
  | nil =>
    cases bs with
    | nil => exact iff_of_true rfl le_rfl
    | cons b bs => exact iff_of_true rfl (List.nil_lt_cons b bs).le
  | cons a as ih =>
    cases bs with
    | nil => exact iff_of_false (by simp [Path.partsLe]) (List.nil_lt_cons a as).not_ge
    | cons b bs =>
      rw [Path.partsLe_cons, ih, le_iff_lt_or_eq, le_iff_lt_or_eq, List.cons_lt_cons_iff,
        List.cons.injEq]
      tauto

namespace Library

/-! ## Files and their places -/

variable (l : Library)

/-- **A file below a search root**, at any depth: the search root is a directory, and no
directory on the way from it is passed over. -/
structure FileBelow (root file : String) (parts : List String) (path : Path) : Prop where
  held : ∃ t u, l.disk.find (l.path.child root) = .ok t ∧ t.isDirectory = true ∧ t.Holds parts u
  named : parts.getLast? = some file
  entered : ∀ n ∈ parts.dropLast, ¬ ".".toList <+: n.toList ∧ n ≠ "node_modules"
  path_eq : path = { l.path.child root with parts := (l.path.child root).parts ++ parts }

/-- **A search root that cannot be looked through**: its path is too long, or that of a
directory below it. -/
def Overlong (root : String) : Prop :=
  l.disk.find (l.path.child root) = .error .nameTooLong
    ∨ ∃ t parts u, l.disk.find (l.path.child root) = .ok t ∧ t.isDirectory = true
        ∧ t.Holds parts u ∧ u.isDirectory = true
        ∧ l.disk.isTooLong
            { l.path.child root with parts := (l.path.child root).parts ++ parts } = true

/-- **A file for a type at a place**: the stem of its name, the search root, and the names that
lead to it from there. -/
def FileAt (typeName : String) (k : ℕ ×ₗ ℕ ×ₗ List String) (path : Path) : Prop :=
  ∃ stem root, (l.stemsFor typeName)[(ofLex k).1]? = some stem
    ∧ l.config.inheritance.searchRoots[(ofLex (ofLex k).2).1]? = some root
    ∧ l.FileBelow root (stem ++ propsSuffix) (ofLex (ofLex k).2).2 path

/-- **A search that fails**: before there is a file for the first stem, a search root comes
that cannot be looked through. -/
def Blocked (typeName : String) : Prop :=
  l.stemsFor typeName ≠ [] ∧ ∃ (j : ℕ) (root : String),
    l.config.inheritance.searchRoots[j]? = some root ∧ l.Overlong root
      ∧ ∀ i < j, ∀ parts path, ¬ l.FileAt typeName (toLex (0, toLex (i, parts))) path

variable {l}

/-! ## One search root -/

/-- What becomes of a search root: it is looked through, a directory below it has too long a
path, it has too long a path itself, or it is no directory. -/
theorem searchRoot?_cases (d : Disk) (root : Path) :
    (∃ t, d.find root = .ok t ∧ t.isDirectory = true ∧ d.isSearchable root t = true
        ∧ d.searchRoot? root = .ok (some t))
      ∨ (∃ t, d.find root = .ok t ∧ t.isDirectory = true ∧ d.isSearchable root t = false
        ∧ d.searchRoot? root = .error .nameTooLong)
      ∨ (d.find root = .error .nameTooLong ∧ d.searchRoot? root = .error .nameTooLong)
      ∨ (d.find root ≠ .error .nameTooLong ∧ (∀ t, d.find root = .ok t → t.isDirectory = false)
        ∧ d.searchRoot? root = .ok none) := by
  unfold Disk.searchRoot? Disk.directory?
  rcases d.find root with f | t
  · by_cases hf : f = .nameTooLong
    · subst hf
      exact .inr (.inr (.inl ⟨rfl, rfl⟩))
    · refine .inr (.inr (.inr ⟨by simpa using hf, by simp, ?_⟩))
      cases f with
      | nameTooLong => exact absurd rfl hf
      | _ => rfl
  · cases ht : t.isDirectory with
    | false => exact .inr (.inr (.inr ⟨by simp, by simpa using ht, by simp [ht]⟩))
    | true =>
      cases hs : d.isSearchable root t with
      | true => exact .inl ⟨t, rfl, ht, hs, by simp [ht, hs]⟩
      | false => exact .inr (.inl ⟨t, rfl, ht, hs, by simp [ht, hs]⟩)

/-- A directory cannot be searched exactly if the path of some directory below it is too long. -/
theorem isSearchable_eq_false_iff {d : Disk} {dir : Path} {t : FileTree} :
    d.isSearchable dir t = false
      ↔ ∃ parts u, t.Holds parts u ∧ u.isDirectory = true
        ∧ d.isTooLong { dir with parts := dir.parts ++ parts } = true := by
  unfold Disk.isSearchable
  rw [List.all_eq_false]
  constructor
  · rintro ⟨⟨parts, u⟩, hmem, hlong⟩
    exact ⟨parts, u, FileTree.mem_descendants_iff.1 hmem, by simpa using hlong⟩
  · rintro ⟨parts, u, hheld, hdir, hlong⟩
    exact ⟨(parts, u), FileTree.mem_descendants_iff.2 hheld, by simp [hdir, hlong]⟩

/-- A search root fails exactly if it is overlong. -/
theorem admitsSearch_eq_false_iff {root : String} :
    l.disk.admitsSearch (l.path.child root) = false ↔ l.Overlong root := by
  unfold Disk.admitsSearch Overlong
  obtain ⟨t, hfind, ht, hs, hroot⟩ | ⟨t, hfind, ht, hs, hroot⟩ | ⟨hfind, hroot⟩
    | ⟨hfind, hnone, hroot⟩ := searchRoot?_cases l.disk (l.path.child root)
  · rw [hroot, hfind]
    refine iff_of_false (by simp [Except.toOption]) ?_
    rintro (herror | ⟨t', parts, u, heq, -, hheld⟩)
    · cases herror
    · obtain rfl : t = t' := Except.ok.inj heq
      rw [isSearchable_eq_false_iff.2 ⟨parts, u, hheld⟩] at hs
      cases hs
  · obtain ⟨parts, u, hheld⟩ := isSearchable_eq_false_iff.1 hs
    rw [hroot]
    exact iff_of_true rfl (.inr ⟨t, parts, u, hfind, ht, hheld⟩)
  · rw [hroot]
    exact iff_of_true rfl (.inl hfind)
  · rw [hroot]
    refine iff_of_false (by simp [Except.toOption]) ?_
    rintro (herror | ⟨t, parts, u, heq, ht, -⟩)
    · exact hfind herror
    · rw [hnone t heq] at ht
      cases ht

/-- The files under a search root are listed in the order of their paths. -/
theorem pairwise_artifactParts (t : FileTree) : (artifactParts t).Pairwise (· ≤ ·) := by
  have hsorted := List.pairwise_mergeSort Path.partsLe_trans Path.partsLe_total
    ((t.descendants.map Prod.fst).filter fun parts =>
      Text.endsWith (parts.getLast?.getD "") propsSuffix && !(parts.dropLast.any isPassedOver))
  exact hsorted.imp fun h => (Path.partsLe_iff_le _ _).1 h

/-- What is passed over: names that begin with a dot, and installed packages. -/
theorem isPassedOver_eq_false_iff {n : String} :
    isPassedOver n = false ↔ ¬ ".".toList <+: n.toList ∧ n ≠ "node_modules" := by
  unfold isPassedOver Text.startsWith
  rw [Bool.or_eq_false_iff, beq_eq_false_iff_ne, ← Bool.not_eq_true, List.isPrefixOf_iff_prefix]

/-- What may declare a type and has a given name is what is held under that name. -/
theorem mem_artifactParts_iff {t : FileTree} {file : String}
    (hfile : Text.endsWith file propsSuffix = true) {parts : List String} :
    parts ∈ artifactParts t ∧ (parts.getLast?.getD "" == file) = true
      ↔ (∃ u, t.Holds parts u) ∧ parts.getLast? = some file
        ∧ ∀ n ∈ parts.dropLast, ¬ ".".toList <+: n.toList ∧ n ≠ "node_modules" := by
  unfold artifactParts
  rw [List.mem_mergeSort, List.mem_filter, Bool.and_eq_true, Bool.not_eq_true', List.any_eq_false]
  simp only [Bool.not_eq_true, isPassedOver_eq_false_iff, List.mem_map, Prod.exists,
    FileTree.mem_descendants_iff, exists_eq_right, exists_and_right]
  constructor
  · rintro ⟨⟨⟨u, hheld⟩, -, hentered⟩, hname⟩
    obtain ⟨last, hlast⟩ := Option.isSome_iff_exists.1
      (List.getLast?_isSome.2 (hheld.ne_nil))
    rw [hlast, Option.getD_some, beq_iff_eq] at hname
    exact ⟨⟨u, hheld⟩, hname ▸ hlast, hentered⟩
  · rintro ⟨hheld, hlast, hentered⟩
    rw [hlast, Option.getD_some]
    exact ⟨⟨hheld, hfile, hentered⟩, beq_self_eq_true file⟩

/-- Under a search root that can be looked through, the least file of a name is found. -/
theorem findsFirst_lookup_artifactIndex {root file : String} {index : ArtifactIndex}
    (hindex : artifactIndex l.disk l.path root = .ok index)
    (hfile : Text.endsWith file propsSuffix = true) :
    FindsFirst (l.FileBelow root file) (index.lookup file) := by
  unfold artifactIndex at hindex
  dsimp only at hindex
  obtain ⟨t, hfind, ht, -, hroot⟩ | ⟨t, -, -, -, hroot⟩ | ⟨-, hroot⟩ | ⟨-, hnone, hroot⟩ :=
    searchRoot?_cases l.disk (l.path.child root)
  · rw [hroot] at hindex
    cases hindex
    rw [lookup_map_mk]
    refine (findsFirst_find?_of_pairwise (pairwise_artifactParts t) _ _).congr fun parts path => ?_
    rw [← and_assoc, mem_artifactParts_iff hfile]
    constructor
    · rintro ⟨⟨⟨u, hheld⟩, hlast, hentered⟩, rfl⟩
      exact ⟨⟨t, u, hfind, ht, hheld⟩, hlast, hentered, rfl⟩
    · rintro ⟨⟨t', u, hfind', -, hheld⟩, hlast, hentered, rfl⟩
      obtain rfl : t = t' := Except.ok.inj (hfind.symm.trans hfind')
      exact ⟨⟨⟨u, hheld⟩, hlast, hentered⟩, rfl⟩
  · rw [hroot] at hindex
    cases hindex
  · rw [hroot] at hindex
    cases hindex
  · rw [hroot] at hindex
    cases hindex
    refine .nothing ?_
    rintro parts path ⟨⟨t, u, hfind, ht, -⟩, -⟩
    rw [hnone t hfind] at ht
    cases ht

/-! ## All search roots -/

/-- The files under a search root by their names, none if it cannot be looked through. -/
def indexOf (l : Library) (root : String) : ArtifactIndex :=
  (artifactIndex l.disk l.path root).toOption.getD []

/-- A search root that is not overlong is listed. -/
theorem artifactIndex_eq_indexOf {root : String} (h : ¬ l.Overlong root) :
    artifactIndex l.disk l.path root = .ok (l.indexOf root) := by
  rw [← admitsSearch_eq_false_iff, Bool.not_eq_false, ← exists_artifactIndex_iff] at h
  obtain ⟨index, hindex⟩ := h
  rw [indexOf, hindex]
  rfl

/-- Under several search roots, the least file of a name is found. -/
theorem findsFirst_fileUnder {roots : List String} (h : ∀ root ∈ roots, ¬ l.Overlong root)
    (stem : String) :
    FindsFirst (fun (k : ℕ ×ₗ List String) path => ∃ root, roots[(ofLex k).1]? = some root
        ∧ l.FileBelow root (stem ++ propsSuffix) (ofLex k).2 path)
      (roots.findSome? fun root => (l.indexOf root).lookup (stem ++ propsSuffix)) :=
  .findSome? fun root hroot => findsFirst_lookup_artifactIndex
    (artifactIndex_eq_indexOf (h root hroot)) (Text.endsWith_iff.2 ⟨stem, rfl⟩)

/-- Where no search root is overlong, a file is looked up in one after the other. -/
theorem fileUnder_eq_ok {roots : List String} (h : ∀ root ∈ roots, ¬ l.Overlong root)
    (file : String) :
    l.fileUnder file roots = .ok (roots.findSome? fun root => (l.indexOf root).lookup file) := by
  refine findSomeM?_eq_ok fun root hroot => ?_
  rw [artifactIndex_eq_indexOf (h root hroot)]
  rfl

/-- A search root that cannot be looked through ends the search, unless it has come to an end
before. -/
theorem fileUnder_overlong {roots before after : List String} {root : String}
    (hroots : roots = before ++ root :: after) (h : ∀ root ∈ before, ¬ l.Overlong root)
    (hroot : l.Overlong root) (file : String) :
    l.fileUnder file roots
      = (before.findSome? fun root => (l.indexOf root).lookup file).elim
          (.error (.badPath .nameTooLong)) fun path => .ok (some path) := by
  subst hroots
  refine findSomeM?_append_error (fun root hroot => ?_) ?_
  · rw [artifactIndex_eq_indexOf (h root hroot)]
    rfl
  · rw [artifactIndex_of_not_admitsSearch (admitsSearch_eq_false_iff.2 hroot)]
    rfl

/-- Where all search roots can be looked through, the search finds the least file. -/
theorem searchFor_of_not_overlong (typeName : String)
    (h : ∀ root ∈ l.config.inheritance.searchRoots, ¬ l.Overlong root) :
    ∃ path?, l.searchFor typeName = .ok path? ∧ FindsFirst (l.FileAt typeName) path? := by
  refine ⟨_, findSomeM?_eq_ok fun stem _ => fileUnder_eq_ok h (stem ++ propsSuffix), ?_⟩
  refine (FindsFirst.findSome? fun stem _ => findsFirst_fileUnder h stem).congr fun k path => ?_
  constructor
  · rintro ⟨stem, hstem, root, hroot, hbelow⟩
    exact ⟨stem, root, hstem, hroot, hbelow⟩
  · rintro ⟨stem, root, hstem, hroot, hbelow⟩
    exact ⟨stem, hstem, root, hroot, hbelow⟩

/-- Where no search root is overlong, no search is blocked. -/
theorem not_blocked_of_not_overlong (typeName : String)
    (h : ∀ root ∈ l.config.inheritance.searchRoots, ¬ l.Overlong root) :
    ¬ l.Blocked typeName := by
  rintro ⟨-, j, root, hroot, hlong, -⟩
  exact h root (List.mem_of_getElem? hroot) hlong

section Overlong

variable {typeName stem root : String} {stems before after : List String}

/-- The files for the first stem under the search roots before one. -/
theorem fileAt_first_iff (hstems : l.stemsFor typeName = stem :: stems)
    (hroots : l.config.inheritance.searchRoots = before ++ root :: after)
    {k : ℕ ×ₗ List String} (hk : (ofLex k).1 < before.length) {path : Path} :
    l.FileAt typeName (toLex (0, k)) path
      ↔ ∃ root, before[(ofLex k).1]? = some root
        ∧ l.FileBelow root (stem ++ propsSuffix) (ofLex k).2 path := by
  unfold FileAt
  rw [hstems, hroots]
  simp only [ofLex_toLex, List.getElem?_cons_zero, Option.some.injEq,
    List.getElem?_append_left hk, exists_and_left, exists_eq_left']

/-- The least file for the first stem under the search roots before one is the least of all:
what is for another stem or under a later search root comes after it. -/
theorem isLeast_fileAt_first (hstems : l.stemsFor typeName = stem :: stems)
    (hroots : l.config.inheritance.searchRoots = before ++ root :: after)
    {k : ℕ ×ₗ List String} (hlt : (ofLex k).1 < before.length)
    (hk : IsLeast {k | ∃ path root, before[(ofLex k).1]? = some root
      ∧ l.FileBelow root (stem ++ propsSuffix) (ofLex k).2 path} k) :
    IsLeast {k | ∃ path, l.FileAt typeName k path} (toLex (0, k)) := by
  constructor
  · obtain ⟨path, hpath⟩ := hk.1
    exact ⟨path, (fileAt_first_iff hstems hroots hlt).2 hpath⟩
  · rintro k' ⟨path, hpath⟩
    rw [Prod.Lex.le_iff]
    rcases Nat.eq_zero_or_pos (ofLex k').1 with hzero | hpos
    · refine .inr ⟨hzero.symm, ?_⟩
      by_cases hlt' : (ofLex (ofLex k').2).1 < before.length
      · have hpath' : l.FileAt typeName (toLex (0, (ofLex k').2)) path := hzero ▸ hpath
        exact hk.2 ⟨path, (fileAt_first_iff hstems hroots hlt').1 hpath'⟩
      · exact Prod.Lex.le_iff.2 (.inl (Nat.lt_of_lt_of_le hlt (Nat.le_of_not_gt hlt')))
    · exact .inl hpos

/-- A file for the first stem saves a search from the search roots after it. -/
theorem not_blocked_of_fileAt
    (hroots : l.config.inheritance.searchRoots = before ++ root :: after)
    (hbefore : ∀ root ∈ before, ¬ l.Overlong root) {k : ℕ ×ₗ List String}
    (hlt : (ofLex k).1 < before.length) {path : Path}
    (hpath : l.FileAt typeName (toLex (0, k)) path) : ¬ l.Blocked typeName := by
  rintro ⟨-, j, root', hj, hlong, hnone⟩
  refine hnone (ofLex k).1 ?_ (ofLex k).2 path hpath
  refine Nat.lt_of_lt_of_le hlt (Nat.le_of_not_gt fun hj' => ?_)
  rw [hroots, List.getElem?_append_left hj'] at hj
  exact hbefore root' (List.mem_of_getElem? hj) hlong

/-- Where a search root cannot be looked through, the search comes to an end before it, with
the least file there is, or it fails. -/
theorem searchFor_of_overlong (hstems : l.stemsFor typeName = stem :: stems)
    (hroots : l.config.inheritance.searchRoots = before ++ root :: after)
    (hbefore : ∀ root ∈ before, ¬ l.Overlong root) (hroot : l.Overlong root) :
    (l.Blocked typeName ∧ l.searchFor typeName = .error (.badPath .nameTooLong))
      ∨ (¬ l.Blocked typeName ∧ ∃ k path, IsLeast {k | ∃ p, l.FileAt typeName k p} k
        ∧ l.FileAt typeName k path ∧ l.searchFor typeName = .ok (some path)) := by
  have hfirst := findsFirst_fileUnder hbefore stem
  have hunder := fileUnder_overlong hroots hbefore hroot (stem ++ propsSuffix)
  unfold Library.searchFor Library.fileOfStems
  rw [hstems, List.findSomeM?, hunder]
  cases hfound : before.findSome? fun root => (l.indexOf root).lookup (stem ++ propsSuffix) with
  | none =>
    refine .inl ⟨⟨by simp [hstems], before.length, root, by simp [hroots], hroot, ?_⟩, rfl⟩
    intro i hi parts path hfile
    have hbelow := (fileAt_first_iff hstems hroots (k := toLex (i, parts)) hi).1 hfile
    exact hfirst.nowhere hfound _ path hbelow
  | some path =>
    obtain ⟨k, hk, hpath⟩ := hfirst.least path hfound
    have hlt : (ofLex k).1 < before.length := by
      obtain ⟨root', hroot', -⟩ := hpath
      exact (List.getElem?_eq_some_iff.1 hroot').1
    have hfile := (fileAt_first_iff hstems hroots hlt).2 hpath
    exact .inr ⟨not_blocked_of_fileAt hroots hbefore hlt hfile, toLex (0, k), path,
      isLeast_fileAt_first hstems hroots hlt hk, hfile, rfl⟩

end Overlong

/-- **What a search comes to**: it fails, it finds nothing because there is nothing, or it finds
the least file there is. -/
theorem searchFor_cases (l : Library) (typeName : String) :
    (l.Blocked typeName ∧ l.searchFor typeName = .error (.badPath .nameTooLong))
      ∨ (¬ l.Blocked typeName ∧ (∀ k path, ¬ l.FileAt typeName k path)
        ∧ l.searchFor typeName = .ok none)
      ∨ (¬ l.Blocked typeName ∧ ∃ k path, IsLeast {k | ∃ p, l.FileAt typeName k p} k
        ∧ l.FileAt typeName k path ∧ l.searchFor typeName = .ok (some path)) := by
  classical
  cases hbad : l.config.inheritance.searchRoots.find? fun root => decide (l.Overlong root) with
  | none =>
    have hroots : ∀ root ∈ l.config.inheritance.searchRoots, ¬ l.Overlong root :=
      fun root hroot => by simpa using List.find?_eq_none.1 hbad root hroot
    have hfree := not_blocked_of_not_overlong typeName hroots
    obtain ⟨path?, hsearch, hfirst⟩ := searchFor_of_not_overlong typeName hroots
    cases path? with
    | none => exact .inr (.inl ⟨hfree, hfirst.nowhere rfl, hsearch⟩)
    | some path =>
      obtain ⟨k, hk, hpath⟩ := hfirst.least path rfl
      exact .inr (.inr ⟨hfree, k, path, hk, hpath, hsearch⟩)
  | some root =>
    -- the search gets to this root unless there is no stem or an earlier root has a file
    obtain ⟨hlong, before, after, hroots, hbefore⟩ := List.find?_eq_some_iff_append.1 hbad
    cases hstems : l.stemsFor typeName with
    | nil =>
      refine .inr (.inl ⟨fun h => h.1 hstems, ?_, ?_⟩)
      · rintro k path ⟨stem, root, hstem, -⟩
        simp [hstems] at hstem
      · rw [Library.searchFor, hstems]
        rfl
    | cons stem stems =>
      have h := searchFor_of_overlong hstems hroots
        (fun root hroot => by simpa using hbefore root hroot) (of_decide_eq_true hlong)
      exact h.imp_right .inr

/-- A rank belongs to one file at most. -/
theorem FileAt.unique {typeName : String} {k : ℕ ×ₗ ℕ ×ₗ List String} {path path' : Path}
    (h : l.FileAt typeName k path) (h' : l.FileAt typeName k path') : path = path' := by
  obtain ⟨stem, root, -, hroot, hbelow⟩ := h
  obtain ⟨stem', root', -, hroot', hbelow'⟩ := h'
  obtain rfl : root = root' := Option.some.inj (hroot.symm.trans hroot')
  rw [hbelow.path_eq, hbelow'.path_eq]

/-- **The file for a type is the one at the least place**, and a type without a file is one for
which there is no place, unless the search fails at a path that is too long. This holds in every
session, whatever has been listed in it before. -/
theorem findArtifact_least (l : Library) (typeName : String) {s : Session} (hs : s.Agrees l) :
    (l.Blocked typeName →
        (findArtifact l.disk l.path l.config.inheritance typeName).result s
          = .error (.badPath .nameTooLong))
      ∧ (¬ l.Blocked typeName →
        (∀ path, (findArtifact l.disk l.path l.config.inheritance typeName).result s = .ok path
            ↔ ∃ k, IsLeast {k | ∃ p, l.FileAt typeName k p} k ∧ l.FileAt typeName k path)
        ∧ ((findArtifact l.disk l.path l.config.inheritance typeName).result s
              = .error (.unresolvedAncestor typeName (l.stemsFor typeName))
            ↔ ∀ k path, ¬ l.FileAt typeName k path)
        ∧ ((∃ path, (findArtifact l.disk l.path l.config.inheritance typeName).result s = .ok path)
          ∨ (findArtifact l.disk l.path l.config.inheritance typeName).result s
              = .error (.unresolvedAncestor typeName (l.stemsFor typeName)))) := by
  rw [(gives_findArtifact l typeName s hs).1]
  obtain ⟨hblocked, hsearch⟩ | ⟨hfree, hnone, hsearch⟩ | ⟨hfree, k, path, hk, hpath, hsearch⟩ :=
    l.searchFor_cases typeName
  · rw [hsearch]
    exact ⟨fun _ => rfl, fun h => absurd hblocked h⟩
  · rw [hsearch]
    refine ⟨fun h => absurd h hfree, fun _ => ⟨fun path => ?_, iff_of_true rfl hnone, .inr rfl⟩⟩
    refine iff_of_false (fun h => by cases h) ?_
    rintro ⟨k, -, hk⟩
    exact hnone k path hk
  · rw [hsearch]
    refine ⟨fun h => absurd h hfree, fun _ => ⟨fun path' => ?_, ?_, .inl ⟨path, rfl⟩⟩⟩
    · constructor
      · intro h
        obtain rfl : path = path' := Except.ok.inj h
        exact ⟨k, hk, hpath⟩
      · rintro ⟨k', hk', hpath'⟩
        obtain rfl := hk.unique hk'
        exact congrArg Except.ok (hpath.unique hpath')
    · exact iff_of_false (fun h => by cases h) fun hnone => hnone k path hpath

end Library

/-- The components of a library in which the file for a type stands in several places. -/
def manyArtifacts : FileTree :=
  .directory
    [(".a", .directory [("wmprogressbar.props.js.map", .file [])]),
      ("a", .directory [("b", .directory [("progressbar.props.js.map", .file [])]),
        ("progress-bar.props.js.map", .file [])]),
      ("a-a", .directory [("progressbar.props.js.map", .file [])])]

/-- The library itself. -/
def manyArtifactsLibrary : Library :=
  smallLibrary manyArtifacts.entries {}

theorem artifactParts_manyArtifacts :
    artifactParts manyArtifacts
      = [["a", "b", "progressbar.props.js.map"], ["a", "progress-bar.props.js.map"],
        ["a-a", "progressbar.props.js.map"]] := by
  have hkept : (manyArtifacts.descendants.map Prod.fst).filter (fun parts =>
      Text.endsWith (parts.getLast?.getD "") propsSuffix && !(parts.dropLast.any isPassedOver))
        = [["a", "b", "progressbar.props.js.map"], ["a", "progress-bar.props.js.map"],
          ["a-a", "progressbar.props.js.map"]] := by decide
  rw [artifactParts, hkept]
  exact List.mergeSort_of_pairwise (by decide)

/-- The stem comes first, then the search root, and then the order of paths. -/
theorem searchFor_manyArtifacts :
    manyArtifactsLibrary.searchFor "WmProgressBarProps"
      = .ok (some (.ofString "components/a/b/progressbar.props.js.map")) := by
  have hindex : manyArtifactsLibrary.indexOf "components"
      = (artifactParts manyArtifacts).map fun parts =>
          (parts.getLast?.getD "", ⟨"", ["components"] ++ parts⟩) := rfl
  have hcore : manyArtifactsLibrary.indexOf "core" = [] := rfl
  have hroots : ∀ root ∈ ["components", "core"], ¬ manyArtifactsLibrary.Overlong root := by
    simp only [← Library.admitsSearch_eq_false_iff]
    decide
  refine (findSomeM?_eq_ok fun stem _ => Library.fileUnder_eq_ok hroots (stem ++ propsSuffix)).trans
    (congrArg Except.ok ?_)
  simp only [List.findSome?_cons, List.findSome?_nil, hindex, hcore, artifactParts_manyArtifacts]
  decide

theorem findArtifact_least_many :
    Session.Agrees manyArtifactsLibrary {} ∧ ¬ manyArtifactsLibrary.Blocked "WmProgressBarProps"
      ∧ ∃ k, IsLeast {k | ∃ p, manyArtifactsLibrary.FileAt "WmProgressBarProps" k p} k
        ∧ manyArtifactsLibrary.FileAt "WmProgressBarProps" k
            (.ofString "components/a/b/progressbar.props.js.map") := by
  have hagrees := Session.agrees_empty manyArtifactsLibrary
  obtain ⟨hblocked, hfree⟩ :=
    manyArtifactsLibrary.findArtifact_least "WmProgressBarProps" hagrees
  have hresult := (gives_findArtifact manyArtifactsLibrary "WmProgressBarProps" {} hagrees).1
  rw [searchFor_manyArtifacts] at hresult
  have hnot : ¬ manyArtifactsLibrary.Blocked "WmProgressBarProps" := fun h => by
    cases hresult.symm.trans (hblocked h)
  exact ⟨hagrees, hnot, ((hfree hnot).1 _).1 hresult⟩

/-- A library with a search root that is too long, and a file for a type under another one. -/
def overlongRoot : Library :=
  smallLibrary [("a.props.js.map", .file [])]
    { inheritance := { searchRoots := [nameOfLength 256, "components"] } }

theorem overlong_overlongRoot : overlongRoot.Overlong (nameOfLength 256) := by
  have hne (s : String) {c : Char} (hc : c ∈ s.toList) (hcn : c ≠ 'n') : nameOfLength 256 ≠ s :=
    fun h => not_mem_nameOfLength hcn 256 (h ▸ hc)
  have hlong : Disk.nameLimit < (nameOfLength 256).utf8ByteSize := by
    rw [utf8ByteSize_nameOfLength]
    decide
  have hempty : nameOfLength 256 ≠ "" := fun h => by
    rw [h] at hlong
    exact absurd hlong (by decide)
  refine .inl ?_
  rw [Path.child_eq_below _ hempty (hne "." (c := '.') (by decide) (by decide))
    (not_mem_nameOfLength (by decide) 256)]
  exact Disk.find_below_of_long rfl (not_mem_nameOfLength (by decide) 256)
    (hne ".." (c := '.') (by decide) (by decide)) hlong

/-- A search root that leads nowhere hides the files under those after it. -/
theorem findArtifact_overlongRoot :
    (findArtifact overlongRoot.disk overlongRoot.path overlongRoot.config.inheritance
        "AProps").result {} = .error (.badPath .nameTooLong)
      ∧ overlongRoot.FileAt "AProps" (toLex (0, toLex (1, ["a.props.js.map"])))
          (.ofString "components/a.props.js.map") := by
  have hfile : overlongRoot.FileAt "AProps" (toLex (0, toLex (1, ["a.props.js.map"])))
      (.ofString "components/a.props.js.map") := by
    refine ⟨"a", "components", by decide, rfl, ⟨_, _, rfl, rfl, .entry List.mem_cons_self⟩, ?_, ?_,
      ?_⟩
    · decide
    · exact fun n hn => absurd hn List.not_mem_nil
    · decide
  have hblocked : overlongRoot.Blocked "AProps" :=
    ⟨by decide, 0, nameOfLength 256, rfl, overlong_overlongRoot,
      fun i hi => absurd hi (Nat.not_lt_zero i)⟩
  rw [(gives_findArtifact overlongRoot "AProps" {} (Session.agrees_empty _)).1]
  obtain ⟨-, hsearch⟩ | ⟨hfree, -⟩ | ⟨hfree, -⟩ := overlongRoot.searchFor_cases "AProps"
  · rw [hsearch]
    exact ⟨rfl, hfile⟩
  · exact absurd hblocked hfree
  · exact absurd hblocked hfree

end ComponentCatalog
