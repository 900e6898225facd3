import ComponentCatalog.Proofs.Footprint
import Mathlib.Data.List.Perm.Lattice

/-!
# The order of entries means nothing

A file system lists the entries of a directory in an order of its own. Two trees are *relisted*
if they differ in that order only, in one directory or in many (`FileTree.Relisted`). Wherever
entries are read in a row they are sorted first, but not always in the same way: the names of
files for themselves, directories by their names, files at any depth by their whole paths; and
mostly the first that fits is taken. This module goes through these places and comes to the
result that nothing that is made from a library shows how its directories are listed
(`allDocuments_relisted`).
-/

namespace ComponentCatalog

open Text

namespace FileTree

/-- **Trees that differ in the order of entries only.** The names of a directory are distinct,
as they are on a disk. -/
inductive Relisted : FileTree → FileTree → Prop
  | file (bytes : List UInt8) : Relisted (.file bytes) (.file bytes)
  | directory {es es' : List (String × FileTree)} (nodup : (es.map Prod.fst).Nodup)
      (perm : (es.map Prod.fst).Perm (es'.map Prod.fst))
      (inner : ∀ n t t', (n, t) ∈ es → (n, t') ∈ es' → Relisted t t') :
      Relisted (.directory es) (.directory es')

/-- Entries that are the same but for their order and what is below them. -/
structure EntriesRelisted (es es' : List (String × FileTree)) : Prop where
  nodup : (es.map Prod.fst).Nodup
  perm : (es.map Prod.fst).Perm (es'.map Prod.fst)
  inner : ∀ n t t', (n, t) ∈ es → (n, t') ∈ es' → Relisted t t'

/-- Entries at the same place of two lists. -/
def Alike {α : Type} (a b : α × FileTree) : Prop :=
  a.1 = b.1 ∧ Relisted a.2 b.2

section Relisted

variable {t t' : FileTree} {es es' : List (String × FileTree)}

/-- Directories that are relisted have relisted entries. -/
theorem Relisted.entries (h : Relisted t t') : EntriesRelisted t.entries t'.entries := by
  cases h with
  | file bytes => exact ⟨List.nodup_nil, .nil, nofun⟩
  | directory nodup perm inner => exact ⟨nodup, perm, inner⟩

theorem Relisted.isDirectory_eq (h : Relisted t t') : t.isDirectory = t'.isDirectory := by
  cases h <;> rfl

/-- Listing in another order can be undone. -/
theorem Relisted.symm (h : Relisted t t') : Relisted t' t := by
  induction h with
  | file bytes => exact .file bytes
  | directory nodup perm _ ih =>
    exact .directory (perm.nodup_iff.1 nodup) perm.symm fun n t t' ht ht' => ih n t' t ht' ht

/-- A directory with its entries in another order. -/
theorem relisted_of_perm (hnodup : (es.map Prod.fst).Nodup) (hperm : es.Perm es')
    (hself : ∀ e ∈ es, Relisted e.2 e.2) : Relisted (.directory es) (.directory es') := by
  refine .directory hnodup (hperm.map _) fun n t t' ht ht' => ?_
  have heq := List.inj_on_of_nodup_map hnodup ht (hperm.mem_iff.2 ht') rfl
  rw [← (Prod.mk.inj heq).2]
  exact hself _ ht

/-- A tree in which no directory has a name twice is listed like itself. -/
theorem relisted_self : ∀ t : FileTree, t.isWellNamed = true → Relisted t t
  | .file bytes, _ => .file bytes
  | .directory es, h => by
    obtain ⟨hnodup, hentries⟩ := isWellNamed_directory_iff.1 h
    refine relisted_of_perm hnodup (.refl es) fun e he => ?_
    have hsize := List.sizeOf_lt_of_mem he
    exact relisted_self e.2 (hentries e he).2
  termination_by t => sizeOf t
  decreasing_by
    cases e
    simp only [directory.sizeOf_spec, Prod.mk.sizeOf_spec] at hsize ⊢
    omega

/-- An entry has its counterpart. -/
theorem EntriesRelisted.exists_mem (h : EntriesRelisted es es') {n : String} {t : FileTree}
    (ht : (n, t) ∈ es) : ∃ t', (n, t') ∈ es' ∧ Relisted t t' := by
  obtain ⟨⟨m, t'⟩, ht', rfl⟩ := List.mem_map.1 (h.perm.mem_iff.1 (List.mem_map_of_mem ht))
  exact ⟨t', ht', h.inner _ _ _ ht ht'⟩

theorem EntriesRelisted.symm (h : EntriesRelisted es es') : EntriesRelisted es' es :=
  ⟨h.perm.nodup_iff.1 h.nodup, h.perm.symm, fun n t t' ht ht' => (h.inner n t' t ht' ht).symm⟩

/-- A name is looked up with the same success. -/
theorem EntriesRelisted.lookup (h : EntriesRelisted es es') (n : String) :
    (es.lookup n = none ∧ es'.lookup n = none)
      ∨ ∃ t t', es.lookup n = some t ∧ es'.lookup n = some t' ∧ Relisted t t' := by
  rcases ht : es.lookup n with _ | t
  · rcases ht' : es'.lookup n with _ | t'
    · exact .inl ⟨rfl, rfl⟩
    · obtain ⟨t, hmem, -⟩ := h.symm.exists_mem (mem_of_lookup_eq_some ht')
      cases ht.symm.trans (lookup_eq_some_of_mem h.nodup hmem)
  · obtain ⟨t', hmem, hinner⟩ := h.exists_mem (mem_of_lookup_eq_some ht)
    exact .inr ⟨t, t', rfl, lookup_eq_some_of_mem h.symm.nodup hmem, hinner⟩

/-- The same places are there. -/
theorem Relisted.at? (h : Relisted t t') (place : List String) :
    (t.at? place = none ∧ t'.at? place = none)
      ∨ ∃ u u', t.at? place = some u ∧ t'.at? place = some u' ∧ Relisted u u' := by
  induction place generalizing t t' with
  | nil => exact .inr ⟨t, t', rfl, rfl, h⟩
  | cons p place ih =>
    rw [FileTree.at?, FileTree.at?]
    obtain ⟨hp, hp'⟩ | ⟨u, u', hp, hp', hu⟩ := h.entries.lookup p
    · rw [hp, hp']
      exact .inl ⟨rfl, rfl⟩
    · rw [hp, hp']
      exact ih hu

/-- A test that does not see the order of entries leaves entries that are the same. -/
theorem EntriesRelisted.filter (h : EntriesRelisted es es') (test : String × FileTree → Bool)
    (htest : ∀ n t t', Relisted t t' → test (n, t) = test (n, t')) :
    EntriesRelisted (es.filter test) (es'.filter test) := by
  have hnodup (as : List (String × FileTree)) (has : (as.map Prod.fst).Nodup) :
      ((as.filter test).map Prod.fst).Nodup := (List.filter_sublist.map _).nodup has
  have hmem {as bs : List (String × FileTree)} (hab : EntriesRelisted as bs) {n : String}
      (hn : n ∈ (as.filter test).map Prod.fst) : n ∈ (bs.filter test).map Prod.fst := by
    obtain ⟨⟨m, t⟩, ht, rfl⟩ := List.mem_map.1 hn
    obtain ⟨ht, hpass⟩ := List.mem_filter.1 ht
    obtain ⟨t', ht', hrel⟩ := hab.exists_mem ht
    exact List.mem_map.2 ⟨_, List.mem_filter.2 ⟨ht', (htest m t t' hrel).symm.trans hpass⟩, rfl⟩
  refine ⟨hnodup es h.nodup, ?_, fun n t t' ht ht' => ?_⟩
  · rw [List.perm_ext_iff_of_nodup (hnodup es h.nodup) (hnodup es' h.symm.nodup)]
    exact fun n => ⟨hmem h, hmem h.symm⟩
  · exact h.inner n t t' (List.mem_of_mem_filter ht) (List.mem_of_mem_filter ht')

/-- Entries are sorted by their names. -/
theorem map_fst_sortEntries (es : List (String × FileTree)) :
    (sortEntries es).map Prod.fst = sortNames (es.map Prod.fst) :=
  List.map_mergeSort fun _ _ _ _ => rfl

/-- Entries in the same order with relisted trees are alike. -/
theorem forall₂_alike_of_map_fst_eq {α : Type} {as bs : List (α × FileTree)}
    (hfst : as.map Prod.fst = bs.map Prod.fst)
    (h : ∀ n t t', (n, t) ∈ as → (n, t') ∈ bs → Relisted t t') : List.Forall₂ Alike as bs := by
  induction as generalizing bs with
  | nil =>
    rw [List.map_eq_nil_iff.1 hfst.symm]
    exact .nil
  | cons a as ih =>
    obtain ⟨b, bs, rfl, hb, hbs⟩ := List.map_eq_cons_iff.1 hfst.symm
    obtain ⟨n, t⟩ := a
    obtain ⟨n', t'⟩ := b
    obtain rfl : n' = n := hb
    exact .cons ⟨rfl, h _ _ _ List.mem_cons_self List.mem_cons_self⟩
      (ih hbs.symm fun m u u' hu hu' =>
        h m u u' (List.mem_cons_of_mem _ hu) (List.mem_cons_of_mem _ hu'))

/-- **Sorted by their names, entries stand in the same order.** -/
theorem EntriesRelisted.sort (h : EntriesRelisted es es') :
    List.Forall₂ Alike (sortEntries es) (sortEntries es') := by
  refine forall₂_alike_of_map_fst_eq ?_ fun n t t' ht ht' => ?_
  · rw [map_fst_sortEntries, map_fst_sortEntries, sortNames_eq_of_perm h.perm]
  · exact h.inner n t t' ((List.mergeSort_perm _ _).mem_iff.1 ht)
      ((List.mergeSort_perm _ _).mem_iff.1 ht')

/-- The names that are listed are the same. -/
theorem Relisted.sortedNames_eq (h : Relisted t t') :
    (t'.sortedNames fun e => !e.isDirectory) = t.sortedNames fun e => !e.isDirectory := by
  have hfiles := h.entries.filter (fun e => !e.2.isDirectory) fun n t t' hrel =>
    congrArg not hrel.isDirectory_eq
  exact (sortNames_eq_of_perm hfiles.perm).symm

end Relisted

end FileTree

/-! ## Looking up paths -/

namespace Disk

variable {d : Disk} {t : FileTree}

/-- The disk with another tree. -/
def withTree (d : Disk) (t : FileTree) : Disk :=
  { d with tree := t }

theorem cwd_withTree : (d.withTree t).cwd = d.cwd := rfl

/-- A step leads to the same place. -/
theorem step_of_relisted {u u' : FileTree} (h : u.Relisted u') (place : List String)
    (part : String) : step u' place part = step u place part := by
  unfold step
  obtain ⟨hat, hat'⟩ | ⟨v, v', hat, hat', hv⟩ := h.at? place
  · rw [hat, hat']
  · rw [hat, hat']
    cases hv with
    | file bytes => rfl
    | directory nodup perm inner =>
      obtain ⟨hl, hl'⟩ | ⟨w, w', hl, hl', -⟩ :=
        FileTree.EntriesRelisted.lookup ⟨nodup, perm, inner⟩ part
      · simp only [hl, hl']
      · simp only [hl, hl', Option.isSome_some]

/-- A path leads to the same place. -/
theorem follow_of_relisted {u u' : FileTree} (h : u.Relisted u') (parts : List String) :
    follow u' parts = follow u parts := by
  have hstep : step u' = step u := funext fun place => funext fun part =>
    step_of_relisted h place part
  rw [follow, follow, hstep]

/-- **A path leads to the same**, but for the order of entries, or fails in the same way. -/
theorem find_of_relisted (h : d.tree.Relisted t) (p : Path) :
    (∃ f, d.find p = .error f ∧ (d.withTree t).find p = .error f)
      ∨ ∃ u u', d.find p = .ok u ∧ (d.withTree t).find p = .ok u' ∧ u.Relisted u' := by
  have hlong : (d.withTree t).isTooLong p = d.isTooLong p := rfl
  have hfollow : follow t (d.fullParts p) = follow d.tree (d.fullParts p) :=
    follow_of_relisted h _
  have hparts : (d.withTree t).fullParts p = d.fullParts p := rfl
  have htree : (d.withTree t).tree = t := rfl
  unfold find
  rw [hlong, hparts, htree, hfollow]
  split
  · exact .inl ⟨_, rfl, rfl⟩
  · rcases follow d.tree (d.fullParts p) with f | place
    · exact .inl ⟨f, rfl, rfl⟩
    · dsimp only [bind, Except.bind]
      obtain ⟨hat, hat'⟩ | ⟨u, u', hat, hat', hu⟩ := h.at? place
      · rw [hat, hat']
        exact .inl ⟨_, rfl, rfl⟩
      · rw [hat, hat']
        exact .inr ⟨u, u', rfl, rfl, hu⟩

/-- Files are read as before. -/
theorem readFile_of_relisted (h : d.tree.Relisted t) (p : Path) :
    (d.withTree t).readFile p = d.readFile p := by
  unfold readFile
  obtain ⟨f, hf, hf'⟩ | ⟨u, u', hu, hu', hrel⟩ := find_of_relisted h p
  · rw [hf, hf']
  · rw [hu, hu']
    cases hrel <;> rfl

theorem isFile_of_relisted (h : d.tree.Relisted t) (p : Path) :
    (d.withTree t).isFile p = d.isFile p := by
  unfold isFile
  obtain ⟨f, hf, hf'⟩ | ⟨u, u', hu, hu', hrel⟩ := find_of_relisted h p
  · rw [hf, hf']
  · rw [hu, hu']
    cases hrel <;> rfl

theorem isDirectory_of_relisted (h : d.tree.Relisted t) (p : Path) :
    (d.withTree t).isDirectory p = d.isDirectory p := by
  unfold isDirectory find?
  obtain ⟨f, hf, hf'⟩ | ⟨u, u', hu, hu', hrel⟩ := find_of_relisted h p
  · rw [hf, hf']
  · rw [hu, hu']
    exact hrel.isDirectory_eq.symm

/-- A directory is found if it was, with its entries in another order. -/
theorem directory?_of_relisted (h : d.tree.Relisted t) (p : Path) :
    (∃ f, d.directory? p = .error f ∧ (d.withTree t).directory? p = .error f)
      ∨ (d.directory? p = .ok none ∧ (d.withTree t).directory? p = .ok none)
      ∨ ∃ u u', d.directory? p = .ok (some u) ∧ (d.withTree t).directory? p = .ok (some u')
        ∧ u.Relisted u' := by
  unfold directory?
  obtain ⟨f, hf, hf'⟩ | ⟨u, u', hu, hu', hrel⟩ := find_of_relisted h p
  · rw [hf, hf']
    cases f with
    | nameTooLong => exact .inl ⟨_, rfl, rfl⟩
    | _ => exact .inr (.inl ⟨rfl, rfl⟩)
  · rw [hu, hu']
    cases hrel with
    | file bytes => exact .inr (.inl ⟨rfl, rfl⟩)
    | directory nodup perm inner =>
      exact .inr (.inr ⟨_, _, rfl, rfl, .directory nodup perm inner⟩)

end Disk

/-! ## Sources and components -/

section Walk

variable {d : Disk} {t : FileTree}

/-- The files of a directory have the same names. -/
theorem fileNames?_of_relisted (h : d.tree.Relisted t) (dir : Path) :
    (d.withTree t).fileNames? dir = d.fileNames? dir := by
  unfold Disk.fileNames? Disk.listing Disk.readDirectory
  obtain ⟨f, hf, hf'⟩ | ⟨u, u', hu, hu', hrel⟩ := d.find_of_relisted h dir
  · rw [hf, hf']
    rfl
  · rw [hu, hu']
    cases hdir : u.isDirectory with
    | false =>
      simp only [bind, Except.bind, hdir, ← hrel.isDirectory_eq]
      rfl
    | true =>
      have hlist : (d.withTree t).isListable dir u' = d.isListable dir u :=
        isListable_eq_of_perm rfl hrel.entries.symm.perm
      simp only [bind, Except.bind, hdir, ← hrel.isDirectory_eq, if_true, pure, Except.pure, hlist]
      split
      · exact congrArg some hrel.sortedNames_eq
      · rfl

/-- The sources of a directory are the same. -/
theorem sourcesOf_relisted (h : d.tree.Relisted t) (dir : Path) :
    sourcesOf (d.withTree t) dir = sourcesOf d dir :=
  sourcesOf_congr d.cwd_withTree (fileNames?_of_relisted h dir) fun _ _ _ _ _ _ => by
    rw [d.readFile_of_relisted h]

theorem hasArtifacts_relisted (h : d.tree.Relisted t) (dir : Path) :
    hasArtifacts (d.withTree t) dir = hasArtifacts d dir := by
  unfold hasArtifacts
  rw [d.isFile_of_relisted h, d.isFile_of_relisted h]

/-- The directories below one come in the same order. -/
theorem subdirectories_relisted {u u' : FileTree} (h : u.Relisted u') (dir : Path) :
    List.Forall₂ FileTree.Alike (subdirectories dir u) (subdirectories dir u') := by
  have hinner := h.entries.filter (fun e => e.2.isDirectory && !isSkipped e.1)
    fun n t t' hrel => by rw [hrel.isDirectory_eq]
  unfold subdirectories
  dsimp only
  rw [List.forall₂_map_left_iff, List.forall₂_map_right_iff]
  exact hinner.sort.imp fun a b hab => ⟨congrArg dir.below hab.1, hab.2⟩

end Walk

/-- The library with its files listed in another way. -/
def Library.relist (l : Library) (t : FileTree) : Library :=
  l.on (l.disk.withTree t)

section Components

variable {l : Library} {t : FileTree}

/-- **The walk through a group is the same**: one directory after the other, with what comes of
it, by induction on the directories that are left. -/
theorem walk_relisted (h : l.disk.tree.Relisted t) (group : String) (found : List Candidate)
    {stack stack' : List (Path × FileTree)} (hstack : List.Forall₂ FileTree.Alike stack stack') :
    (l.relist t).walk group found stack' = l.walk group found stack := by
  have hconsider (found : List Candidate) (dir : Path) :
      (l.relist t).consider group found dir = l.consider group found dir := by
    have hhas : hasArtifacts (l.relist t).disk dir = hasArtifacts l.disk dir :=
      hasArtifacts_relisted h dir
    unfold Library.consider
    rw [hhas]
    rfl
  induction found, stack using Library.walk.induct generalizing stack' with
  | case1 found =>
    cases hstack
    rw [Library.walk, Library.walk]
  | case2 found dir u stack ihin ihout =>
    obtain ⟨⟨dir', u'⟩, rest, ⟨hdir, hu⟩, hrest, rfl⟩ := List.forall₂_cons_left_iff.1 hstack
    obtain rfl : dir = dir' := hdir
    have hlist : (l.relist t).isListable dir u' = l.isListable dir u :=
      isListable_eq_of_perm rfl hu.entries.symm.perm
    rw [Library.walk, Library.walk, hconsider, hlist]
    refine congrArg _ (funext fun found' => ?_)
    split
    · exact ihin found' (List.rel_append (subdirectories_relisted hu dir) hrest)
    · exact congrArg _ (funext fun _ => ihout found' hrest)

/-- The way through all groups meets the same directories. -/
theorem walkGroups_relisted (h : l.disk.tree.Relisted t) (found : List Candidate)
    {entries entries' : List (String × FileTree)}
    (hentries : List.Forall₂ FileTree.Alike entries entries') :
    (l.relist t).walkGroups found entries' = l.walkGroups found entries := by
  induction hentries generalizing found with
  | nil => rfl
  | @cons a b entries entries' hab _ ih =>
    obtain ⟨n, u⟩ := a
    obtain ⟨n', u'⟩ := b
    obtain ⟨hn, hu⟩ := hab
    obtain rfl : n = n' := hn
    have hlong : (l.relist t).disk.isTooLong
        ((l.relist t).componentsPath.below n)
          = l.disk.isTooLong (l.componentsPath.below n) := rfl
    have hgroup : (l.relist t).isGroup (n, u') = l.isGroup (n, u) := by
      unfold Library.isGroup
      rw [show (n, u').2.isDirectory = (n, u).2.isDirectory from hu.isDirectory_eq.symm]
      rfl
    have hwalk := walk_relisted h n found (.cons ⟨rfl, hu⟩ .nil : List.Forall₂ FileTree.Alike
      [(l.componentsPath.below n, u)] [(l.componentsPath.below n, u')])
    rw [Library.walkGroups, Library.walkGroups, hlong, hgroup, ih]
    split
    · rfl
    · split
      · show (l.relist t).walk n found [(l.componentsPath.below n, u')] >>= _ = _
        rw [hwalk]
        exact congrArg _ (funext fun found' => ih found')
      · rfl

/-- The candidates are the same. -/
theorem walkCandidates_relisted (h : l.disk.tree.Relisted t) :
    (l.relist t).walkCandidates = l.walkCandidates := by
  have hpath : (l.relist t).componentsPath = l.componentsPath := rfl
  have hdisk : (l.relist t).disk = l.disk.withTree t := rfl
  unfold Library.walkCandidates
  rw [hpath, hdisk]
  obtain ⟨f, hf, hf'⟩ | ⟨hnone, hnone'⟩ | ⟨u, u', hu, hu', hrel⟩ :=
    l.disk.directory?_of_relisted h l.componentsPath
  · rw [hf, hf']
  · rw [hnone, hnone']
  · rw [hu, hu']
    exact walkGroups_relisted h [] hrel.entries.sort

/-- The components that are found are the same. -/
theorem findComponents_relisted (h : l.disk.tree.Relisted t) :
    (l.relist t).findComponents = l.findComponents := by
  unfold Library.findComponents
  rw [walkCandidates_relisted h]
  rfl

end Components

/-! ## Files that declare a type -/

namespace Path

/-- Any two paths can be compared. -/
theorem partsLe_total (as bs : List String) : (partsLe as bs || partsLe bs as) = true := by
  induction as generalizing bs with
  | nil => rfl
  | cons a as ih =>
    cases bs with
    | nil => rfl
    | cons b bs =>
      rw [partsLe, partsLe]
      by_cases hab : a < b
      · simp [hab]
      by_cases hba : b < a
      · simp [hba]
      · obtain rfl := String.le_antisymm (String.not_lt.1 hba) (String.not_lt.1 hab)
        simpa using ih bs

theorem partsLe_cons {a b : String} {as bs : List String} :
    partsLe (a :: as) (b :: bs) = true ↔ a < b ∨ a = b ∧ partsLe as bs = true := by
  simp [partsLe]

theorem partsLe_trans (as bs cs : List String) (hab : partsLe as bs = true)
    (hbc : partsLe bs cs = true) : partsLe as cs = true := by
  induction as generalizing bs cs with
  | nil => rfl
  | cons a as ih =>
    cases bs with
    | nil => cases hab
    | cons b bs =>
      cases cs with
      | nil => cases hbc
      | cons c cs =>
        rw [partsLe_cons] at hab hbc ⊢
        rcases hab with hab | ⟨rfl, hab⟩
        · exact .inl (hbc.elim (String.lt_trans hab) fun h => h.1 ▸ hab)
        · exact hbc.imp_right fun h => ⟨h.1, ih bs cs hab h.2⟩

/-- Paths that are before each other are equal. -/
theorem partsLe_antisymm {as bs : List String} (hab : partsLe as bs = true)
    (hba : partsLe bs as = true) : as = bs := by
  induction as generalizing bs with
  | nil =>
    cases bs with
    | nil => rfl
    | cons b bs => cases hba
  | cons a as ih =>
    cases bs with
    | nil => cases hab
    | cons b bs =>
      rw [partsLe_cons] at hab hba
      rcases hab with hab | ⟨rfl, hab⟩
      · rcases hba with hba | ⟨rfl, -⟩
        · exact absurd hab (String.lt_asymm hba)
        · exact absurd hab (String.lt_irrefl _)
      · rcases hba with hba | ⟨-, hba⟩
        · exact absurd hba (String.lt_irrefl _)
        · rw [ih hab hba]

end Path

namespace FileTree

/-- The names that lead to everything below a tree. -/
def waysBelow (t : FileTree) : List (List String) :=
  t.descendants.map Prod.fst

/-- The names that lead to an entry and to everything below it. -/
def waysOf (n : String) (t : FileTree) : List (List String) :=
  [n] :: t.waysBelow.map (n :: ·)

theorem waysBelow_directory (es : List (String × FileTree)) :
    (directory es).waysBelow = es.flatMap fun e => waysOf e.1 e.2 := by
  unfold waysBelow
  rw [descendants_directory, List.map_flatMap]
  simp only [waysOf, waysBelow, List.map_cons, List.map_map, Function.comp_def]

/-- **The same ways lead down**, in another order. -/
theorem Relisted.waysBelow {t t' : FileTree} (h : Relisted t t') :
    t.waysBelow.Perm t'.waysBelow := by
  induction h with
  | file bytes => exact .refl _
  | @directory es es' nodup perm inner ih =>
    -- both sides are read along the names, which are the same up to their order
    have hread (as : List (String × FileTree)) (has : (as.map Prod.fst).Nodup) :
        (FileTree.directory as).waysBelow = (as.map Prod.fst).flatMap fun n =>
          ((as.lookup n).map (waysOf n)).getD [] := by
      rw [waysBelow_directory, List.flatMap_map]
      refine List.flatMap_congr fun e he => ?_
      rw [lookup_eq_some_of_mem has he]
      rfl
    rw [hread es nodup, hread es' (perm.nodup_iff.1 nodup)]
    refine perm.flatMap fun n hn => ?_
    obtain ⟨⟨m, t⟩, ht, rfl⟩ := List.mem_map.1 hn
    obtain ⟨t', ht', -⟩ := EntriesRelisted.exists_mem ⟨nodup, perm, inner⟩ ht
    rw [lookup_eq_some_of_mem nodup ht, lookup_eq_some_of_mem (perm.nodup_iff.1 nodup) ht']
    exact ((ih m t t' ht ht').map _).cons _

/-- What one tree holds, the other holds as well. -/
theorem Relisted.exists_holds {t t' u : FileTree} {ps : List String} (h : Relisted t t')
    (hu : t.Holds ps u) : ∃ u', t'.Holds ps u' ∧ Relisted u u' := by
  induction hu generalizing t' with
  | entry hmem =>
    obtain ⟨u', hmem', hu⟩ := h.entries.exists_mem hmem
    cases h
    exact ⟨u', .entry hmem', hu⟩
  | inner hmem _ ih =>
    obtain ⟨v', hmem', hv⟩ := h.entries.exists_mem hmem
    obtain ⟨u', hu', hrel⟩ := ih hv
    cases h
    exact ⟨u', .inner hmem' hu', hrel⟩

end FileTree

section Artifacts

variable {l : Library} {t : FileTree}

/-- The files that may declare a type are the same, and sorted by their paths in the same
order. -/
theorem artifactParts_relisted {u u' : FileTree} (h : u.Relisted u') :
    artifactParts u' = artifactParts u := by
  unfold artifactParts
  exact mergeSort_eq_of_perm Path.partsLe_trans Path.partsLe_total
    (fun _ _ _ _ => Path.partsLe_antisymm) (h.waysBelow.symm.filter _)

/-- The directories below a search root are the same, and so are their paths. -/
theorem isSearchable_relisted {d : Disk} {u u' : FileTree} (h : u.Relisted u') (dir : Path) :
    (d.withTree t).isSearchable dir u' = d.isSearchable dir u := by
  have hall {v v' : FileTree} (hv : v.Relisted v') (hs : d.isSearchable dir v = true) :
      d.isSearchable dir v' = true := by
    unfold Disk.isSearchable at hs ⊢
    rw [List.all_eq_true] at hs ⊢
    rintro ⟨parts, w'⟩ hmem'
    obtain ⟨w, hw, hrel⟩ := hv.symm.exists_holds (FileTree.mem_descendants_iff.1 hmem')
    have hpass := hs (parts, w) (FileTree.mem_descendants_iff.2 hw)
    rwa [show (parts, w).2.isDirectory = w'.isDirectory from hrel.isDirectory_eq.symm] at hpass
  exact Bool.eq_iff_iff.2 ⟨hall h.symm, hall h⟩

/-- A search root leads to the same, but for the order of entries, or fails in the same way. -/
theorem searchRoot?_of_relisted {d : Disk} (h : d.tree.Relisted t) (root : Path) :
    (∃ f, d.searchRoot? root = .error f ∧ (d.withTree t).searchRoot? root = .error f)
      ∨ (d.searchRoot? root = .ok none ∧ (d.withTree t).searchRoot? root = .ok none)
      ∨ ∃ u u', d.searchRoot? root = .ok (some u)
        ∧ (d.withTree t).searchRoot? root = .ok (some u') ∧ u.Relisted u' := by
  unfold Disk.searchRoot?
  obtain ⟨f, hf, hf'⟩ | ⟨hnone, hnone'⟩ | ⟨u, u', hu, hu', hrel⟩ := d.directory?_of_relisted h root
  · rw [hf, hf']
    exact .inl ⟨f, rfl, rfl⟩
  · rw [hnone, hnone']
    exact .inr (.inl ⟨rfl, rfl⟩)
  · rw [hu, hu']
    dsimp only
    rw [isSearchable_relisted hrel]
    split
    · exact .inr (.inr ⟨u, u', rfl, rfl, hrel⟩)
    · exact .inl ⟨_, rfl, rfl⟩

/-- The files under a search root are listed alike. -/
theorem artifactIndex_relisted {d : Disk} (h : d.tree.Relisted t) (library : Path)
    (root : String) : artifactIndex (d.withTree t) library root = artifactIndex d library root := by
  unfold artifactIndex
  dsimp only
  obtain ⟨f, hf, hf'⟩ | ⟨hnone, hnone'⟩ | ⟨u, u', hu, hu', hrel⟩ :=
    searchRoot?_of_relisted h (library.child root)
  · rw [hf, hf']
  · rw [hnone, hnone']
  · rw [hu, hu']
    dsimp only
    rw [artifactParts_relisted hrel]

/-- The same file is found for a type. -/
theorem findArtifact_relisted {d : Disk} (h : d.tree.Relisted t) (library : Path)
    (rules : InheritanceRules) (typeName : String) :
    findArtifact (d.withTree t) library rules typeName = findArtifact d library rules typeName := by
  have hunder (root : String) :
      artifactsUnder (d.withTree t) library root = artifactsUnder d library root := by
    unfold artifactsUnder
    rw [artifactIndex_relisted h]
  have hfirst (file : String) (roots : List String) :
      firstUnder? (d.withTree t) library file roots = firstUnder? d library file roots := by
    induction roots with
    | nil => rfl
    | cons root rest ih => rw [firstUnder?, firstUnder?, hunder, ih]
  have hstems (roots stems : List String) :
      firstOfStems? (d.withTree t) library roots stems = firstOfStems? d library roots stems := by
    induction stems with
    | nil => rfl
    | cons stem rest ih => rw [firstOfStems?, firstOfStems?, hfirst, ih]
  unfold findArtifact
  dsimp only
  rw [hstems]

end Artifacts

/-! ## Documents -/

section Documents

variable {l : Library} {t : FileTree}

theorem admits_relisted {d : Disk} (h : d.tree.Relisted t) (p : Path) :
    (d.withTree t).admits p = d.admits p := by
  unfold Disk.admits
  obtain ⟨f, hf, hf'⟩ | ⟨hnone, hnone'⟩ | ⟨u, u', hu, hu', -⟩ := d.directory?_of_relisted h p
  · rw [hf, hf']
  · rw [hnone, hnone']
  · rw [hu, hu']
    rfl

theorem admitsSearch_relisted {d : Disk} (h : d.tree.Relisted t) (root : Path) :
    (d.withTree t).admitsSearch root = d.admitsSearch root := by
  unfold Disk.admitsSearch
  obtain ⟨f, hf, hf'⟩ | ⟨hnone, hnone'⟩ | ⟨u, u', hu, hu', -⟩ := searchRoot?_of_relisted h root
  · rw [hf, hf']
  · rw [hnone, hnone']
  · rw [hu, hu']
    rfl

theorem declarationOf_relisted (h : l.disk.tree.Relisted t) (typeName : String) :
    (l.relist t).declarationOf typeName = l.declarationOf typeName := by
  refine declarationOf_congr l.disk.cwd_withTree (fun root _ => admitsSearch_relisted h _)
    fun root _ => ?_
  have hindex : artifactIndex (l.relist t).disk (l.relist t).path root
      = artifactIndex l.disk l.path root := artifactIndex_relisted h l.path root
  have hread (p : Path) : (l.relist t).disk.readFile p = l.disk.readFile p :=
    l.disk.readFile_of_relisted h p
  show (l.relist t).artifactsFor typeName root = _
  unfold Library.artifactsFor
  rw [hindex]
  simp only [hread]
  rfl

/-- Listing files in another way makes no difference at any directory. -/
theorem sameAt_relisted (h : l.disk.tree.Relisted t) (name : String) (dir : Path) :
    l.SameAt (l.disk.withTree t) name dir where
  sources := by rw [sourcesOf_relisted h]
  props := fun sources _ =>
    propsIn_congr
      (rootContribution_congr l.disk.cwd_withTree (by rw [l.disk.readFile_of_relisted h]))
      fun _ _ typeName _ => declarationOf_relisted h typeName
  isDirectory := fun _ _ => l.disk.isDirectory_of_relisted h _
  childFault? := fun entry _ => by
    rw [childFault?_eq, childFault?_eq]
    show (if (l.disk.withTree t).admits (dir.child entry.2) then _ else _) = _
    rw [admits_relisted h]

/-- Candidates have the same documents. -/
theorem documentOf_relisted (h : l.disk.tree.Relisted t) (c : Candidate) :
    (l.relist t).documentOf c = l.documentOf c := by
  have hcomponent (path category name : String) :
      (l.relist t).componentOf path category name = l.componentOf path category name := by
    unfold Library.componentOf
    rw [(gives_componentDocument_documentIn (l.relist t) path category (some name)).fresh_eq,
      (gives_componentDocument_documentIn l path category (some name)).fresh_eq]
    rw [show (l.relist t).documentIn category (some name) [] (.ofString path)
      = l.documentIn category (some name) [] (.ofString path) from
        documentIn_congr l.disk.cwd_withTree category (some name) (sameAt_relisted h _ _)
          fun x _ => sameAt_relisted h _ _]
    rfl
  unfold Library.documentOf
  simp only [hcomponent]

end Documents

/-- **The order of entries means nothing.** If the directories of a disk list their entries in
other orders, the components that are found are the same, in the same order and with the same
notes, and so are the file that is chosen for every type and the sources that are recovered from
every directory; and the documents of the library are the same. -/
theorem allDocuments_relisted (l : Library) (t : FileTree) (h : l.disk.tree.Relisted t) :
    (l.relist t).walkCandidates = l.walkCandidates
      ∧ (l.relist t).findComponents = l.findComponents
      ∧ (∀ library rules typeName, findArtifact (l.relist t).disk library rules typeName
          = findArtifact l.disk library rules typeName)
      ∧ (∀ dir, sourcesOf (l.relist t).disk dir = sourcesOf l.disk dir)
      ∧ ∀ s s' : Session, s.Agrees l → s'.Agrees (l.relist t) →
          (l.relist t).allDocuments.result s' = l.allDocuments.result s := by
  have hfind : (l.relist t).findComponents = l.findComponents := findComponents_relisted h
  refine ⟨walkCandidates_relisted h, hfind, fun library rules typeName =>
    findArtifact_relisted h library rules typeName, fun dir => sourcesOf_relisted h dir, ?_⟩
  intro s s' hs hs'
  have hfresh := congrArg Catalog.fresh hfind
  rcases gives_findComponents l with hf | ⟨cs, hcatalogued, hcs⟩
  · rcases gives_findComponents (l.relist t) with hf' | ⟨cs', -, hcs'⟩
    · exact (hf'.bind_error s' hs').1.trans (hf.bind_error s hs).1.symm
    · rw [hf.fresh_eq, hcs'.fresh_eq] at hfresh
      cases hfresh
  · rcases gives_findComponents (l.relist t) with hf' | ⟨cs', hcatalogued', hcs'⟩
    · rw [hcs.fresh_eq, hf'.fresh_eq] at hfresh
      cases hfresh
    · rw [hcs.fresh_eq, hcs'.fresh_eq] at hfresh
      obtain rfl := Except.ok.inj hfresh
      rw [(gives_allDocuments (l.relist t) hcatalogued' hcs' s' hs').1,
        (gives_allDocuments l hcatalogued hcs s hs).1,
        List.filterMap_congr fun c _ => documentOf_relisted h c]

/-- The names in the directory of the components, as they are listed. -/
def listedNames (t : FileTree) : List String :=
  ((t.at? ["components"]).map fun u => u.entries.map Prod.fst).getD []

/-- The same tree with the directory of the components listed the other way round. -/
def turned (t : FileTree) : FileTree :=
  .directory [("components",
    .directory (((t.at? ["components"]).map FileTree.entries).getD []).reverse)]

theorem relisted_turned_descending :
    descending.disk.tree.Relisted (turned descending.disk.tree) := by
  have hwell : descending.disk.tree.isWellNamed = true := by decide
  obtain ⟨hnodup, hinner⟩ := FileTree.isWellNamed_directory_iff.1 hwell
  obtain ⟨hnames, hdeep⟩ := FileTree.isWellNamed_directory_iff.1 (hinner _ List.mem_cons_self).2
  refine .directory hnodup (.refl _) fun n t t' ht ht' => ?_
  obtain ⟨-, rfl⟩ := Prod.mk.inj (List.mem_singleton.1 ht)
  obtain ⟨-, rfl⟩ := Prod.mk.inj (List.mem_singleton.1 ht')
  exact FileTree.relisted_of_perm hnames (List.reverse_perm _).symm fun e he =>
    FileTree.relisted_self e.2 (hdeep e he).2

theorem allDocuments_relisted_turned :
    listedNames descending.disk.tree = ["a", "b", "c"]
      ∧ listedNames (turned descending.disk.tree) = ["c", "b", "a"]
      ∧ (descending.relist (turned descending.disk.tree)).findComponents
          = descending.findComponents
      ∧ (descending.relist (turned descending.disk.tree)).allDocuments.result {}
          = descending.allDocuments.result {} := by
  obtain ⟨-, hfind, -, -, hdocs⟩ :=
    allDocuments_relisted descending (turned descending.disk.tree) relisted_turned_descending
  exact ⟨by decide, by decide, hfind,
    hdocs {} {} (Session.agrees_empty _) (Session.agrees_empty _)⟩

end ComponentCatalog
