import ComponentCatalog.Proofs.Assembly
import ComponentCatalog.Proofs.Files

/-!
# What is seen of a directory

The sources of a component are taken from the files directly in its directory. Of these the
names are seen, in increasing order, and what stands in them. Nothing else that the directory
holds makes a difference, and neither does the order in which it lists what it holds
(`sourcesOf_congr`).

Trees of files are as they come: nothing keeps two entries of a directory from having one name,
or a name from having a slash in it. Where it matters that a file that is listed can be found
under its name, the trees have to be well named (`FileTree.isWellNamed`).
-/

namespace ComponentCatalog

open Text

/-! ## Sorted lists -/

/-- Sorting forgets the order in which things were given, if no two of them are equally
large. -/
theorem mergeSort_eq_of_perm {α : Type} {le : α → α → Bool} {as bs : List α}
    (htrans : ∀ a b c, le a b = true → le b c = true → le a c = true)
    (htotal : ∀ a b, (le a b || le b a) = true)
    (hantisymm : ∀ a ∈ as, ∀ b ∈ as, le a b = true → le b a = true → a = b)
    (h : as.Perm bs) : as.mergeSort le = bs.mergeSort le := by
  have hsorted : (as.mergeSort le).Perm (bs.mergeSort le) :=
    (as.mergeSort_perm le).trans (h.trans (bs.mergeSort_perm le).symm)
  refine List.Perm.eq_of_pairwise (fun a b ha hb => ?_) (List.pairwise_mergeSort htrans htotal as)
    (List.pairwise_mergeSort htrans htotal bs) hsorted
  exact hantisymm a ((as.mergeSort_perm le).mem_iff.1 ha) b
    ((as.mergeSort_perm le).mem_iff.1 (hsorted.mem_iff.2 hb))

/-- Names are sorted in one way, whatever order they come in. -/
theorem sortNames_eq_of_perm {names names' : List String} (h : names.Perm names') :
    FileTree.sortNames names = FileTree.sortNames names' := by
  refine mergeSort_eq_of_perm (fun a b c hab hbc => ?_) (fun a b => ?_)
    (fun a _ b _ hab hba => ?_) h
  · exact decide_eq_true (String.le_trans (of_decide_eq_true hab) (of_decide_eq_true hbc))
  · simpa using String.le_total a b
  · exact String.le_antisymm (of_decide_eq_true hab) (of_decide_eq_true hba)

/-! ## Names of entries -/

/-- Whether a text can be the name of an entry. -/
def isEntryName (name : String) : Bool :=
  !name.isEmpty && name != "." && name != ".." && !name.toList.contains '/'
    && !name.toList.contains '\x00'

/-- What a name of an entry is: not empty, no special one, without slashes and zero characters. -/
theorem isEntryName_iff {name : String} :
    isEntryName name = true ↔ name ≠ "" ∧ name ≠ "." ∧ name ≠ ".." ∧ '/' ∉ name.toList
      ∧ '\x00' ∉ name.toList := by
  simp [isEntryName, and_assoc]

namespace FileTree

mutual

/-- Whether the names of all entries are names, of which no directory has one twice. -/
def isWellNamed : FileTree → Bool
  | file _ => true
  | directory es => decide (es.map Prod.fst).Nodup && areWellNamed es

/-- Whether the names of entries are names, and what stands under them is well named. -/
def areWellNamed : List (String × FileTree) → Bool
  | [] => true
  | (n, t) :: es => isEntryName n && isWellNamed t && areWellNamed es

end

/-- Entries are well named if each of them is. -/
theorem areWellNamed_iff {es : List (String × FileTree)} :
    areWellNamed es = true ↔ ∀ e ∈ es, isEntryName e.1 = true ∧ e.2.isWellNamed = true := by
  induction es with
  | nil => simp [areWellNamed]
  | cons e es ih =>
    obtain ⟨n, t⟩ := e
    rw [areWellNamed, Bool.and_eq_true, Bool.and_eq_true, ih, List.forall_mem_cons]

/-- A directory is well named if its entries have distinct names of entries and are well named. -/
theorem isWellNamed_directory_iff {es : List (String × FileTree)} :
    (directory es).isWellNamed = true
      ↔ (es.map Prod.fst).Nodup ∧ ∀ e ∈ es, isEntryName e.1 = true ∧ e.2.isWellNamed = true := by
  rw [isWellNamed, Bool.and_eq_true, decide_eq_true_iff, areWellNamed_iff]

/-- Whatever lies in a well-named tree is well named. -/
theorem isWellNamed_of_at? {t u : FileTree} {place : List String} (ht : t.isWellNamed = true)
    (h : t.at? place = some u) : u.isWellNamed = true := by
  induction place generalizing t with
  | nil =>
    cases h
    exact ht
  | cons p place ih =>
    rw [at?, Option.bind_eq_some_iff] at h
    obtain ⟨e, he, h⟩ := h
    cases t with
    | file bytes => cases he
    | directory es =>
      exact ih ((isWellNamed_directory_iff.1 ht).2 _ (mem_of_lookup_eq_some he)).2 h

/-- What is seen of entries from the directory they are in: their names, and what stands in
files. -/
def shown (es : List (String × FileTree)) : List (String × Option (List UInt8)) :=
  es.map fun e => (e.1, e.2.bytes?)

/-- What is seen of entries in increasing order of their names. -/
def sortShown (shown : List (String × Option (List UInt8))) :
    List (String × Option (List UInt8)) :=
  shown.mergeSort fun a b => decide (a.1 ≤ b.1)

theorem map_fst_shown (es : List (String × FileTree)) :
    (shown es).map Prod.fst = es.map Prod.fst := by
  rw [shown, List.map_map]
  rfl

/-- What is shown of an entry is what it is looked up as. -/
theorem lookup_shown (es : List (String × FileTree)) (name : String) :
    (shown es).lookup name = (es.lookup name).map bytes? :=
  lookup_map_snd bytes? es name

/-- A name that is listed is that of an entry that passes the test. -/
theorem exists_of_mem_sortedNames {t : FileTree} {test : FileTree → Bool} {name : String}
    (h : name ∈ t.sortedNames test) : ∃ u, (name, u) ∈ t.entries ∧ test u = true := by
  obtain ⟨⟨n, u⟩, hmem, rfl⟩ := List.mem_map.1 ((List.mergeSort_perm _ _).mem_iff.1 h)
  exact ⟨u, List.mem_filter.1 hmem⟩

/-- The names of the files in a directory are seen in it. -/
theorem sortedNames_eq_of_shown {t u : FileTree} (h : (shown t.entries).Perm (shown u.entries)) :
    (t.sortedNames fun e => !e.isDirectory) = u.sortedNames fun e => !e.isDirectory := by
  have hfiles : ∀ es : List (String × FileTree),
      (es.filter fun e => !e.2.isDirectory).map Prod.fst
        = ((shown es).filter fun e => e.2.isSome).map Prod.fst := by
    intro es
    rw [shown, List.filter_map, List.map_map]
    refine congrArg (List.map Prod.fst) (List.filter_congr fun e _ => ?_)
    obtain ⟨n, t⟩ := e
    cases t <;> rfl
  unfold sortedNames
  rw [hfiles, hfiles]
  exact sortNames_eq_of_perm ((h.filter _).map _)

end FileTree

/-! ## Reading files -/

namespace Disk

theorem step_ne_zeroCharacter (t : FileTree) (place : List String) (part : String) :
    step t place part ≠ .error .zeroCharacter := by
  unfold step
  split
  · nofun
  · nofun
  · split_ifs <;> nofun

/-- Steps do not fail for a zero character: paths with one are refused before. -/
theorem foldlM_step_ne_zeroCharacter (t : FileTree) (parts place : List String) :
    parts.foldlM (step t) place ≠ .error .zeroCharacter := by
  induction parts generalizing place with
  | nil => nofun
  | cons p parts ih =>
    rw [List.foldlM_cons]
    cases hstep : step t place p with
    | error f =>
      intro h
      cases h
      exact step_ne_zeroCharacter t place p hstep
    | ok place' => exact ih place'

/-- The character that ends names is a fault of the path, whatever files there are. -/
theorem find_eq_zeroCharacter_iff {d : Disk} {p : Path} :
    d.find p = .error .zeroCharacter ↔ hasZero (d.fullParts p) = true := by
  unfold find follow isTooLong
  cases hzero : hasZero (d.fullParts p) with
  | true => simp [bind, Except.bind]
  | false =>
    refine ⟨fun h => ?_, nofun⟩
    rw [Bool.not_false, Bool.and_true] at h
    split at h
    · cases h
    · rw [if_neg (by simp)] at h
      cases hfold : (d.fullParts p).foldlM (step d.tree) [] with
      | error f =>
        rw [hfold] at h
        cases h
        exact absurd hfold (foldlM_step_ne_zeroCharacter _ _ _)
      | ok place =>
        rw [hfold] at h
        dsimp only [bind, Except.bind] at h
        split at h <;> cases h

/-- Where nothing is found there is no directory. -/
theorem isDirectory_of_error {d : Disk} {p : Path} {f : PathFault} (h : d.find p = .error f) :
    d.isDirectory p = false := by
  rw [isDirectory, find?, h]
  rfl

/-- A file cannot be read for a zero character exactly if its path has one. -/
theorem readFile_eq_zeroCharacter_iff {d : Disk} {p : Path} :
    d.readFile p = .error .zeroCharacter ↔ hasZero (d.fullParts p) = true := by
  rw [← find_eq_zeroCharacter_iff]
  unfold readFile
  cases d.find p with
  | error f =>
    exact ⟨fun h => congrArg _ (Except.error.inj h), fun h => congrArg _ (Except.error.inj h)⟩
  | ok t => cases t <;> exact ⟨nofun, nofun⟩

/-- A directory cannot be listed for a zero character exactly if its path has one. -/
theorem listing_eq_zeroCharacter_iff {d : Disk} {p : Path} :
    d.listing p = .error .zeroCharacter ↔ hasZero (d.fullParts p) = true := by
  rw [← find_eq_zeroCharacter_iff]
  unfold listing readDirectory
  cases d.find p with
  | error f =>
    exact ⟨fun h => congrArg _ (Except.error.inj h), fun h => congrArg _ (Except.error.inj h)⟩
  | ok t =>
    refine ⟨fun h => ?_, nofun⟩
    dsimp only [bind, Except.bind] at h
    split at h
    · next f hf =>
      split at hf <;> cases hf
      cases h
    · split at h <;> cases h

/-- What is read from an entry of a directory is what is seen of it there, if its path is not
too long. -/
theorem toOption_readFile_child {d : Disk} {dir : Path} {es : List (String × FileTree)}
    {name : String} (hdir : d.find dir = .ok (.directory es)) (hname : isEntryName name = true) :
    (d.readFile (dir.child name)).toOption
      = if d.isTooLong (dir.below name) = true ∨ nameLimit < name.utf8ByteSize then none
        else ((FileTree.shown es).lookup name).join := by
  obtain ⟨hempty, hdot, hup, hslash, hzero⟩ := isEntryName_iff.1 hname
  rw [Path.child_eq_below dir hempty hdot hslash, FileTree.lookup_shown]
  unfold readFile
  by_cases hlong : d.isTooLong (dir.below name) = true
  · rw [find, if_pos hlong, if_pos (.inl hlong)]
    rfl
  rw [find_below hdir (Bool.eq_false_iff.2 hlong) hzero hup]
  by_cases hbytes : nameLimit < name.utf8ByteSize
  · rw [if_pos hbytes, if_pos (.inr hbytes)]
    rfl
  rw [if_neg hbytes, if_neg (by simp [hlong, hbytes])]
  cases es.lookup name with
  | none => rfl
  | some t => cases t <;> rfl

end Disk

section Sources

variable {d d' : Disk}

/-- Where the same is read, or nothing, it is read in the same way or fails in ways that make
no difference. -/
theorem readFile_cases (hcwd : d'.cwd = d.cwd) {p : Path}
    (h : (d'.readFile p).toOption = (d.readFile p).toOption) :
    d'.readFile p = d.readFile p ∨ ∃ f f', d'.readFile p = .error f' ∧ d.readFile p = .error f
      ∧ f' ≠ .zeroCharacter ∧ f ≠ .zeroCharacter := by
  have hzero : d'.readFile p = .error .zeroCharacter ↔ d.readFile p = .error .zeroCharacter := by
    rw [Disk.readFile_eq_zeroCharacter_iff, Disk.readFile_eq_zeroCharacter_iff, Disk.fullParts,
      Disk.fullParts, hcwd]
  rcases hd' : d'.readFile p with f' | bytes'
  · rcases hd : d.readFile p with f | bytes
    · rw [hd', hd] at hzero
      by_cases hf : f = .zeroCharacter
      · exact .inl ((hzero.2 (congrArg _ hf)).trans (congrArg _ hf.symm))
      · exact .inr
          ⟨f, f', rfl, rfl, fun hf' => hf (Except.error.inj (hzero.1 (congrArg _ hf'))), hf⟩
    · rw [hd', hd] at h
      cases h
  · rcases hd : d.readFile p with f | bytes
    · rw [hd', hd] at h
      cases h
    · rw [hd', hd] at h
      cases h
      exact .inl rfl

theorem load_of_error {p : Path} {f : PathFault} (h : d.readFile p = .error f)
    (hf : f ≠ .zeroCharacter) : SourceMap.load d p = .error (.unreadable p.toString) := by
  unfold SourceMap.load
  rw [h]
  cases f with
  | zeroCharacter => exact absurd rfl hf
  | _ => rfl

/-- A source map depends on what stands in its file, and on nothing else about the disk. -/
theorem load_congr (hcwd : d'.cwd = d.cwd) {p : Path}
    (h : (d'.readFile p).toOption = (d.readFile p).toOption) :
    SourceMap.load d' p = SourceMap.load d p := by
  rcases readFile_cases hcwd h with heq | ⟨f, f', hd', hd, hf', hf⟩
  · rw [SourceMap.load, SourceMap.load, heq]
  · rw [load_of_error hd' hf', load_of_error hd hf]

/-- What a map holds depends on its bytes. -/
theorem contentAt_congr (hcwd : d'.cwd = d.cwd) {p : Path}
    (h : (d'.readFile p).toOption = (d.readFile p).toOption) (index : Int) :
    SourceMap.contentAt d' p index = SourceMap.contentAt d p index := by
  rw [SourceMap.contentAt, SourceMap.contentAt, load_congr hcwd h]

theorem nameAt_congr (hcwd : d'.cwd = d.cwd) {p : Path}
    (h : (d'.readFile p).toOption = (d.readFile p).toOption) (index : Int) :
    SourceMap.nameAt d' p index = SourceMap.nameAt d p index := by
  rw [SourceMap.nameAt, SourceMap.nameAt, load_congr hcwd h]

/-- What is recovered from a map depends on its bytes. -/
theorem recoverIfAny_congr (hcwd : d'.cwd = d.cwd) {dir : Path} {file? : Option String}
    (h : ∀ file ∈ file?,
      (d'.readFile (dir.child file)).toOption = (d.readFile (dir.child file)).toOption) :
    recoverIfAny d' dir file? = recoverIfAny d dir file? := by
  cases file? with
  | none => rfl
  | some file =>
    simp only [recoverIfAny, recover, SourceMap.content?, SourceMap.name?,
      contentAt_congr hcwd (h file rfl), nameAt_congr hcwd (h file rfl)]

/-- The file with the compiled component beside a map. -/
def compiledFile (map : String) : String :=
  dropLast map componentSuffix.length ++ compiledSuffix

/-- What is compiled depends on its own bytes. -/
theorem recoverCompiledIfAny_congr (hcwd : d'.cwd = d.cwd) {dir : Path} {map? : Option String}
    (h : ∀ map ∈ map?, (d'.readFile (dir.child (compiledFile map))).toOption
      = (d.readFile (dir.child (compiledFile map))).toOption) :
    recoverCompiledIfAny d' dir map? = recoverCompiledIfAny d dir map? := by
  cases map? with
  | none => rfl
  | some map =>
    have hfile := h map (Option.mem_some_self map)
    show recoverCompiled d' dir map = recoverCompiled d dir map
    unfold recoverCompiled
    dsimp only
    unfold compiledFile at hfile
    generalize dir.child (dropLast map componentSuffix.length ++ compiledSuffix) = path at hfile ⊢
    rcases readFile_cases hcwd hfile with heq | ⟨f, f', hd', hd, -, -⟩
    · rw [heq]
    · rw [hd', hd]

/-- A file that is picked is one of those there are. -/
theorem mem_of_pickArtifact? {files : List String} {stem suffix file : String}
    (h : pickArtifact? files stem suffix = some file) : file ∈ files := by
  unfold pickArtifact? at h
  split at h
  · next hmem =>
    cases h
    exact List.contains_iff_mem.1 hmem
  · exact List.mem_of_find?_eq_some h

/-- The name of the compiled component beside a map is a name if that of the map is. -/
theorem isEntryName_compiledFile {map : String} (h : isEntryName map = true) :
    isEntryName (compiledFile map) = true := by
  obtain ⟨-, -, -, hslash, hzero⟩ := isEntryName_iff.1 h
  have hending : Path.IsEnding compiledSuffix :=
    ⟨by decide, 's', by decide, by decide⟩
  obtain ⟨hempty, hdot, hup⟩ := hending.append_ne (dropLast map componentSuffix.length)
  have hchars : ∀ c ∈ (dropLast map componentSuffix.length ++ compiledSuffix).toList,
      c ∈ map.toList ∨ c ∈ compiledSuffix.toList := by
    intro c hc
    rw [String.toList_append, List.mem_append, dropLast, String.toList_ofList] at hc
    exact hc.imp_left List.mem_of_mem_take
  refine isEntryName_iff.2 ⟨hempty, hdot, hup, fun hc => ?_, fun hc => ?_⟩
  · exact (hchars _ hc).elim hslash (by decide)
  · exact (hchars _ hc).elim hzero (by decide)

/-- A directory that cannot be listed has no sources, and this is noted. -/
theorem sourcesOf_of_error {dir : Path} {f : PathFault} (h : d.listing dir = .error f)
    (hf : f ≠ .zeroCharacter) :
    sourcesOf d dir = Catalog.note (Log.warning "source_map"
      ("Cannot list component directory " ++ dir.toString)) >>= fun _ => pure {} := by
  unfold sourcesOf
  rw [h]
  cases f with
  | zeroCharacter => exact absurd rfl hf
  | _ => rfl

/-- The names of the files that are listed in a directory, in increasing order. -/
def Disk.fileNames? (d : Disk) (dir : Path) : Option (List String) :=
  (d.listing dir).toOption.map fun t => t.sortedNames fun e => !e.isDirectory

/-- **The sources of a component depend on the files of its directory**: on their names, if it
can be listed, and on what is read from them and from compiled components beside them. -/
theorem sourcesOf_congr (hcwd : d'.cwd = d.cwd) {dir : Path}
    (hfiles : d'.fileNames? dir = d.fileNames? dir)
    (hread : ∀ files ∈ d.fileNames? dir, ∀ file ∈ files, ∀ name,
      name = file ∨ name = compiledFile file →
        (d'.readFile (dir.child name)).toOption = (d.readFile (dir.child name)).toOption) :
    sourcesOf d' dir = sourcesOf d dir := by
  have hzero : d'.listing dir = .error .zeroCharacter ↔ d.listing dir = .error .zeroCharacter := by
    rw [Disk.listing_eq_zeroCharacter_iff, Disk.listing_eq_zeroCharacter_iff, Disk.fullParts,
      Disk.fullParts, hcwd]
  unfold Disk.fileNames? at hfiles hread
  -- both can be listed or neither can, and then all faults but one are alike
  rcases hd : d.listing dir with f | t
  · rcases hd' : d'.listing dir with f' | t'
    · rw [hd, hd'] at hzero
      by_cases hf : f = .zeroCharacter
      · subst hf
        rw [sourcesOf, sourcesOf, hd, hd', hzero.2 rfl]
      · rw [sourcesOf_of_error hd hf, sourcesOf_of_error hd' fun hf' =>
          hf (Except.error.inj (hzero.1 (congrArg _ hf')))]
    · rw [hd, hd'] at hfiles
      cases hfiles
  · rcases hd' : d'.listing dir with f' | t'
    · rw [hd, hd'] at hfiles
      cases hfiles
    · have hsame : (t'.sortedNames fun e => !e.isDirectory)
          = t.sortedNames fun e => !e.isDirectory := by
        rw [hd, hd'] at hfiles
        exact Option.some.inj hfiles
      rw [hd] at hread
      have hpick := fun (suffix file : String) (hfile : file ∈ pickArtifact?
          (t.sortedNames fun e => !e.isDirectory) dir.name suffix) =>
        hread _ (Option.mem_some_self _) file (mem_of_pickArtifact? hfile)
      have hsource : ∀ suffix, recoverIfAny d' dir _ = recoverIfAny d dir _ := fun suffix =>
        recoverIfAny_congr hcwd fun file hfile => hpick suffix file hfile file (.inl rfl)
      have hcompiled := recoverCompiledIfAny_congr hcwd fun map hmap =>
        hpick componentSuffix map hmap _ (.inr rfl)
      unfold sourcesOf
      rw [hd, hd']
      dsimp only
      rw [hsame, hsource propsSuffix, hsource componentSuffix, hsource stylesSuffix, hcompiled]

end Sources

/-! ## Contents of a directory -/

/-- **The contents of a directory**: its entries in increasing order of their names, with what
stands in the files; nothing if there is no such directory. -/
def Disk.contents (d : Disk) (dir : Path) : Option (List (String × Option (List UInt8))) :=
  (d.readDirectory dir).toOption.map fun t => FileTree.sortShown (FileTree.shown t.entries)

section Contents

variable {d d' : Disk} {dir : Path}

/-- Directories with the same contents show the same. -/
theorem perm_of_contents (h : d'.contents dir = d.contents dir) {t t' : FileTree}
    (ht : d.readDirectory dir = .ok t) (ht' : d'.readDirectory dir = .ok t') :
    (FileTree.shown t'.entries).Perm (FileTree.shown t.entries) := by
  unfold Disk.contents at h
  rw [ht, ht'] at h
  have hsorted : FileTree.sortShown (FileTree.shown t'.entries)
      = FileTree.sortShown (FileTree.shown t.entries) := Option.some.inj h
  have hperm : (FileTree.shown t'.entries).Perm (FileTree.sortShown (FileTree.shown t'.entries)) :=
    (List.mergeSort_perm _ _).symm
  rw [hsorted] at hperm
  exact hperm.trans (List.mergeSort_perm _ _)

/-- Directories with the same contents can be read together. -/
theorem exists_readDirectory_of_contents (h : d'.contents dir = d.contents dir) {t : FileTree}
    (ht : d.readDirectory dir = .ok t) : ∃ t', d'.readDirectory dir = .ok t' := by
  unfold Disk.contents at h
  rw [ht] at h
  rcases ht' : d'.readDirectory dir with f | t'
  · rw [ht'] at h
    cases h
  · exact ⟨t', rfl⟩

theorem find_of_readDirectory {t : FileTree} (h : d.readDirectory dir = .ok t) :
    ∃ es, t = .directory es ∧ d.find dir = .ok (.directory es) := by
  unfold Disk.readDirectory at h
  cases hfind : d.find dir with
  | error f =>
    rw [hfind] at h
    cases h
  | ok u =>
    rw [hfind] at h
    cases u with
    | file bytes => cases h
    | directory es =>
      cases h
      exact ⟨es, rfl, rfl⟩

/-- What a path leads to in a well-named tree is well named. -/
theorem isWellNamed_of_find {t : FileTree} (hwell : d.tree.isWellNamed = true)
    (h : d.find dir = .ok t) : t.isWellNamed = true := by
  obtain ⟨place, -, hat⟩ := Disk.exists_follow_of_find h
  exact FileTree.isWellNamed_of_at? hwell hat

/-- Whether a directory can be listed depends on the names in it. -/
theorem isListable_eq_of_perm (hcwd : d'.cwd = d.cwd) {t t' : FileTree}
    (h : (t'.entries.map Prod.fst).Perm (t.entries.map Prod.fst)) :
    d'.isListable dir t' = d.isListable dir t := by
  have hlist : ∀ (e : Disk) (u : FileTree), e.isListable dir u
      = (u.entries.map Prod.fst).all fun name => !e.isTooLong (dir.below name) := by
    intro e u
    rw [List.all_map]
    rfl
  rw [hlist, hlist, h.all_eq]
  unfold Disk.isTooLong Disk.fullParts
  rw [hcwd]

/-- **The sources of a component depend on the contents of its directory**, and on nothing
else there is on the disk. -/
theorem sourcesOf_eq_of_contents (hcwd : d'.cwd = d.cwd) (hwell : d.tree.isWellNamed = true)
    (h : d'.contents dir = d.contents dir) : sourcesOf d' dir = sourcesOf d dir := by
  rcases ht : d.readDirectory dir with f | t
  · obtain ⟨f', ht'⟩ : ∃ f', d'.readDirectory dir = .error f' := by
      rcases ht' : d'.readDirectory dir with f' | t'
      · exact ⟨f', rfl⟩
      · obtain ⟨t, ht''⟩ := exists_readDirectory_of_contents h.symm ht'
        cases ht.symm.trans ht''
    have hnone : d.fileNames? dir = none := by rw [Disk.fileNames?, Disk.listing, ht]; rfl
    have hnone' : d'.fileNames? dir = none := by rw [Disk.fileNames?, Disk.listing, ht']; rfl
    refine sourcesOf_congr hcwd (hnone'.trans hnone.symm) ?_
    rw [hnone]
    nofun
  · obtain ⟨t', ht'⟩ := exists_readDirectory_of_contents h ht
    -- contents have no order of their own, and sorted names do not depend on one
    have hperm := perm_of_contents h ht ht'
    have hnames := hperm.map Prod.fst
    rw [FileTree.map_fst_shown, FileTree.map_fst_shown] at hnames
    obtain ⟨es, rfl, hfind⟩ := find_of_readDirectory ht
    obtain ⟨es', rfl, hfind'⟩ := find_of_readDirectory ht'
    obtain ⟨hnodup, hentries⟩ :=
      FileTree.isWellNamed_directory_iff.1 (isWellNamed_of_find hwell hfind)
    refine sourcesOf_congr hcwd ?_ fun files hfiles file hfile name hor => ?_
    · unfold Disk.fileNames? Disk.listing
      rw [ht, ht']
      dsimp only
      rw [isListable_eq_of_perm hcwd hnames]
      split
      · exact congrArg some (FileTree.sortedNames_eq_of_shown hperm)
      · rfl
    · obtain ⟨t, hlisting, rfl⟩ := Option.map_eq_some_iff.1 hfiles
      cases ht.symm.trans (Disk.readDirectory_of_listing (toOption_eq_some_iff.1 hlisting))
      obtain ⟨u, hmem, -⟩ := FileTree.exists_of_mem_sortedNames hfile
      have hfile := (hentries _ hmem).1
      have hname : isEntryName name = true :=
        hor.elim (fun h => h ▸ hfile) fun h => h ▸ isEntryName_compiledFile hfile
      rw [← FileTree.map_fst_shown] at hnodup
      have hlookup : (FileTree.shown es').lookup name = (FileTree.shown es).lookup name :=
        (lookup_eq_of_perm hnodup hperm.symm name).symm
      rw [Disk.toOption_readFile_child hfind hname, Disk.toOption_readFile_child hfind' hname,
        hlookup]
      unfold Disk.isTooLong Disk.fullParts
      rw [hcwd]

end Contents

end ComponentCatalog
