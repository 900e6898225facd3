import ComponentCatalog.Proofs.Aliases
import ComponentCatalog.Proofs.SourceMaps

/-!
# The maps that sources are read from

Two parts of the catalogue look at the files in the directory of a component. The search for
components asks for a map by its exact name; the reading of sources takes for each ending the map
that is named after the directory, and the first other one by name if there is none (`Chosen`).
Here the two are brought together: what made a directory a component is what its sources are read
from, whatever else lies beside it.

The reading itself is said map by map. Content and file name of a source come from the same map,
and the compiled component from beside the chosen one (`ReadFrom`). There are two ways to lose all
of them at once: the directory cannot be listed because the path of an entry is too long, or one
of the chosen maps, possibly that of the styles, breaks the reading off (`Spoilt`).
-/

namespace ComponentCatalog

open Text SourceMap

/-! ## Choosing a map -/

/-- In a sorted list, the first element with a property is the least one. -/
theorem le_of_find?_eq_some {names : List String} {test : String → Bool} {name other : String}
    (hsorted : names.Pairwise (· ≤ ·)) (h : names.find? test = some name) (hmem : other ∈ names)
    (hother : test other = true) : name ≤ other := by
  obtain ⟨-, before, after, rfl, hbefore⟩ := List.find?_eq_some_iff_append.1 h
  obtain hmem | hmem := List.mem_append.1 hmem
  · simpa [hother] using hbefore other hmem
  · obtain rfl | hmem := List.mem_cons.1 hmem
    · exact String.le_refl _
    · exact (List.pairwise_cons.1 (List.pairwise_append.1 hsorted).2.1).1 _ hmem

/-- A file that lies directly in a directory. -/
def FileTree.HasFile (t : FileTree) (name : String) : Prop :=
  ∃ bytes, (name, .file bytes) ∈ t.entries

/-- **The map that is chosen for an ending** in a directory: the one with the name of the
directory before the ending, otherwise the first by name that has the ending. -/
inductive Chosen (t : FileTree) (stem ending : String) : Option String → Prop
  | own (h : t.HasFile (stem ++ ending)) : Chosen t stem ending (some (stem ++ ending))
  | first {front : String} (hown : ¬t.HasFile (stem ++ ending)) (h : t.HasFile (front ++ ending))
      (hleast : ∀ other, t.HasFile (other ++ ending) → front ++ ending ≤ other ++ ending) :
      Chosen t stem ending (some (front ++ ending))
  | none (h : ∀ front, ¬t.HasFile (front ++ ending)) : Chosen t stem ending none

/-- The names that are listed are those of the files of a directory. -/
theorem mem_sortedNames_iff {t : FileTree} {name : String} :
    (name ∈ t.sortedNames fun e => !e.isDirectory) ↔ t.HasFile name := by
  constructor
  · intro h
    obtain ⟨u, hmem, hfile⟩ := FileTree.exists_of_mem_sortedNames h
    cases u with
    | file bytes => exact ⟨bytes, hmem⟩
    | directory es => cases hfile
  · rintro ⟨bytes, hmem⟩
    exact List.mem_mergeSort.2 (List.mem_map.2 ⟨_, List.mem_filter.2 ⟨hmem, rfl⟩, rfl⟩)

/-- Names are listed in increasing order. -/
theorem pairwise_sortedNames (t : FileTree) (test : FileTree → Bool) :
    (t.sortedNames test).Pairwise (· ≤ ·) := by
  have h : (t.sortedNames test).Pairwise fun a b => decide (a ≤ b) = true := by
    refine List.pairwise_mergeSort (fun a b c hab hbc => ?_) (fun a b => ?_) _
    · exact decide_eq_true (String.le_trans (of_decide_eq_true hab) (of_decide_eq_true hbc))
    · simpa using String.le_total a b
  exact h.imp of_decide_eq_true

/-- The file that is picked is the one that is chosen. -/
theorem chosen_pickArtifact? (t : FileTree) (stem ending : String) :
    Chosen t stem ending (pickArtifact? (t.sortedNames fun e => !e.isDirectory) stem ending) := by
  unfold pickArtifact?
  split
  · next hown => exact .own (mem_sortedNames_iff.1 (List.contains_iff_mem.1 hown))
  · next hown =>
    have hown : ¬t.HasFile (stem ++ ending) := fun h =>
      hown (List.contains_iff_mem.2 (mem_sortedNames_iff.2 h))
    cases hfind : (t.sortedNames fun e => !e.isDirectory).find? (endsWith · ending) with
    | none =>
      refine .none fun front hfile => ?_
      exact List.find?_eq_none.1 hfind _ (mem_sortedNames_iff.2 hfile) (endsWith_iff.2 ⟨front, rfl⟩)
    | some name =>
      have hends : endsWith name ending = true := by simpa using List.find?_some hfind
      obtain ⟨front, rfl⟩ := endsWith_iff.1 hends
      refine .first hown (mem_sortedNames_iff.1 (List.mem_of_find?_eq_some hfind)) fun other h => ?_
      exact le_of_find?_eq_some (pairwise_sortedNames t _) hfind (mem_sortedNames_iff.2 h)
        (endsWith_iff.2 ⟨other, rfl⟩)

/-- One file is chosen at most. -/
theorem Chosen.unique {t : FileTree} {stem ending : String} {file? file?' : Option String}
    (h : Chosen t stem ending file?) (h' : Chosen t stem ending file?') : file? = file?' := by
  cases h with
  | own h =>
    cases h' with
    | own => rfl
    | first hown => exact absurd h hown
    | none hnone => exact absurd h (hnone stem)
  | first hown h hleast =>
    cases h' with
    | own h' => exact absurd h' hown
    | first _ h' hleast' => exact congrArg some (String.le_antisymm (hleast _ h') (hleast' _ h))
    | none hnone => exact absurd h (hnone _)
  | none hnone =>
    cases h' with
    | own h' => exact absurd h' (hnone _)
    | first _ h' => exact absurd h' (hnone _)
    | none => rfl

/-- A file that is chosen is there. -/
theorem Chosen.hasFile {t : FileTree} {stem ending file : String}
    (h : Chosen t stem ending (some file)) : t.HasFile file := by
  cases h <;> assumption

/-! ## Reading the maps -/

/-- **How a reading comes out**: it breaks off for a reason, or has an answer of some kind and
nothing to break off for. -/
def ComesOut {α : Type} (breaks : Fault → Prop) (good : α → Prop) (r : Except Fault α) : Prop :=
  (∃ f, r = .error f ∧ breaks f) ∨ ∃ a, r = .ok a ∧ (∀ f, ¬breaks f) ∧ good a

section ComesOut

variable {α β : Type} {breaks breaks' : Fault → Prop} {good : α → Prop} {good' : β → Prop}

/-- What comes out of two parts: the faults of both, and what the second makes of the first. -/
theorem ComesOut.bind {x : Catalog α} {k : α → Catalog β}
    (hx : ∀ s, ComesOut breaks good (x.result s))
    (hk : ∀ a, good a → ∀ s, ComesOut breaks' good' ((k a).result s)) (s : Session) :
    ComesOut (fun f => breaks f ∨ breaks' f) good' ((x >>= k).result s) := by
  rw [Catalog.result_bind]
  obtain ⟨f, hresult, hf⟩ | ⟨a, hresult, hgoes, ha⟩ := hx s
  · rw [hresult]
    exact .inl ⟨f, rfl, .inl hf⟩
  · rw [hresult]
    obtain ⟨f, hrest, hf⟩ | ⟨b, hrest, hgoes', hb⟩ := hk a ha (x.after s)
    · exact .inl ⟨f, hrest, .inr hf⟩
    · exact .inr ⟨b, hrest, fun f hf => hf.elim (hgoes f) (hgoes' f), hb⟩

theorem ComesOut.pure {a : α} (h : good a) (s : Session) :
    ComesOut (fun _ => False) good ((Pure.pure a : Catalog α).result s) :=
  .inr ⟨a, rfl, fun _ => id, h⟩

/-- Faults may be described in another way. -/
theorem ComesOut.congr {r : Except Fault α} (h : ComesOut breaks good r)
    (hbreaks : ∀ f, breaks f ↔ breaks' f) : ComesOut breaks' good r := by
  obtain ⟨f, hr, hf⟩ | ⟨a, hr, hgoes, ha⟩ := h
  · exact .inl ⟨f, hr, (hbreaks f).1 hf⟩
  · exact .inr ⟨a, hr, fun f hf => hgoes f ((hbreaks f).2 hf), ha⟩

/-- What was found, if anything was, is what there is to be found. -/
theorem SourceMap.Answers.outcome {found : α → Prop} {r : Except Fault (Option α)}
    (h : Answers r breaks found) : ComesOut breaks (fun a? => ∀ a, a? = some a ↔ found a) r := by
  rcases hr : r with f | _ | a
  · exact .inl ⟨f, rfl, (h.error_iff f).1 hr⟩
  · obtain ⟨hgoes, hnone⟩ := h.none_iff.1 hr
    exact .inr ⟨none, rfl, hgoes, fun a => ⟨nofun, fun ha => absurd ha (hnone a)⟩⟩
  · obtain ⟨hgoes, ha⟩ := (h.some_iff a).1 hr
    refine .inr ⟨some a, rfl, hgoes, fun b => ⟨fun hb => Option.some.inj hb ▸ ha, fun hb => ?_⟩⟩
    exact Except.ok.inj (hr.symm.trans ((h.some_iff b).2 ⟨hgoes, hb⟩))

end ComesOut

variable {d : Disk} {dir : Path}

/-- **What is recovered from a map**: content and file name, both from its first place. -/
structure RecoveredFrom (d : Disk) (dir : Path) (file? : Option String) (r : Recovered) : Prop where
  content : ∀ t, r.content? = some t ↔
    ∃ file, file? = some file ∧ IsTextAt d (dir.child file) "sourcesContent" 0 t
  name : ∀ t, r.file? = some t ↔
    ∃ file, file? = some file ∧ IsTextAt d (dir.child file) "sources" 0 t

/-- **The compiled component beside a map** has the name of the map up to the ending. -/
def CompiledBeside (d : Disk) (dir : Path) (map? compiled? : Option String) : Prop :=
  ∀ text, compiled? = some text ↔ ∃ stem, map? = some (stem ++ componentSuffix) ∧
    TextIn d (dir.child (stem ++ compiledSuffix)) text

/-- Recovering a source breaks where its map does, and gives what the map holds otherwise. -/
theorem outcome_recoverIfAny (file? : Option String) (s : Session) :
    ComesOut (fun f => ∃ file, file? = some file ∧ Breaks d (dir.child file) f)
      (RecoveredFrom d dir file?) ((recoverIfAny d dir file?).result s) := by
  cases file? with
  | none => exact (ComesOut.pure ⟨by simp, by simp⟩ s).congr (by simp)
  | some file =>
    have hread : ∀ s,
        ComesOut _ (RecoveredFrom d dir (some file)) ((recover d dir file).result s) :=
      .bind (fun s => (answers_content? d (dir.child file) 0 s).outcome) fun content hcontent =>
        .bind (fun s => (answers_name? d (dir.child file) 0 s).outcome) fun name hname =>
          .pure ⟨by simpa using hcontent, by simpa using hname⟩
    exact (hread s).congr (by simp)

/-- The ending of a map is cut off exactly. -/
theorem compiledFile_append (stem : String) :
    compiledFile (stem ++ componentSuffix) = stem ++ compiledSuffix := by
  rw [compiledFile, dropLast_append]

/-- What is compiled is recovered as text, and is none if it cannot be read. -/
theorem result_recoverCompiled (map : String) (s : Session) :
    (recoverCompiled d dir map).result s
      = .ok ((d.readFile (dir.child (compiledFile map))).toOption.bind ofFile?) := by
  unfold recoverCompiled compiledFile
  dsimp only
  generalize dir.child (dropLast map componentSuffix.length ++ compiledSuffix) = path
  rcases d.readFile path with f | bytes
  · rfl
  · cases h : ofFile? bytes with
    | none =>
      simp only [h, Except.toOption, Option.bind_some]
      rfl
    | some text =>
      simp only [h, Except.toOption, Option.bind_some]
      rfl

/-- What is compiled is taken from beside the map that was chosen and never breaks anything. -/
theorem outcome_recoverCompiledIfAny {t : FileTree} {stem : String} {map? : Option String}
    (hmap : Chosen t stem componentSuffix map?) (s : Session) :
    ComesOut (fun _ => False) (CompiledBeside d dir map?)
      ((recoverCompiledIfAny d dir map?).result s) := by
  have hbeside (front : String) : ComesOut (fun _ => False)
      (CompiledBeside d dir (some (front ++ componentSuffix)))
      ((recoverCompiled d dir (front ++ componentSuffix)).result s) := by
    refine .inr ⟨_, result_recoverCompiled _ s, fun _ => id, fun text => ?_⟩
    rw [compiledFile_append, Option.bind_eq_some_iff]
    constructor
    · rintro ⟨bytes, hread, hfile⟩
      exact ⟨front, rfl, textIn_iff.2 ⟨bytes, toOption_eq_some_iff.1 hread, hfile⟩⟩
    · rintro ⟨front', heq, htext⟩
      obtain rfl : front = front' := String.append_left_inj _ |>.1 (Option.some.inj heq)
      obtain ⟨bytes, hread, hfile⟩ := textIn_iff.1 htext
      exact ⟨bytes, toOption_eq_some_iff.2 hread, hfile⟩
  cases hmap with
  | own => exact hbeside stem
  | first => exact hbeside _
  | none => exact .pure (fun text => by simp) s

/-! ## Reading a directory -/

/-- The map that is chosen for an ending breaks the reading off. -/
def BreaksFor (d : Disk) (dir : Path) (t : FileTree) (ending : String) (f : Fault) : Prop :=
  ∃ file, Chosen t dir.name ending (some file) ∧ Breaks d (dir.child file) f

/-- **One of the three maps breaks the reading off.** -/
def Spoilt (d : Disk) (dir : Path) (t : FileTree) (f : Fault) : Prop :=
  ∃ ending ∈ [propsSuffix, componentSuffix, stylesSuffix], BreaksFor d dir t ending f

/-- **The sources that the chosen maps of a directory hold.** -/
structure ReadFrom (d : Disk) (dir : Path) (t : FileTree) (sources : Sources) : Prop where
  props : ∃ file?, Chosen t dir.name propsSuffix file? ∧ RecoveredFrom d dir file? sources.props
  component : ∃ map?, Chosen t dir.name componentSuffix map? ∧
    RecoveredFrom d dir map? sources.component ∧ CompiledBeside d dir map? sources.compiled?
  styles : ∃ file?, Chosen t dir.name stylesSuffix file? ∧
    RecoveredFrom d dir file? sources.styles

/-- The same in terms of the directory: it breaks where the map that is chosen does. -/
theorem outcome_recoverIfAny_of_chosen {t : FileTree} {ending : String} {file? : Option String}
    (h : Chosen t dir.name ending file?) (s : Session) :
    ComesOut (BreaksFor d dir t ending) (RecoveredFrom d dir file?)
      ((recoverIfAny d dir file?).result s) := by
  refine (outcome_recoverIfAny file? s).congr fun f => exists_congr fun file => and_congr_left' ?_
  exact ⟨fun heq => heq ▸ h, h.unique⟩

/-- **The sources of a directory** are read from the maps that are chosen in it, unless one of them
spoils this. -/
theorem outcome_sourcesOf {t : FileTree} (h : d.listing dir = .ok t) (s : Session) :
    ComesOut (Spoilt d dir t) (ReadFrom d dir t) ((sourcesOf d dir).result s) := by
  have hchosen := chosen_pickArtifact? t dir.name
  have hread : ComesOut (fun f => BreaksFor d dir t propsSuffix f ∨
      BreaksFor d dir t componentSuffix f ∨ False ∨ BreaksFor d dir t stylesSuffix f ∨ False)
      (ReadFrom d dir t) ((sourcesOf d dir).result s) := by
    unfold sourcesOf
    rw [h]
    exact ComesOut.bind (outcome_recoverIfAny_of_chosen (hchosen _)) (fun props hprops =>
      .bind (outcome_recoverIfAny_of_chosen (hchosen _)) fun component hcomponent =>
        .bind (outcome_recoverCompiledIfAny (hchosen _)) fun compiled hcompiled =>
          .bind (outcome_recoverIfAny_of_chosen (hchosen _)) fun styles hstyles =>
            .pure ⟨⟨_, hchosen _, hprops⟩, ⟨_, hchosen _, hcomponent, hcompiled⟩,
              ⟨_, hchosen _, hstyles⟩⟩) s
  exact hread.congr fun f => by simp [Spoilt]

/-! ## From an entry to its directory -/

namespace Path

/-- A plain path stays plain when it goes on with the name of an entry. -/
theorem Plain.below {p : Path} (h : p.Plain) {n : String} (hn : isEntryName n = true) :
    (p.below n).Plain := by
  obtain ⟨hempty, hdot, -, hslash, -⟩ := isEntryName_iff.1 hn
  refine ⟨h.root, fun part hmem => ?_⟩
  obtain hmem | hmem := List.mem_append.1 hmem
  · exact h.parts part hmem
  · cases List.mem_singleton.1 hmem
    exact ⟨hempty, hdot, hslash⟩

/-- The last name of a plain path has no slash. -/
theorem Plain.slash_not_mem_name {p : Path} (h : p.Plain) : '/' ∉ p.name.toList := by
  rw [name]
  cases hlast : p.parts.getLast? with
  | none => exact List.not_mem_nil
  | some part => exact (h.parts part (List.mem_of_getLast? hlast)).2.2

/-- The path of an entry is no shorter than that of its directory, unless that has no names. -/
theorem utf8ByteSize_toString_le (p : Path) (n : String) :
    p.toString.utf8ByteSize ≤ max 1 (p.below n).toString.utf8ByteSize := by
  have hbelow : (p.below n).toString = p.root ++ String.intercalate "/" (p.parts ++ [n]) := by
    simp [toString, Path.below]
  rw [toString, hbelow]
  split
  · exact Nat.le_max_left _ _
  · refine Nat.le_trans ?_ (Nat.le_max_right _ _)
    rw [String.utf8ByteSize_append, String.utf8ByteSize_append]
    refine Nat.add_le_add_left ?_ _
    by_cases hparts : p.parts = []
    · rw [hparts]
      exact Nat.zero_le _
    · rw [String.intercalate_append_of_ne_nil hparts (List.cons_ne_nil _ _),
        String.utf8ByteSize_append, String.utf8ByteSize_append, Nat.add_assoc]
      exact Nat.le_add_right _ _

end Path

namespace Disk

/-- A path is not too long if one that goes on from it is not. -/
theorem isTooLong_of_below {n : String} (h : d.isTooLong (dir.below n) = false)
    (hzero : hasZero (d.fullParts (dir.below n)) = false) : d.isTooLong dir = false := by
  have hle := dir.utf8ByteSize_toString_le n
  simp only [isTooLong, hzero, Bool.not_false, Bool.and_true, decide_eq_false_iff_not] at h
  rw [isTooLong, Bool.and_eq_false_iff, decide_eq_false_iff_not]
  have : pathLimit = 4095 := rfl
  omega

theorem find_of_readFile {p : Path} {bytes : List UInt8} (h : d.readFile p = .ok bytes) :
    d.find p = .ok (.file bytes) := by
  unfold readFile at h
  rcases hfind : d.find p with f | t
  · rw [hfind] at h
    cases h
  · rw [hfind] at h
    cases t with
    | file b =>
      cases h
      rfl
    | directory es => cases h

/-- What is an entry of a directory lies in one. -/
theorem exists_directory_of_find_below {n : String} {u : FileTree} (hn : n ≠ "..")
    (h : d.find (dir.below n) = .ok u) :
    ∃ es, d.find dir = .ok (.directory es) ∧ es.lookup n = some u := by
  obtain ⟨place, hfollow, hat⟩ := exists_follow_of_find h
  have hzero : hasZero (d.fullParts (dir.below n)) = false := by
    rw [← Bool.not_eq_true, ← find_eq_zeroCharacter_iff, h]
    nofun
  have hshort : d.isTooLong dir = false := by
    refine isTooLong_of_below (Bool.eq_false_iff.2 fun hlong => ?_) hzero
    rw [find, if_pos hlong] at h
    cases h
  rw [fullParts_below] at hzero hfollow
  have hdirs : hasZero (d.fullParts dir) = false := by
    rw [hasZero, List.any_append, Bool.or_eq_false_iff] at hzero
    exact hzero.1
  -- the way to the entry is the way to the directory and one name more
  cases hdir : follow d.tree (d.fullParts dir) with
  | error f =>
    rw [follow, if_neg (by simp [hdirs])] at hdir
    rw [follow, if_neg (by simp [hzero]), List.foldlM_append, hdir] at hfollow
    cases hfollow
  | ok top =>
    rw [follow_concat hzero hdir, step_eq_ok] at hfollow
    obtain ⟨hlook, ⟨hup, -⟩ | ⟨-, -, -, rfl⟩⟩ := hfollow
    · exact absurd hup hn
    · obtain ⟨es, htop⟩ := FileTree.look_eq_directory.1 hlook
      refine ⟨es, find_of_follow hshort hdir htop, ?_⟩
      rw [FileTree.at?_append, htop, Option.bind_some, FileTree.at?, FileTree.entries_directory,
        Option.bind_eq_some_iff] at hat
      obtain ⟨e, he, hu⟩ := hat
      exact he.trans hu

end Disk

/-! ## What made a directory a component -/

/-- A file that is found by a name made of a stem and an ending lies in the directory that is
listed. -/
theorem hasFile_of_holds {stem ending : String} (hstem : '/' ∉ stem.toList)
    (hending : Path.IsEnding ending) (h : d.holds dir (stem ++ ending) = true) :
    ∃ t, d.find dir = .ok t ∧ t.isDirectory = true ∧ t.HasFile (stem ++ ending) := by
  obtain ⟨hempty, hdot, hup⟩ := hending.append_ne stem
  have hslash : '/' ∉ (stem ++ ending).toList := by
    rw [String.toList_append, List.mem_append, not_or]
    exact ⟨hstem, hending.slash⟩
  rw [Disk.holds, Path.child_eq_below dir hempty hdot hslash, Option.isSome_iff_exists] at h
  obtain ⟨bytes, hread⟩ := h
  rw [toOption_eq_some_iff] at hread
  obtain ⟨es, hdir, hlookup⟩ :=
    Disk.exists_directory_of_find_below hup (Disk.find_of_readFile hread)
  exact ⟨_, hdir, rfl, bytes, mem_of_lookup_eq_some hlookup⟩

/-- In a well-named tree, all that breaks the reading off is an integer that is too long. -/
theorem Spoilt.eq_oversizedNumber {t : FileTree} {f : Fault} (hnamed : d.tree.isWellNamed = true)
    (hfind : d.find dir = .ok t) (h : Spoilt d dir t f) : f = .oversizedNumber := by
  obtain ⟨ending, -, file, hchosen, hzero | -⟩ := h
  · obtain ⟨bytes, hmem⟩ := hchosen.hasFile
    have hwell := isWellNamed_of_find hnamed hfind
    cases t with
    | file _ => exact absurd hmem List.not_mem_nil
    | directory es =>
      obtain ⟨hempty, hdot, -, hslash, hnot⟩ :=
        isEntryName_iff.1 ((FileTree.isWellNamed_directory_iff.1 hwell).2 _ hmem).1
      rw [Path.child_eq_below dir hempty hdot hslash, Disk.fullParts_below, Disk.hasZero,
        List.any_append, Bool.or_eq_true, ← Disk.hasZero, ← Disk.find_eq_zeroCharacter_iff,
        hfind] at hzero
      simp [hnot] at hzero
  · rfl

/-- Every component lies in a directory whose path can be written down and read again, and which
holds a map that is named after it. -/
theorem directory_of_mem_walkCandidates {l : Library} (hpath : l.path.Plain)
    (hnamed : l.disk.tree.isWellNamed = true) {s : Session} {candidates : List Candidate}
    (h : l.walkCandidates.result s = .ok candidates) {c : Candidate} (hc : c ∈ candidates) :
    (Path.ofString c.path).Plain ∧ (Path.ofString c.path).name = c.name ∧
      l.isComponent (Path.ofString c.path) = true := by
  by_cases hsearch : l.Searchable
  · rw [Library.result_walkCandidates hsearch s] at h
    cases h
    obtain ⟨v, hv, rfl⟩ := List.mem_map.1 (mem_of_mem_firstOfEachName _ hc)
    obtain ⟨hmem, heligible⟩ := List.mem_filter.1 hv
    have hplain : v.1.Plain := forall_mem_directories Path.Plain
      (fun _ _ hdir hname => hdir.below hname) hnamed (hpath.child _) v hmem
    rw [Library.isEligible, Bool.and_eq_true] at heligible
    have hread : Path.ofString (Library.candidateAt v).path = v.1 := hplain.ofString_toString
    rw [hread]
    exact ⟨hplain, rfl, heligible.2⟩
  · rw [Library.result_walkCandidates_of_not_searchable hsearch] at h
    cases h

/-- Sources whose maps hold a first content for the properties or for the component are not
empty. -/
theorem ReadFrom.not_isEmpty {t : FileTree} {sources : Sources} (h : ReadFrom d dir t sources)
    {ending file : String} (hending : ending ∈ [propsSuffix, componentSuffix])
    (hfile : Chosen t dir.name ending (some file)) {text : Wide}
    (htext : IsTextAt d (dir.child file) "sourcesContent" 0 text) : sources.isEmpty = false := by
  have hsome {file? : Option String} {r : Recovered} (hchosen : Chosen t dir.name ending file?)
      (hr : RecoveredFrom d dir file? r) : r.content?.isNone = false := by
    obtain rfl := hchosen.unique hfile
    rw [(hr.content text).2 ⟨file, rfl, htext⟩]
    rfl
  simp only [List.mem_cons, List.not_mem_nil, or_false] at hending
  obtain rfl | rfl := hending
  · obtain ⟨file?, hchosen, hr⟩ := h.props
    rw [Sources.isEmpty, hsome hchosen hr, Bool.false_and]
  · obtain ⟨map?, hchosen, hr, -⟩ := h.component
    rw [Sources.isEmpty, hsome hchosen hr, Bool.and_false]

theorem isEnding_of_mem {ending : String} (h : ending ∈ [propsSuffix, componentSuffix]) :
    Path.IsEnding ending := by
  simp only [List.mem_cons, List.not_mem_nil, or_false] at h
  obtain rfl | rfl := h <;> exact ⟨by decide, 'p', by decide, by decide⟩

/-- **The maps that sources are read from.** In every directory that can be listed, sources are
read from the chosen maps, unless one of these breaks the reading off; a directory that cannot be
listed has none. A component is one because of a map that is named after it, and that map is
chosen, so its sources are not empty if the map holds a first content, the directory can be listed
and no integer in a chosen map is too long. -/
theorem sources_of_chosen_maps (l : Library) (s : Session) :
    (∀ dir f, l.disk.listing dir = .error f →
        (sourcesOf l.disk dir).result s =
          if f = .zeroCharacter then .error (.badPath .zeroCharacter) else .ok {}) ∧
      (∀ dir t, l.disk.listing dir = .ok t →
        ComesOut (Spoilt l.disk dir t) (ReadFrom l.disk dir t) ((sourcesOf l.disk dir).result s)) ∧
      (l.path.Plain → l.disk.tree.isWellNamed = true →
        ∀ candidates, l.walkCandidates.result s = .ok candidates →
        ∀ c ∈ candidates, ∃ dir t, dir = Path.ofString c.path ∧ dir.name = c.name ∧
          l.disk.find dir = .ok t ∧ (∀ f, Spoilt l.disk dir t f → f = .oversizedNumber) ∧
          (∃ ending ∈ [propsSuffix, componentSuffix], l.disk.holds dir (c.name ++ ending) = true) ∧
          ∀ ending ∈ [propsSuffix, componentSuffix], l.disk.holds dir (c.name ++ ending) = true →
            Chosen t dir.name ending (some (c.name ++ ending)) ∧
            ∀ text, IsTextAt l.disk (dir.child (c.name ++ ending)) "sourcesContent" 0 text →
              l.disk.isListable dir t = true → ¬Spoilt l.disk dir t .oversizedNumber →
                ∀ s', ∃ sources, (sourcesOf l.disk dir).result s' = .ok sources ∧
                  ReadFrom l.disk dir t sources ∧ sources.isEmpty = false) := by
  refine ⟨fun dir f hlisting => ?_, fun dir t hlisting => outcome_sourcesOf hlisting s,
    fun hpath hnamed candidates hwalk c hc => ?_⟩
  · split
    · next hf =>
      rw [sourcesOf, hlisting, hf]
      rfl
    · next hf =>
      rw [sourcesOf_of_error hlisting hf]
      rfl
  · obtain ⟨hplain, hname, hcomponent⟩ := directory_of_mem_walkCandidates hpath hnamed hwalk hc
    generalize Path.ofString c.path = dir at hplain hname hcomponent
    have hfile := fun ending (hmem : ending ∈ [propsSuffix, componentSuffix]) =>
      @hasFile_of_holds l.disk dir dir.name ending hplain.slash_not_mem_name (isEnding_of_mem hmem)
    obtain ⟨ending, hmem, hholds⟩ : ∃ ending ∈ [propsSuffix, componentSuffix],
        l.disk.holds dir (dir.name ++ ending) = true := by
      simpa [Library.isComponent] using hcomponent
    obtain ⟨t, hfind, hdir, -⟩ := hfile ending hmem hholds
    rw [← hname]
    refine ⟨dir, t, rfl, rfl, hfind, fun f hf => hf.eq_oversizedNumber hnamed hfind,
      ⟨ending, hmem, hholds⟩, fun other hother hholds => ?_⟩
    obtain ⟨t', hfind', -, hhas⟩ := hfile other hother hholds
    obtain rfl := Except.ok.inj (hfind.symm.trans hfind')
    refine ⟨.own hhas, fun text htext hlist hgoes s' => ?_⟩
    have hlisting : l.disk.listing dir = .ok t := by
      simp [Disk.listing, Disk.readDirectory, hfind, hdir, hlist, bind, Except.bind, pure,
        Except.pure]
    obtain ⟨f, -, hf⟩ | ⟨sources, hresult, -, hread⟩ := outcome_sourcesOf hlisting s'
    · exact absurd (hf.eq_oversizedNumber hnamed hfind ▸ hf) hgoes
    · exact ⟨sources, hresult, hread, hread.not_isEmpty hother (.own hhas) htext⟩

/-! ## A component among others -/

/-- The directory of a component, which holds maps of others as well, and a map of styles with a
given text. -/
def styledDirectory (styles : List Char) : FileTree :=
  .directory [("A.component.js.map", sourceMapFile "y"), ("a.component.js.map", sourceMapFile "x"),
    ("a.styles.js.map", .file (encode (.ofList styles))), ("b.props.js.map", sourceMapFile "")]

/-- A library that consists of it. -/
def withStyles (styles : List Char) : Library where
  disk :=
    { tree := .directory [("components", .directory [("a", styledDirectory styles)])]
      cwd := ⟨"/", []⟩
      home := ⟨"/", []⟩ }
  path := ⟨"", []⟩
  config := {}

/-- The directory of the component. -/
def styledPath : Path := .ofString "components/a"

/-- Where every file can be asked for its content, no chosen map breaks the reading off. -/
theorem not_spoilt_of_content? {t : FileTree} {s : Session}
    (h : ∀ e ∈ t.entries, ((content? d (dir.child e.1) 0).result s).toOption.isSome = true)
    (f : Fault) : ¬Spoilt d dir t f := by
  rintro ⟨ending, -, file, hchosen, hbreaks⟩
  obtain ⟨bytes, hmem⟩ := hchosen.hasFile
  have hasked := h _ hmem
  rw [((answers_content? d (dir.child file) 0 s).error_iff f).2 hbreaks] at hasked
  cases hasked

theorem isWellNamed_withStyles (styles : List Char) :
    (withStyles styles).disk.tree.isWellNamed = true := rfl

theorem find_styledPath (styles : List Char) :
    (withStyles styles).disk.find styledPath = .ok (styledDirectory styles) := rfl

theorem listing_styledPath (styles : List Char) :
    (withStyles styles).disk.listing styledPath = .ok (styledDirectory styles) := rfl

/-- The component is found, whatever its styles are. -/
theorem walkCandidates_withStyles (styles : List Char) :
    (withStyles styles).walkCandidates.result {} = .ok [⟨"a", "components/a", "a", none⟩] := by
  have hgroups : (withStyles styles).disk.directory? (withStyles styles).componentsPath
      = .ok (some (.directory [("a", styledDirectory styles)])) := rfl
  have hconsider : (withStyles styles).consider "a" [] styledPath
      = pure [⟨"a", "components/a", "a", none⟩] := rfl
  have hinside : subdirectories styledPath (styledDirectory styles) = [] := by
    simp [subdirectories, styledDirectory, sourceMapFile, FileTree.entries, FileTree.isDirectory,
      FileTree.sortEntries]
  have hsorted : FileTree.sortEntries [("a", styledDirectory styles)]
      = [("a", styledDirectory styles)] := List.mergeSort_singleton _
  have hlong : (withStyles styles).disk.isTooLong styledPath = false := rfl
  have hpath : (withStyles styles).componentsPath.below "a" = styledPath := rfl
  have hgroup : (withStyles styles).isGroup ("a", styledDirectory styles) = true := by
    have hkept : (!isSkipped "a" && !({} : Config).excludeGroups.contains "a") = true := by decide
    rw [Library.isGroup, Bool.and_assoc, Bool.and_eq_true]
    exact ⟨rfl, hkept⟩
  have hwalk : (withStyles styles).walk "a" [] [(styledPath, styledDirectory styles)]
      = pure [⟨"a", "components/a", "a", none⟩] := by
    rw [Library.walk, hconsider, pure_bind, hinside]
    have hlist : (withStyles styles).isListable styledPath (styledDirectory styles) = true := rfl
    rw [hlist, if_pos rfl, List.nil_append, Library.walk]
  unfold Library.walkCandidates
  rw [hgroups]
  dsimp only [FileTree.entries_directory]
  rw [hsorted, Library.walkGroups, hpath, hlong, if_neg Bool.false_ne_true, hgroup, if_pos rfl,
    hwalk]
  rfl

theorem isTextAt_withStyles (styles : List Char) :
    IsTextAt (withStyles styles).disk (styledPath.child "a.component.js.map") "sourcesContent" 0
      (.ofString "x") := by
  have hcontent : (content? (withStyles []).disk (styledPath.child "a.component.js.map") 0).result
      {} = .ok (some (.ofString "x")) := by
    decide +kernel
  have htext := (((answers_content? _ _ _ _).some_iff _).1 hcontent).2
  unfold IsTextAt TextIn at htext ⊢
  exact htext

theorem sources_of_chosen_maps_withStyles :
    (withStyles (versioned 1)).path.Plain ∧
      (withStyles (versioned 1)).disk.tree.isWellNamed = true ∧
      ∃ sources, (sourcesOf (withStyles (versioned 1)).disk styledPath).result {} = .ok sources ∧
        ReadFrom (withStyles (versioned 1)).disk styledPath (styledDirectory (versioned 1))
          sources ∧
        sources.isEmpty = false := by
  have hplain : (withStyles (versioned 1)).path.Plain := ⟨.inl rfl, by simp [withStyles]⟩
  have hnamed := isWellNamed_withStyles (versioned 1)
  obtain ⟨dir, t, hdir, -, hfind, -, -, hchosen⟩ :=
    (sources_of_chosen_maps (withStyles (versioned 1)) {}).2.2 hplain hnamed _
      (walkCandidates_withStyles _) _ List.mem_cons_self
  obtain rfl : dir = styledPath := hdir
  obtain rfl := Except.ok.inj ((find_styledPath _).symm.trans hfind)
  obtain ⟨-, hsources⟩ := hchosen componentSuffix (by simp) rfl
  refine ⟨hplain, hnamed, hsources _ (isTextAt_withStyles _) (by decide) ?_ {}⟩
  exact not_spoilt_of_content? (s := {}) (by decide +kernel) _

/-- **The sources of a component are lost** if the version in the map of its styles is an integer
that is too long, although the map that makes it a component holds a content. -/
theorem sourcesOf_overlongStyles :
    (withStyles (versioned 4301)).walkCandidates.result {} =
        .ok [⟨"a", "components/a", "a", none⟩] ∧
      IsTextAt (withStyles (versioned 4301)).disk (styledPath.child "a.component.js.map")
        "sourcesContent" 0 (.ofString "x") ∧
      (sourcesOf (withStyles (versioned 4301)).disk styledPath).result {} =
        .error .oversizedNumber := by
  refine ⟨walkCandidates_withStyles _, isTextAt_withStyles _, ?_⟩
  have htext : TextIn (withStyles (versioned 4301)).disk (styledPath.child "a.styles.js.map")
      (.ofList (versioned 4301)) :=
    textIn_iff.2 ⟨_, rfl, ofFile?_written (allWritten_versioned 4301)⟩
  have hown : Chosen (styledDirectory (versioned 4301)) styledPath.name stylesSuffix
      (some (styledPath.name ++ stylesSuffix)) := .own ⟨_, .tail _ (.tail _ (.head _))⟩
  have hspoilt : Spoilt (withStyles (versioned 4301)).disk styledPath
      (styledDirectory (versioned 4301)) .oversizedNumber :=
    ⟨stylesSuffix, by simp, _, hown, .oversized htext (stumblesIn_versioned (by decide))⟩
  obtain ⟨f, hresult, hf⟩ | ⟨-, -, hgoes, -⟩ :=
    outcome_sourcesOf (listing_styledPath (versioned 4301)) {}
  · rw [hresult, hf.eq_oversizedNumber (isWellNamed_withStyles _) (find_styledPath _)]
  · exact absurd hspoilt (hgoes _)

end ComponentCatalog
