import ComponentCatalog.FileTree
import ComponentCatalog.Proofs.Names
import ComponentCatalog.Proofs.Places

/-!
# What stands where

A tree is known by what stands at each place: nothing, a directory, or a file with its bytes
(`FileTree.look`). Following a path depends on nothing else, and what writing a file and
making directories do is said in these terms: a file that is written stands at the place its
path resolves to and nothing else has changed (`look_of_updateFile`), and where directories
are made there was nothing before (`changed_makeDirectories`).

So a run that writes files one after the other leaves a tree in which every directory and every
file of the first one is still there, and in which only the files that were written have other
bytes (`Disk.Changed`). A path that could be written to can still be written to, and what was
written to it is read from it as long as no other path to its place has been written to.
-/

namespace ComponentCatalog

namespace FileTree

/-- The bytes of a file; a directory has none. -/
def bytes? : FileTree → Option (List UInt8)
  | file bytes => some bytes
  | directory _ => none

/-- What stands at a place: a directory, or a file with its bytes. -/
def look (t : FileTree) (place : List String) : Option (Option (List UInt8)) :=
  (t.at? place).map bytes?

theorem look_nil (t : FileTree) : t.look [] = some t.bytes? := rfl

theorem entries_directory (es : List (String × FileTree)) : (directory es).entries = es := rfl

theorem look_cons (t : FileTree) (p : String) (place : List String) :
    t.look (p :: place) = (t.entries.lookup p).bind fun e => e.look place :=
  Option.map_bind

/-- A path through a directory goes on from there. -/
theorem at?_append (t : FileTree) (dir place : List String) :
    t.at? (dir ++ place) = (t.at? dir).bind fun e => e.at? place := by
  induction dir generalizing t with
  | nil => rfl
  | cons p dir ih => simp only [List.cons_append, at?, ih, Option.bind_assoc]

/-- What stands behind a directory is looked up from there. -/
theorem look_append (t : FileTree) (dir place : List String) :
    t.look (dir ++ place) = (t.at? dir).bind fun e => e.look place := by
  rw [look, at?_append, Option.map_bind]
  rfl

/-- There is a directory where a place leads to one. -/
theorem look_eq_directory {t : FileTree} {place : List String} :
    t.look place = some none ↔ ∃ es, t.at? place = some (.directory es) := by
  rw [look, Option.map_eq_some_iff]
  constructor
  · rintro ⟨u, hu, hb⟩
    cases u with
    | file b => cases hb
    | directory es => exact ⟨es, hu⟩
  · rintro ⟨es, h⟩
    exact ⟨_, h, rfl⟩

/-- An entry that has been put is found, and all others as before. -/
theorem lookup_putEntry (name n : String) (e : FileTree) (es : List (String × FileTree)) :
    (putEntry name e es).lookup n = if n = name then some e else es.lookup n := by
  induction es with
  | nil => rw [putEntry, lookup_cons_eq]
  | cons x es ih =>
    obtain ⟨m, u⟩ := x
    by_cases hm : m = name
    · simp only [putEntry, hm, beq_self_eq_true, if_true, lookup_cons_eq]
      split_ifs <;> rfl
    · simp only [putEntry, beq_false_of_ne hm, Bool.false_eq_true, if_false, lookup_cons_eq, ih]
      split_ifs with h h'
      · exact absurd (h.symm.trans h') hm
      · rfl
      · rfl
      · rfl

/-- What has no entries holds nothing but itself. -/
theorem look_of_entries_eq_nil {t : FileTree} (h : t.entries = []) {place : List String}
    (hp : place ≠ []) : t.look place = none := by
  cases place with
  | nil => exact absurd rfl hp
  | cons p place => rw [look_cons, h, List.lookup_nil, Option.bind_none]

/-- **What stands where after an entry without entries of its own has been put** under a name
of a directory, where nothing with entries stood: it stands there, and all else is as before. -/
theorem look_put {t e : FileTree} {dir : List String} {name : String}
    {es : List (String × FileTree)} (hdir : t.at? dir = some (.directory es))
    (hold : ∀ u, es.lookup name = some u → u.entries = []) (hnew : e.entries = [])
    (place : List String) :
    (t.put e (dir ++ [name])).look place =
      if place = dir ++ [name] then some e.bytes? else t.look place := by
  -- down to the directory, only the entry on the way to it is replaced
  induction dir generalizing t place with
  | nil =>
    obtain rfl : t = .directory es := by simpa [at?] using hdir
    cases place with
    | nil => rfl
    | cons q place =>
      simp only [List.nil_append, put, look_cons, entries_directory, lookup_putEntry,
        List.cons.injEq]
      by_cases hq : q = name
      · subst hq
        rw [if_pos rfl, Option.bind_some]
        by_cases hplace : place = []
        · subst hplace
          rw [if_pos ⟨rfl, rfl⟩, look_nil]
        · rw [if_neg (by simp [hplace]), look_of_entries_eq_nil hnew hplace]
          cases hlookup : es.lookup q with
          | none => rfl
          | some u => exact (look_of_entries_eq_nil (hold u hlookup) hplace).symm
      · rw [if_neg hq, if_neg (by simp [hq])]
  | cons p dir ih =>
    obtain ⟨u, hu, hrest⟩ := Option.bind_eq_some_iff.1 hdir
    have hput : t.put e (p :: dir ++ [name]) =
        .directory (putEntry p (u.put e (dir ++ [name])) t.entries) := by
      rw [List.cons_append, put, hu, Option.getD_some]
    rw [hput]
    cases place with
    | nil =>
      cases t with
      | file b => cases hu
      | directory es' => rfl
    | cons q place =>
      simp only [look_cons, entries_directory, lookup_putEntry, List.cons_append, List.cons.injEq]
      by_cases hq : q = p
      · subst hq
        rw [if_pos rfl, Option.bind_some, ih hrest, hu, Option.bind_some]
        simp only [true_and]
      · rw [if_neg hq, if_neg (by simp [hq])]

/-- Whatever stands in one tree stands in another one, a directory as a directory and a file as
a file. -/
def Grows (t t' : FileTree) : Prop :=
  ∀ place k, (t.look place).map Option.isSome = some k → (t'.look place).map Option.isSome = some k

theorem Grows.refl (t : FileTree) : t.Grows t :=
  fun _ _ h => h

theorem Grows.trans {t u v : FileTree} (htu : t.Grows u) (huv : u.Grows v) : t.Grows v :=
  fun place k h => huv place k (htu place k h)

/-- A directory stays one. -/
theorem Grows.directory {t t' : FileTree} (h : t.Grows t') {place : List String}
    (hd : t.look place = some none) : t'.look place = some none := by
  have hk := h place false (by rw [hd]; rfl)
  match hl : t'.look place with
  | none => rw [hl] at hk; cases hk
  | some none => rfl
  | some (some b) => rw [hl] at hk; cases hk

end FileTree

namespace Disk

open FileTree

/-- Following a name looks at the place and at the one it leads to, and nowhere else. -/
theorem step_eq_ok {t : FileTree} {place place' : List String} {part : String} :
    step t place part = .ok place' ↔ t.look place = some none ∧
      (part = ".." ∧ place' = place.dropLast ∨
        part ≠ ".." ∧ part.utf8ByteSize ≤ nameLimit ∧ (t.look (place ++ [part])).isSome ∧
          place' = place ++ [part]) := by
  have hentry (es : List (String × FileTree)) (h : t.at? place = some (.directory es)) :
      (t.look (place ++ [part])).isSome = (es.lookup part).isSome := by
    rw [look_append, h, Option.bind_some, look_cons, entries_directory]
    cases es.lookup part <;> rfl
  unfold step
  rcases hat : t.at? place with _ | ⟨b⟩ | es
  · simp [look, hat]
  · simp [look, hat, bytes?]
  · have hlook : t.look place = some none := look_eq_directory.2 ⟨es, hat⟩
    simp only [hlook, hentry es hat, true_and, beq_iff_eq]
    split_ifs with hup hlong hin
    · rw [Except.ok.injEq]
      exact ⟨fun h => .inl ⟨hup, h.symm⟩, fun h => h.elim (·.2.symm) fun h => absurd hup h.1⟩
    · refine ⟨fun h => (by cases h), ?_⟩
      rintro (⟨h, -⟩ | ⟨-, h, -⟩)
      · exact absurd h hup
      · omega
    · rw [Except.ok.injEq]
      refine ⟨fun h => .inr ⟨hup, Nat.le_of_not_lt hlong, hin, h.symm⟩, ?_⟩
      rintro (⟨h, -⟩ | ⟨-, -, -, h⟩)
      · exact absurd h hup
      · exact h.symm
    · refine ⟨fun h => (by cases h), ?_⟩
      rintro (⟨h, -⟩ | ⟨-, -, h, -⟩)
      · exact absurd h hup
      · exact absurd h hin

/-- A step that can be made can be made when there is more. -/
theorem step_of_grows {t t' : FileTree} (hgrows : t.Grows t') {place place' : List String}
    {part : String} (h : step t place part = .ok place') : step t' place part = .ok place' := by
  rw [step_eq_ok] at h ⊢
  obtain ⟨hdir, hup | ⟨hne, hshort, hin, hplace⟩⟩ := h
  · exact ⟨hgrows.directory hdir, .inl hup⟩
  · obtain ⟨x, hx⟩ := Option.isSome_iff_exists.1 hin
    have hin' := hgrows _ x.isSome (by rw [hx]; rfl)
    refine ⟨hgrows.directory hdir, .inr ⟨hne, hshort, ?_, hplace⟩⟩
    rw [← Option.isSome_map, hin', Option.isSome_some]

/-- A path that can be followed can be followed when there is more. -/
theorem follow_of_grows {t t' : FileTree} (hgrows : t.Grows t') {parts place : List String}
    (h : follow t parts = .ok place) : follow t' parts = .ok place := by
  suffices hfold : ∀ start : List String, parts.foldlM (step t) start = .ok place →
      parts.foldlM (step t') start = .ok place from
    follow_eq_ok_iff.2 ((follow_eq_ok_iff.1 h).imp_right (hfold []))
  clear h
  intro start h
  induction parts generalizing start with
  | nil => exact h
  | cons part parts ih =>
    obtain ⟨next, hstep, hrest⟩ := foldlM_step_cons.1 h
    exact foldlM_step_cons.2 ⟨next, step_of_grows hgrows hstep, ih next hrest⟩

/-- The place that a path resolves to. -/
def place (d : Disk) (p : Path) : List String :=
  (d.resolve p).parts

theorem place_eq_settle (d : Disk) (p : Path) : d.place p = Path.settle [] (d.fullParts p) :=
  rfl

/-- The bytes of the file at a place. -/
def content? (d : Disk) (place : List String) : Option (List UInt8) :=
  (d.tree.look place).join

/-- There is content where there is a file. -/
theorem isSome_content?_iff {d : Disk} {place : List String} :
    (d.content? place).isSome ↔ (d.tree.look place).map Option.isSome = some true := by
  rw [content?]
  match d.tree.look place with
  | none => simp
  | some none => simp
  | some (some b) => simp

/-- A path that can be looked up and names an entry of a directory, whether the entry exists or
not. -/
structure Entry (d : Disk) (p : Path) (dir : List String) (name : String) : Prop where
  short : d.isTooLong p = false
  noZero : hasZero (d.fullParts p) = false
  last : (d.fullParts p).getLast? = some name
  follow : Disk.follow d.tree (d.fullParts p).dropLast = .ok dir
  directory : d.tree.look dir = some none
  ne_up : name ≠ ".."
  name_short : name.utf8ByteSize ≤ nameLimit

/-- A name that does not lead upwards comes last. -/
theorem settle_concat {name : String} (h : name ≠ "..") (done parts : List String) :
    Path.settle done (parts ++ [name]) = Path.settle done parts ++ [name] := by
  induction parts generalizing done with
  | nil =>
    simp only [List.nil_append, Path.settle, beq_false_of_ne h, Bool.false_eq_true, if_false,
      List.reverse_cons]
  | cons part parts ih =>
    simp only [List.cons_append, Path.settle, ih]
    split <;> rfl

/-- An entry stands in its directory, under its name. -/
theorem Entry.place_eq {d : Disk} {p : Path} {dir : List String} {name : String}
    (h : d.Entry p dir name) : d.place p = dir ++ [name] := by
  have hparts : d.fullParts p = (d.fullParts p).dropLast ++ [name] :=
    (List.dropLast_append_getLast? name h.last).symm
  rw [place_eq_settle, hparts, settle_concat h.ne_up, ← follow_eq_settle h.follow]

/-- A path has an entry if its directory is found and its name is one that can be used. -/
theorem entryOf_eq_ok {d : Disk} {p : Path} {dir : List String} {name : String} :
    d.entryOf p = .ok (dir, name) ↔ d.Entry p dir name := by
  unfold entryOf
  constructor
  · intro h
    by_cases hlong : d.isTooLong p = true
    · rw [if_pos hlong] at h
      cases h
    rw [if_neg hlong] at h
    split at h
    · cases h
    next last hlast =>
    split at h
    · cases h
    next place hfollow =>
    by_cases hzero : hasZero (d.fullParts p) = true
    · rw [if_pos hzero] at h
      cases h
    rw [if_neg hzero] at h
    split at h
    · cases h
    · cases h
    next es hat =>
    split_ifs at h with hup hname
    cases h
    exact ⟨by simpa using hlong, by simpa using hzero, hlast, hfollow,
      look_eq_directory.2 ⟨es, hat⟩, by simpa using hup, Nat.le_of_not_lt hname⟩
  · intro h
    -- every field of the structure answers one of the tests
    obtain ⟨es, hat⟩ := look_eq_directory.1 h.directory
    simp only [h.short, h.noZero, h.last, h.follow, hat, beq_false_of_ne h.ne_up,
      Nat.not_lt.2 h.name_short, Bool.false_eq_true, if_false]

/-- A file can be written exactly if its path names an entry that is no directory, and then it
is put there. -/
theorem updateFile_eq_ok {d d' : Disk} {p : Path} {f : List UInt8 → List UInt8} :
    d.updateFile p f = .ok d' ↔ ∃ dir name, d.Entry p dir name ∧
      d.tree.look (dir ++ [name]) ≠ some none ∧
      d' = d.putFile (dir ++ [name]) (f ((d.content? (dir ++ [name])).getD [])) := by
  have hwrite (dir : List String) (name : String) (h : d.entryOf p = .ok (dir, name)) :
      d.updateFile p f = .ok d' ↔ d.tree.look (dir ++ [name]) ≠ some none ∧
        d' = d.putFile (dir ++ [name]) (f ((d.content? (dir ++ [name])).getD [])) := by
    simp only [updateFile, h, content?, look]
    rcases d.tree.at? (dir ++ [name]) with _ | ⟨b⟩ | es
    · simp [eq_comm]
    · simp [bytes?, eq_comm]
    · simp [bytes?]
  constructor
  · intro h
    rcases hentry : d.entryOf p with e | ⟨dir, name⟩
    · simp [updateFile, hentry] at h
    · exact ⟨dir, name, entryOf_eq_ok.1 hentry, (hwrite dir name hentry).1 h⟩
  · rintro ⟨dir, name, hentry, h⟩
    exact (hwrite dir name (entryOf_eq_ok.2 hentry)).2 h

/-- **What stands where after a file has been written**: its bytes at the place its path
resolves to, and everything else as before. -/
theorem look_of_updateFile {d d' : Disk} {p : Path} {f : List UInt8 → List UInt8}
    (h : d.updateFile p f = .ok d') (place : List String) :
    d'.tree.look place =
      if place = d.place p then some (some (f ((d.content? (d.place p)).getD [])))
      else d.tree.look place := by
  obtain ⟨dir, name, hentry, hfile, rfl⟩ := updateFile_eq_ok.1 h
  obtain ⟨es, hat⟩ := look_eq_directory.1 hentry.directory
  rw [hentry.place_eq]
  refine look_put hat (fun u hu => ?_) rfl place
  -- what stood there was a file
  cases u with
  | file b => rfl
  | directory es' =>
    refine absurd ?_ hfile
    rw [look_append, hat, Option.bind_some, look_cons, entries_directory, hu]
    rfl

/-- Where directories are made there was nothing, and nothing else changes. -/
theorem look_makeFrom {t t' : FileTree} {start parts : List String}
    (h : makeFrom t start parts = .ok t') (place : List String) :
    t'.look place = t.look place ∨ t.look place = none ∧ t'.look place = some none := by
  fun_induction makeFrom t start parts with
  | case1 t start =>
    cases h
    exact .inl rfl
  | case2 t start p ps es hat hup ih => exact ih h
  | case3 t start p ps es hat hup es' hlookup ih => exact ih h
  | case4 => cases h
  | case5 => cases h
  | case6 t start p ps es hat hup hlookup hshort ih =>
    -- a directory is made, and then those below it
    have hnone : t.look (start ++ [p]) = none := by
      rw [look_append, hat, Option.bind_some, look_cons, entries_directory, hlookup]
      rfl
    have hput : (t.put (.directory []) (start ++ [p])).look place =
        if place = start ++ [p] then some none else t.look place :=
      look_put hat (fun u hu => nomatch hlookup.symm.trans hu) rfl place
    have hrest := ih h
    rw [hput] at hrest
    split_ifs at hrest with hplace
    · rw [hplace, hnone]
      rw [hplace] at hrest
      exact .inr ⟨rfl, hrest.elim id fun h => nomatch h.1⟩
    · exact hrest
  | case7 => cases h
  | case8 => cases h

/-- **One disk comes from another by writing files** at some places: directories and files stay
what they are, and only there the bytes of a file may have changed. -/
structure Changed (written : List String → Prop) (d d' : Disk) : Prop where
  cwd : d'.cwd = d.cwd
  home : d'.home = d.home
  grows : d.tree.Grows d'.tree
  kept : ∀ place, ¬written place → d'.content? place = d.content? place

namespace Changed

variable {w w' : List String → Prop} {d d' d'' : Disk}

theorem refl (d : Disk) : Changed w d d :=
  ⟨rfl, rfl, .refl _, fun _ _ => rfl⟩

/-- Changes one after the other are a change. -/
theorem trans (h : Changed w d d') (h' : Changed w d' d'') : Changed w d d'' where
  cwd := h'.cwd.trans h.cwd
  home := h'.home.trans h.home
  grows := h.grows.trans h'.grows
  kept place hplace := (h'.kept place hplace).trans (h.kept place hplace)

/-- A change of less is a change. -/
theorem mono (h : Changed w d d') (hw : ∀ place, w place → w' place) : Changed w' d d' :=
  ⟨h.cwd, h.home, h.grows, fun place hplace => h.kept place fun hp => hplace (hw place hp)⟩

theorem fullParts (h : Changed w d d') (p : Path) : d'.fullParts p = d.fullParts p := by
  rw [Disk.fullParts, Disk.fullParts, h.cwd]

/-- A change moves nothing: paths lead where they led. -/
theorem place (h : Changed w d d') (p : Path) : d'.place p = d.place p := by
  rw [Disk.place, Disk.place, Disk.resolve, Disk.resolve, h.cwd]

/-- A file stays a file. -/
theorem isSome_content? (h : Changed w d d') {place : List String}
    (hfile : (d.content? place).isSome) : (d'.content? place).isSome := by
  rw [isSome_content?_iff] at hfile ⊢
  exact h.grows place true hfile

/-- A path that names an entry goes on to name it. -/
theorem entry (h : Changed w d d') {p : Path} {dir : List String} {name : String}
    (hentry : d.Entry p dir name) : d'.Entry p dir name where
  short := by rw [← hentry.short, isTooLong, isTooLong, h.fullParts]
  noZero := by rw [h.fullParts, hentry.noZero]
  last := by rw [h.fullParts, hentry.last]
  follow := by rw [h.fullParts, follow_of_grows h.grows hentry.follow]
  directory := h.grows.directory hentry.directory
  ne_up := hentry.ne_up
  name_short := hentry.name_short

end Changed

/-- Updating a file changes this file only. -/
theorem changed_updateFile {d d' : Disk} {p : Path} {f : List UInt8 → List UInt8}
    (h : d.updateFile p f = .ok d') : Changed (· = d.place p) d d' := by
  have hlook := look_of_updateFile h
  obtain ⟨dir, name, hentry, hfile, rfl⟩ := updateFile_eq_ok.1 h
  refine ⟨rfl, rfl, fun place k hk => ?_, fun place hplace => ?_⟩
  · rw [hlook]
    split_ifs with hplace
    · -- a file has been written where no directory was
      rw [hplace, hentry.place_eq] at hk
      match hold : d.tree.look (dir ++ [name]) with
      | none => simp [hold] at hk
      | some none => exact absurd hold hfile
      | some (some b) => simpa [hold] using hk
    · exact hk
  · rw [content?, hlook, if_neg hplace, content?]

theorem exists_makeFrom {d d' : Disk} {p : Path} (h : d.makeDirectories p = .ok d') :
    ∃ t, makeFrom d.tree [] (d.fullParts p) = .ok t ∧ { d with tree := t } = d' := by
  unfold makeDirectories at h
  by_cases hlong : d.isTooLong p = true
  · rw [if_pos hlong] at h
    cases h
  rw [if_neg hlong] at h
  by_cases hzero : hasZero (d.fullParts p) = true
  · rw [if_pos hzero] at h
    cases h
  rw [if_neg hzero] at h
  cases ht : makeFrom d.tree [] (d.fullParts p) with
  | error f =>
    rw [ht] at h
    cases h
  | ok t =>
    rw [ht] at h
    cases h
    exact ⟨t, rfl, rfl⟩

/-- Making directories changes no file. The induction follows the names of the path. -/
theorem changed_makeFrom {d : Disk} {t : FileTree} {parts : List String}
    (h : makeFrom d.tree [] parts = .ok t) :
    Changed (fun _ => False) d { d with tree := t } := by
  have hlook := look_makeFrom h
  refine ⟨rfl, rfl, fun place k hk => ?_, fun place _ => ?_⟩
  · obtain h | ⟨hnone, -⟩ := hlook place
    · rw [h, hk]
    · simp [hnone] at hk
  · obtain h | ⟨hnone, hdir⟩ := hlook place
    · exact congrArg Option.join h
    · rw [content?, content?, hnone, hdir]
      rfl

/-- Making the directories of a path changes no file. -/
theorem changed_makeDirectories {d d' : Disk} {p : Path} (h : d.makeDirectories p = .ok d') :
    Changed (fun _ => False) d d' := by
  obtain ⟨t, ht, rfl⟩ := exists_makeFrom h
  exact changed_makeFrom ht

/-- Not even an attempt that fails on the way changes a file. -/
theorem changed_attemptDirectories (d : Disk) (p : Path) :
    Changed (fun _ => False) d (d.attemptDirectories p) := by
  unfold attemptDirectories
  dsimp only
  split
  · exact .refl d
  · cases hmade : (List.range ((d.fullParts p).length + 1)).reverse.findSome? fun n =>
        (makeFrom d.tree [] ((d.fullParts p).take n)).toOption with
    | none => exact .refl d
    | some t =>
      obtain ⟨n, -, ht⟩ := List.exists_of_findSome?_eq_some hmade
      cases hfrom : makeFrom d.tree [] ((d.fullParts p).take n) with
      | error f =>
        rw [hfrom] at ht
        cases ht
      | ok u =>
        rw [hfrom] at ht
        cases ht
        exact changed_makeFrom hfrom

/-- The last step is made from where the others lead to. -/
theorem follow_concat {t : FileTree} {parts dir : List String} {name : String}
    (hzero : hasZero (parts ++ [name]) = false) (h : follow t parts = .ok dir) :
    follow t (parts ++ [name]) = step t dir name := by
  rw [follow, if_neg (by simp [hzero]), List.foldlM_append, (follow_eq_ok_iff.1 h).2]
  exact bind_pure (step t dir name)

/-- What is found is what stands where the steps lead to. -/
theorem find_of_follow {d : Disk} {p : Path} {place : List String} {t : FileTree}
    (hshort : d.isTooLong p = false) (hfollow : follow d.tree (d.fullParts p) = .ok place)
    (hat : d.tree.at? place = some t) : d.find p = .ok t := by
  rw [find, if_neg (by simp [hshort]), hfollow]
  simp only [hat, bind, Except.bind, pure, Except.pure]

/-- A file that is there is read from every path that names it. -/
theorem readFile_of_entry {d : Disk} {p : Path} {dir : List String} {name : String}
    (hentry : d.Entry p dir name) {bytes : List UInt8}
    (h : d.content? (dir ++ [name]) = some bytes) : d.readFile p = .ok bytes := by
  obtain ⟨u, hu, hbytes⟩ : ∃ u, d.tree.at? (dir ++ [name]) = some u ∧ u.bytes? = some bytes := by
    rwa [content?, look, Option.join_eq_some_iff, Option.map_eq_some_iff] at h
  have hstep : step d.tree dir name = .ok (dir ++ [name]) :=
    step_eq_ok.2 ⟨hentry.directory,
      .inr ⟨hentry.ne_up, hentry.name_short, by simp [look, hu], rfl⟩⟩
  have hparts := List.dropLast_append_getLast? name hentry.last
  have hfollow : Disk.follow d.tree (d.fullParts p) = .ok (dir ++ [name]) := by
    rw [← hparts, follow_concat (by rw [hparts, hentry.noZero]) hentry.follow, hstep]
  rw [readFile, find_of_follow hentry.short hfollow hu]
  cases u with
  | file b =>
    cases hbytes
    rfl
  | directory es => cases hbytes

/-- What is read from a path stands at the place that it resolves to. -/
theorem content?_of_readFile {d : Disk} {p : Path} {bytes : List UInt8}
    (h : d.readFile p = .ok bytes) : d.content? (d.place p) = some bytes := by
  unfold readFile at h
  cases hfind : d.find p with
  | error f =>
    rw [hfind] at h
    cases h
  | ok t =>
    rw [hfind] at h
    obtain ⟨place, hfollow, hat⟩ := exists_follow_of_find hfind
    have hplace : d.place p = place := (follow_eq_settle hfollow).symm
    cases t with
    | file b =>
      cases h
      rw [content?, hplace, look, hat]
      rfl
    | directory es => cases h

end Disk

/-! ## Entries of a directory -/

/-- A text that is a name is the path of the entry of that name. -/
theorem Path.child_eq_below (dir : Path) {name : String} (hempty : name ≠ "") (hdot : name ≠ ".")
    (hslash : '/' ∉ name.toList) : dir.child name = dir.below name := by
  have hplain : Path.Plain ⟨"", [name]⟩ := ⟨.inl rfl, by simpa using ⟨hempty, hdot, hslash⟩⟩
  have htext : Path.toString ⟨"", [name]⟩ = name := by simp [Path.toString]
  have hname := hplain.ofString_toString
  rw [htext] at hname
  rw [Path.child, hname]
  rfl

namespace Disk

theorem fullParts_below (d : Disk) (dir : Path) (name : String) :
    d.fullParts (dir.below name) = d.fullParts dir ++ [name] := by
  unfold fullParts Path.join Path.below
  split <;> simp

/-- **What is found behind one more name**, where a directory was found. -/
theorem find_below {d : Disk} {dir : Path} {es : List (String × FileTree)} {name : String}
    (hdir : d.find dir = .ok (.directory es)) (hshort : d.isTooLong (dir.below name) = false)
    (hzero : '\x00' ∉ name.toList) (hup : name ≠ "..") :
    d.find (dir.below name) =
      if nameLimit < name.utf8ByteSize then .error .nameTooLong
      else match es.lookup name with
        | some t => .ok t
        | none => .error .missing := by
  obtain ⟨place, hfollow, hat⟩ := exists_follow_of_find hdir
  have hzeros : hasZero (d.fullParts dir ++ [name]) = false := by
    simpa [hasZero, hzero] using (follow_eq_ok_iff.1 hfollow).1
  have hentry : d.tree.at? (place ++ [name]) = es.lookup name := by
    rw [FileTree.at?_append, hat, Option.bind_some, FileTree.at?, FileTree.entries_directory]
    cases es.lookup name <;> rfl
  have hstep : follow d.tree (d.fullParts (dir.below name)) = step d.tree place name := by
    rw [fullParts_below, follow_concat hzeros hfollow]
  by_cases hlong : nameLimit < name.utf8ByteSize
  · rw [if_pos hlong, find, if_neg (by simp [hshort]), hstep]
    simp only [step, hat, beq_false_of_ne hup, Bool.false_eq_true, if_false, if_pos hlong]
    rfl
  · rw [if_neg hlong]
    cases hlookup : es.lookup name with
    | none =>
      rw [find, if_neg (by simp [hshort]), hstep]
      simp only [step, hat, beq_false_of_ne hup, Bool.false_eq_true, if_false, if_neg hlong,
        hlookup, Option.isSome_none]
      rfl
    | some t =>
      refine find_of_follow hshort (hstep.trans ?_) (hentry.trans hlookup)
      simp only [step, hat, beq_false_of_ne hup, Bool.false_eq_true, if_false, if_neg hlong,
        hlookup, Option.isSome_some, if_true]

/-- A name that is too long is no entry of a directory, and looking for it is a fault. -/
theorem find_below_of_long {d : Disk} {dir : Path} {es : List (String × FileTree)} {name : String}
    (hdir : d.find dir = .ok (.directory es)) (hzero : '\x00' ∉ name.toList) (hup : name ≠ "..")
    (hlong : nameLimit < name.utf8ByteSize) : d.find (dir.below name) = .error .nameTooLong := by
  by_cases hpath : d.isTooLong (dir.below name) = true
  · rw [find, if_pos hpath]
  · rw [find_below hdir (Bool.eq_false_iff.2 hpath) hzero hup, if_pos hlong]

end Disk

/-! ## The ending of a name -/

/-- A text that can end the last name of a path: it has no slashes, and a name that ends with it
is no dots. -/
structure Path.IsEnding (ending : String) : Prop where
  slash : '/' ∉ ending.toList
  last : ∃ c ∈ ending.toList.getLast?, c ≠ '.'

namespace Path

/-- An ending without a slash is the end of the last piece. -/
theorem exists_piecesFrom_append {ending : List Char} (h : '/' ∉ ending) (piece cs : List Char) :
    ∃ pieces stem,
      piecesFrom piece (cs ++ ending) = pieces ++ [String.ofList (stem ++ ending)] := by
  induction cs generalizing piece with
  | nil =>
    refine ⟨[], piece.reverse, ?_⟩
    rw [List.nil_append, ← List.append_nil ending, piecesFrom_append h, piecesFrom,
      List.reverse_append, List.reverse_reverse, List.append_nil, List.nil_append]
  | cons c cs ih =>
    rw [List.cons_append, piecesFrom]
    split
    · obtain ⟨pieces, stem, hpieces⟩ := ih []
      exact ⟨String.ofList piece.reverse :: pieces, stem, by rw [hpieces, List.cons_append]⟩
    · exact ih (c :: piece)

/-- A name with an ending is no special one. -/
theorem IsEnding.append_ne {ending : String} (h : IsEnding ending) (stem : String) :
    stem ++ ending ≠ "" ∧ stem ++ ending ≠ "." ∧ stem ++ ending ≠ ".." := by
  obtain ⟨c, hc, hdot⟩ := h.last
  have hlast : (stem ++ ending).toList.getLast? = some c := by
    rw [String.toList_append, List.getLast?_append, hc, Option.some_or]
  refine ⟨fun heq => ?_, fun heq => ?_, fun heq => ?_⟩ <;> rw [heq] at hlast
  · cases hlast
  · exact hdot (Option.some.inj hlast).symm
  · exact hdot (Option.some.inj hlast).symm

/-- A path that ends with an ending has a last name that does. -/
theorem IsEnding.getLast?_ofString {ending : String} (h : IsEnding ending) (s : String) :
    ∃ stem, (ofString (s ++ ending)).parts.getLast? = some (stem ++ ending) := by
  obtain ⟨pieces, stem, hpieces⟩ := exists_piecesFrom_append h.slash [] s.toList
  refine ⟨String.ofList stem, ?_⟩
  obtain ⟨hempty, hdot, -⟩ := h.append_ne (String.ofList stem)
  have hkeep : (!(String.ofList stem ++ ending).isEmpty && String.ofList stem ++ ending != ".")
      = true := by
    rw [Bool.and_eq_true, bne_iff_ne]
    exact ⟨by simpa using hempty, hdot⟩
  rw [ofString, String.toList_append, hpieces, String.ofList_append, String.ofList_toList,
    List.filter_append, List.filter_cons, if_pos hkeep, List.filter_nil, List.getLast?_append,
    List.getLast?_singleton, Option.some_or]

end Path

/-- A path in a directory, given by a text that ends with an ending, resolves to a place whose
last name ends with it. -/
theorem Disk.exists_place_child {ending : String} (h : Path.IsEnding ending) (d : Disk)
    (dir : Path) (s : String) :
    ∃ stem, (d.place (dir.child (s ++ ending))).getLast? = some (stem ++ ending) := by
  obtain ⟨stem, hlast⟩ := h.getLast?_ofString s
  have hjoin (a b : Path) (hb : b.parts.getLast? = some (stem ++ ending)) :
      (a.join b).parts.getLast? = some (stem ++ ending) := by
    unfold Path.join
    split
    · rw [List.getLast?_append, hb, Option.some_or]
    · exact hb
  have hfull : (d.fullParts (dir.child (s ++ ending))).getLast? = some (stem ++ ending) :=
    hjoin d.cwd _ (hjoin dir _ hlast)
  refine ⟨stem, ?_⟩
  rw [place_eq_settle, ← List.dropLast_append_getLast? _ hfull,
    settle_concat (h.append_ne stem).2.2, List.getLast?_concat]

end ComponentCatalog
