import ComponentCatalog.FileTree
import Mathlib.Data.List.Nodup
import Mathlib.Data.List.Perm.Subperm

/-!
# Places of directories

Many paths lead to one directory: they may be relative or absolute, and they may go up
and down again by double dots. What they have in common is the place, the plain names
from the top of the tree down. Resolving a path takes it to that place
(`follow_eq_settle`), without looking at the tree at all; that is right because a path is
followed name by name and there is nothing to follow but directories.

So a directory is known by its resolved path, which is one of `Disk.directories`, and a
list of resolved paths without repetition is no longer than there are directories
(`length_le_directoryCount`). This is what bounds every descent that never enters a
directory twice.

Documents hold paths as texts. A path that was read from a text, or joined from such
paths, is written as a text that reads back as itself (`Path.Plain.ofString_toString`).
-/

namespace ComponentCatalog

/-! ## Paths as texts -/

namespace Path

/-- A path as texts can write it: its root is one of the three there are, and its names
are neither empty nor single dots, and have no slashes in them. -/
structure Plain (p : Path) : Prop where
  root : p.root = "" ∨ p.root = "/" ∨ p.root = "//"
  parts : ∀ part ∈ p.parts, part ≠ "" ∧ part ≠ "." ∧ '/' ∉ part.toList

/-- The pieces between slashes have none. -/
theorem not_mem_slash_of_mem_piecesFrom {piece cs : List Char} {part : String}
    (h : part ∈ piecesFrom piece cs) (hp : '/' ∉ piece) : '/' ∉ part.toList := by
  induction cs generalizing piece with
  | nil =>
    rw [piecesFrom, List.mem_singleton] at h
    simpa [h] using hp
  | cons c cs ih =>
    rw [piecesFrom] at h
    split at h
    · rcases List.mem_cons.1 h with rfl | h
      · simpa using hp
      · exact ih h List.not_mem_nil
    · next hc =>
      have hne : '/' ≠ c := fun heq => hc (by rw [heq, beq_self_eq_true])
      exact ih h (List.not_mem_cons_of_ne_of_not_mem hne hp)

/-- A path that is read from a text is plain. -/
theorem plain_ofString (s : String) : (ofString s).Plain where
  root := by
    show rootOf s.toList = _ ∨ rootOf s.toList = _ ∨ rootOf s.toList = _
    unfold rootOf
    split
    · exact .inl rfl
    · exact .inr (.inr rfl)
    · exact .inr (.inl rfl)
  parts part h := by
    obtain ⟨hmem, hkeep⟩ := List.mem_filter.1 h
    have hslash := not_mem_slash_of_mem_piecesFrom hmem List.not_mem_nil
    simpa [hslash] using hkeep

/-- Joining paths keeps them plain. -/
theorem Plain.child {dir : Path} (h : dir.Plain) (s : String) : (dir.child s).Plain := by
  have hs := plain_ofString s
  unfold Path.child Path.join
  split
  · refine ⟨h.root, fun part hmem => ?_⟩
    exact (List.mem_append.1 hmem).elim (h.parts part) (hs.parts part)
  · exact hs

theorem piecesFrom_append {cs : List Char} (hcs : '/' ∉ cs) (piece rest : List Char) :
    piecesFrom piece (cs ++ rest) = piecesFrom (cs.reverse ++ piece) rest := by
  induction cs generalizing piece with
  | nil => rfl
  | cons c cs ih =>
    obtain ⟨hc, hcs⟩ := List.ne_and_not_mem_of_not_mem_cons hcs
    rw [List.cons_append, piecesFrom, if_neg (by simpa using Ne.symm hc), ih hcs]
    simp

/-- The names of a path are the pieces of the text that joins them with slashes. -/
theorem piecesFrom_intercalate {part : String} {parts : List String}
    (h : ∀ p ∈ part :: parts, '/' ∉ p.toList) :
    piecesFrom [] (List.intercalate ['/'] ((part :: parts).map String.toList))
      = part :: parts := by
  induction parts generalizing part with
  | nil =>
    have hpart := h part List.mem_cons_self
    have happend := piecesFrom_append hpart [] []
    rw [List.append_nil, List.append_nil] at happend
    rw [List.map_cons, List.map_nil, List.intercalate_singleton, happend, piecesFrom,
      List.reverse_reverse, String.ofList_toList]
  | cons next parts ih =>
    have hpart := h part List.mem_cons_self
    have hrest := ih fun p hp => h p (List.mem_cons_of_mem _ hp)
    rw [List.map_cons] at hrest
    rw [List.map_cons, List.map_cons, List.intercalate_cons_cons, List.append_assoc,
      piecesFrom_append hpart, List.singleton_append, piecesFrom, if_pos (by decide), hrest]
    simp

/-- Whatever is written after the slashes of a root, they are read as that root. -/
theorem rootOf_append {root : String} (hroot : root = "" ∨ root = "/" ∨ root = "//")
    {cs : List Char} (hcs : cs.head? ≠ some '/') : rootOf (root.toList ++ cs) = root := by
  have hstop : cs.takeWhile (· == '/') = [] := by
    cases cs with
    | nil => rfl
    | cons c cs => simpa [List.takeWhile_cons] using hcs
  have hslashes : ∀ c ∈ root.toList, (c == '/') = true := by
    rcases hroot with rfl | rfl | rfl <;> simp
  unfold rootOf
  rw [List.takeWhile_append_of_pos hslashes, hstop, List.append_nil]
  rcases hroot with rfl | rfl | rfl <;> rfl

/-- The slashes of a root are no names. -/
theorem filter_piecesFrom_append {root : String}
    (hroot : root = "" ∨ root = "/" ∨ root = "//") (cs : List Char) :
    (piecesFrom [] (root.toList ++ cs)).filter (fun p => !p.isEmpty && p != ".")
      = (piecesFrom [] cs).filter fun p => !p.isEmpty && p != "." := by
  rcases hroot with rfl | rfl | rfl <;> simp [piecesFrom]

/-- **A plain path reads back** from the text it is written as. -/
theorem Plain.ofString_toString {p : Path} (h : p.Plain) : ofString p.toString = p := by
  obtain ⟨root, parts⟩ := p
  cases parts with
  | nil =>
    -- without names the path is its root, and a dot if that is empty
    rcases h.root with hr | hr | hr <;> cases hr <;> decide +kernel
  | cons part parts =>
    have hslash : ∀ p ∈ part :: parts, '/' ∉ p.toList := fun p hp => (h.parts p hp).2.2
    have hparts : ∀ p ∈ part :: parts, (!p.isEmpty && p != ".") = true := fun p hp => by
      simpa using ⟨(h.parts p hp).1, (h.parts p hp).2.1⟩
    have htext : (toString ⟨root, part :: parts⟩).toList
        = root.toList ++ List.intercalate ['/'] ((part :: parts).map String.toList) := by
      rw [toString, if_neg (by simp), String.toList_append, String.toList_intercalate]
      rfl
    have hhead : (List.intercalate ['/'] ((part :: parts).map String.toList)).head?
        ≠ some '/' := by
      -- the text begins with the first name, which is neither empty nor has a slash
      obtain ⟨hne, -, hno⟩ := h.parts part List.mem_cons_self
      obtain ⟨c, cs, hcs⟩ := List.exists_cons_of_ne_nil (mt String.toList_eq_nil_iff.1 hne)
      rw [hcs, List.mem_cons, not_or] at hno
      cases parts with
      | nil => simpa [List.intercalate, hcs, eq_comm] using hno.1
      | cons next parts => simpa [List.intercalate, hcs, eq_comm] using hno.1
    unfold ofString
    rw [htext, rootOf_append h.root hhead, filter_piecesFrom_append h.root,
      piecesFrom_intercalate hslash, List.filter_eq_self.2 hparts]

end Path

/-! ## Directories of a tree -/

namespace FileTree

mutual

/-- The places of the directories of a tree. -/
def directoryPlaces : FileTree → List (List String)
  | file _ => []
  | directory es => [] :: directoryPlacesOf es

/-- The places of the directories at and below the entries of a directory. -/
def directoryPlacesOf : List (String × FileTree) → List (List String)
  | [] => []
  | (n, t) :: es => (directoryPlaces t).map (n :: ·) ++ directoryPlacesOf es

end

mutual

/-- Every directory has one place. -/
theorem length_directoryPlaces : (t : FileTree) →
    t.directoryPlaces.length = t.directoryCount
  | file _ => rfl
  | directory es => by
    rw [directoryPlaces, directoryCount, List.length_cons, length_directoryPlacesOf es]

theorem length_directoryPlacesOf : (es : List (String × FileTree)) →
    (directoryPlacesOf es).length = directoryCountOf es
  | [] => rfl
  | (_, t) :: es => by
    rw [directoryPlacesOf, directoryCountOf, List.length_append, List.length_map,
      length_directoryPlaces t, length_directoryPlacesOf es]

end

theorem mem_directoryPlacesOf {es : List (String × FileTree)} {n : String} {t : FileTree}
    {place : List String} (h : es.lookup n = some t) (hp : place ∈ t.directoryPlaces) :
    n :: place ∈ directoryPlacesOf es := by
  induction es with
  | nil => cases h
  | cons e es ih =>
    obtain ⟨m, u⟩ := e
    rw [List.lookup_cons] at h
    rw [directoryPlacesOf, List.mem_append]
    split at h
    · next heq =>
      cases h
      rw [eq_of_beq heq]
      exact .inl (List.mem_map_of_mem hp)
    · exact .inr (ih h)

/-- A directory that a sequence of plain names leads to is one of those of the tree. -/
theorem mem_directoryPlaces_of_at? {t u : FileTree} {place : List String}
    (h : t.at? place = some u) (hu : u.isDirectory = true) : place ∈ t.directoryPlaces := by
  induction place generalizing t with
  | nil =>
    cases h
    cases u with
    | file _ => cases hu
    | directory es => exact List.mem_cons_self
  | cons p place ih =>
    rw [at?, Option.bind_eq_some_iff] at h
    obtain ⟨e, he, h⟩ := h
    cases t with
    | file _ => cases he
    | directory es => exact List.mem_cons_of_mem _ (mem_directoryPlacesOf he (ih h))

/-! ## Everything below a tree -/

/-- **What a tree holds**: the names that lead from it to something below, one directory
after the other. A directory may have a name twice, and then both entries count. -/
inductive Holds : FileTree → List String → FileTree → Prop
  | entry {es : List (String × FileTree)} {n : String} {t : FileTree} (h : (n, t) ∈ es) :
      Holds (.directory es) [n] t
  | inner {es : List (String × FileTree)} {n : String} {t u : FileTree} {ps : List String}
      (h : (n, t) ∈ es) (hu : Holds t ps u) : Holds (.directory es) (n :: ps) u

theorem Holds.ne_nil {t u : FileTree} {ps : List String} (h : t.Holds ps u) : ps ≠ [] := by
  cases h <;> exact List.cons_ne_nil _ _

/-- What is below a directory: its entries, each with what is below it. -/
theorem descendants_directory (es : List (String × FileTree)) :
    (directory es).descendants
      = es.flatMap fun e => ([e.1], e.2) :: e.2.descendants.map fun x => (e.1 :: x.1, x.2) := by
  rw [descendants]
  induction es with
  | nil => rfl
  | cons e es ih => rw [descendantsOf, ih, List.flatMap_cons, List.cons_append]

/-- The descendants of a tree are what it holds. -/
theorem mem_descendants_iff {t u : FileTree} {ps : List String} :
    (ps, u) ∈ t.descendants ↔ t.Holds ps u := by
  constructor
  · intro h
    induction ps generalizing t with
    | nil =>
      cases t with
      | file bytes => cases h
      | directory es => simp [descendants_directory] at h
    | cons p ps ih =>
      cases t with
      | file bytes => cases h
      | directory es =>
        rw [descendants_directory, List.mem_flatMap] at h
        obtain ⟨⟨n, t⟩, hmem, h⟩ := h
        rcases List.mem_cons.1 h with h | h
        · cases h
          exact .entry hmem
        · obtain ⟨⟨ps', u'⟩, hx, heq⟩ := List.mem_map.1 h
          cases heq
          exact .inner hmem (ih hx)
  · intro h
    induction h with
    | entry h =>
      rw [descendants_directory]
      exact List.mem_flatMap.2 ⟨_, h, List.mem_cons_self⟩
    | inner h _ ih =>
      rw [descendants_directory]
      exact List.mem_flatMap.2 ⟨_, h, List.mem_cons_of_mem _ (List.mem_map_of_mem ih)⟩

end FileTree

namespace Disk

/-- The directories of a disk, each by its absolute path. -/
def directories (d : Disk) : List Path :=
  d.tree.directoryPlaces.map fun parts => { root := "/", parts := parts }

theorem length_directories (d : Disk) : d.directories.length = d.tree.directoryCount := by
  rw [directories, List.length_map, FileTree.length_directoryPlaces]

/-- One name leads where it would be settled to lead, if it leads anywhere. -/
theorem step_eq_settle {t : FileTree} {place place' : List String} {part : String}
    (h : step t place part = .ok place') (parts : List String) :
    Path.settle place.reverse (part :: parts) = Path.settle place'.reverse parts := by
  unfold step at h
  rw [Path.settle]
  split at h
  · cases h
  · cases h
  · split_ifs at h with hup hlong hin
    · cases h
      rw [if_pos hup, List.tail_reverse]
    · cases h
      rw [if_neg hup, List.reverse_append]
      rfl

/-- A path can be followed if no zero character stands in it and one name after the other leads
on. -/
theorem follow_eq_ok_iff {t : FileTree} {parts place : List String} :
    follow t parts = .ok place
      ↔ hasZero parts = false ∧ parts.foldlM (step t) [] = .ok place := by
  rw [follow]
  cases hasZero parts <;> simp

/-- Steps are made one after the other. -/
theorem foldlM_step_cons {t : FileTree} {start place parts : List String} {part : String} :
    (part :: parts).foldlM (step t) start = .ok place
      ↔ ∃ next, step t start part = .ok next ∧ parts.foldlM (step t) next = .ok place := by
  rw [List.foldlM_cons]
  cases hstep : step t start part with
  | error f => exact ⟨nofun, by rintro ⟨next, h, -⟩; cases h⟩
  | ok next => exact ⟨fun h => ⟨next, rfl, h⟩, by rintro ⟨next, h, hrest⟩; cases h; exact hrest⟩

/-- A path that can be followed leads to the place that it settles to. -/
theorem follow_eq_settle {t : FileTree} {parts place : List String}
    (h : follow t parts = .ok place) : place = Path.settle [] parts := by
  -- from any place on, not only from the root
  suffices hfold : ∀ start : List String, parts.foldlM (step t) start = .ok place →
      place = Path.settle start.reverse parts from hfold [] (follow_eq_ok_iff.1 h).2
  clear h
  intro start h
  induction parts generalizing start with
  | nil =>
    cases h
    rw [Path.settle, List.reverse_reverse]
  | cons part parts ih =>
    obtain ⟨next, hstep, hrest⟩ := foldlM_step_cons.1 h
    rw [step_eq_settle hstep]
    exact ih next hrest

/-- **A directory is known by its resolved path.** -/
theorem resolve_mem_directories {d : Disk} {p : Path} {t : FileTree} (h : d.find p = .ok t)
    (ht : t.isDirectory = true) : d.resolve p ∈ d.directories := by
  obtain ⟨place, hfollow, hat⟩ := exists_follow_of_find h
  have hplace : d.resolve p = { root := "/", parts := place } := by
    rw [follow_eq_settle hfollow]
    rfl
  rw [hplace]
  exact List.mem_map_of_mem (FileTree.mem_directoryPlaces_of_at? hat ht)

/-- There are no more distinct directories than the tree has. -/
theorem length_le_directoryCount {d : Disk} {ps : List Path} (hn : ps.Nodup)
    (hd : ∀ p ∈ ps, p ∈ d.directories) : ps.length ≤ d.tree.directoryCount := by
  rw [← d.length_directories]
  exact hn.length_le_of_subset hd

end Disk

end ComponentCatalog
