import ComponentCatalog.Proofs.Untouched

/-!
# What can be written later can be written before

Writing a file can fail, and whether it does depends on what has been written before: a directory
may be missing, or a name may be taken. Of a document that has been written after other ones it
can be said that it could have been written without them. Directories that could be made late can
be made early, since what is missing then is made as well (`makeFrom_of_grows`), and after they
have been made the way to them is free (`exists_foldlM_of_makeFrom`). What is no directory
later was none before.

The tree at the earlier time need not be one that the later tree comes from. It is enough that
whatever stands in it stands in the later tree as well (`FileTree.Grows`), so records in a log
file make no difference (`grows_sendAll_back`).
-/

namespace ComponentCatalog

open Text

namespace FileTree

/-- What stands under a name of a directory. -/
theorem look_concat {t : FileTree} {dir : List String} {es : List (String × FileTree)}
    (h : t.at? dir = some (.directory es)) (name : String) :
    t.look (dir ++ [name]) = (es.lookup name).map bytes? := by
  rw [look_append, h, Option.bind_some, look_cons, entries_directory]
  cases es.lookup name <;> rfl

theorem look_concat_eq_directory {t : FileTree} {dir : List String}
    {es es' : List (String × FileTree)} {name : String} (h : t.at? dir = some (.directory es))
    (hname : es.lookup name = some (.directory es')) : t.look (dir ++ [name]) = some none := by
  rw [look_concat h, hname]
  rfl

/-- What a directory lies in is a directory. -/
theorem look_dropLast {t : FileTree} {place : List String} (h : t.look place = some none) :
    t.look place.dropLast = some none := by
  rcases List.eq_nil_or_concat' place with rfl | ⟨dir, name, rfl⟩
  · exact h
  · rw [List.dropLast_concat]
    rw [look_append] at h
    obtain ⟨u, hu, hlook⟩ := Option.bind_eq_some_iff.1 h
    cases u with
    | file b => cases hlook
    | directory es => exact look_eq_directory.2 ⟨es, hu⟩

theorem look_nil_of_look {t : FileTree} {place : List String} (h : t.look place = some none) :
    t.look [] = some none := by
  cases t with
  | file b =>
    cases place with
    | nil => exact h
    | cons p place => cases h
  | directory es => rfl

end FileTree

namespace Disk

open FileTree

/-! ## Making directories -/

/-- Making directories takes nothing away. -/
theorem grows_of_makeFrom {t t' : FileTree} {start parts : List String}
    (h : makeFrom t start parts = .ok t') : t.Grows t' := by
  intro place k hk
  obtain hsame | ⟨hnone, -⟩ := look_makeFrom h place
  · rw [hsame, hk]
  · rw [hnone] at hk
    cases hk

section Put

variable {t u : FileTree} {start : List String} {p : String} {es : List (String × FileTree)}

/-- A directory is put where nothing was. -/
theorem look_put_directory (hat : t.at? start = some (.directory es)) (hnone : es.lookup p = none)
    (place : List String) :
    (t.put (.directory []) (start ++ [p])).look place =
      if place = start ++ [p] then some none else t.look place :=
  look_put hat (fun e he => absurd (he.symm.trans hnone) (Option.some_ne_none e)) rfl place

theorem grows_put (hat : t.at? start = some (.directory es)) (hnone : es.lookup p = none) :
    t.Grows (t.put (.directory []) (start ++ [p])) := by
  intro place k hk
  rw [look_put_directory hat hnone, if_neg, hk]
  rintro rfl
  rw [look_concat hat, hnone] at hk
  cases hk

/-- A directory that is put where another tree has one. -/
theorem put_grows (h : t.Grows u) (hat : t.at? start = some (.directory es))
    (hnone : es.lookup p = none) (hu : u.look (start ++ [p]) = some none) :
    (t.put (.directory []) (start ++ [p])).Grows u := by
  intro place k hk
  rw [look_put_directory hat hnone] at hk
  split_ifs at hk with hplace
  · rw [hplace, hu]
    exact hk
  · exact h place k hk

end Put

section MakeFrom

variable {t u u' : FileTree} {start ps : List String} {p : String}
  {es es' : List (String × FileTree)}

/-- A directory that is there is passed through. -/
theorem makeFrom_cons_of_directory (hat : t.at? start = some (.directory es))
    (hup : ¬(p == "..") = true) (hlookup : es.lookup p = some (.directory es')) :
    makeFrom t start (p :: ps) = makeFrom t (start ++ [p]) ps := by
  rw [makeFrom, hat]
  dsimp only
  rw [if_neg hup, hlookup]

/-- One that is not there is made. -/
theorem makeFrom_cons_of_none (hat : t.at? start = some (.directory es))
    (hup : ¬(p == "..") = true) (hlookup : es.lookup p = none)
    (hshort : p.utf8ByteSize ≤ nameLimit) :
    makeFrom t start (p :: ps) =
      makeFrom (t.put (.directory []) (start ++ [p])) (start ++ [p]) ps := by
  rw [makeFrom, hat]
  dsimp only
  rw [if_neg hup, hlookup]
  dsimp only
  rw [if_neg (Nat.not_lt.2 hshort)]

/-- Directories that are made where another tree has one already, or has made one. -/
theorem makeFrom_cons_of_grows (h : t.Grows u) (hstart : t.look start = some none)
    (hup : ¬(p == "..") = true) (hshort : p.utf8ByteSize ≤ nameLimit)
    (hu : u.look (start ++ [p]) = some none)
    (hrest : ∀ t, t.Grows u → t.look (start ++ [p]) = some none →
      ∃ t', makeFrom t (start ++ [p]) ps = .ok t' ∧ t'.Grows u') :
    ∃ t', makeFrom t start (p :: ps) = .ok t' ∧ t'.Grows u' := by
  obtain ⟨es, hat⟩ := look_eq_directory.1 hstart
  rcases hlookup : es.lookup p with _ | ⟨b⟩ | es'
  · rw [makeFrom_cons_of_none hat hup hlookup hshort]
    refine hrest _ (put_grows h hat hlookup hu) ?_
    rw [look_put_directory hat hlookup, if_pos rfl]
  · -- a file would still be there
    have hfile := h (start ++ [p]) true (by rw [look_concat hat, hlookup]; rfl)
    rw [hu] at hfile
    cases hfile
  · rw [makeFrom_cons_of_directory hat hup hlookup]
    exact hrest t h (look_concat_eq_directory hat hlookup)

end MakeFrom

/-- **Directories that can be made later can be made before**, if no name on the way is too
long. -/
theorem makeFrom_of_grows {t u u' : FileTree} {start parts : List String} (h : t.Grows u)
    (hstart : t.look start = some none) (hshort : ∀ p ∈ parts, p.utf8ByteSize ≤ nameLimit)
    (hmake : makeFrom u start parts = .ok u') :
    ∃ t', makeFrom t start parts = .ok t' ∧ t'.Grows u' := by
  fun_induction makeFrom u start parts generalizing t with
  | case1 u start =>
    cases hmake
    exact ⟨t, rfl, h⟩
  | case2 u start p ps es hat hup ih =>
    obtain ⟨es', hat'⟩ := look_eq_directory.1 hstart
    obtain ⟨t', ht', hgrows⟩ :=
      ih h (look_dropLast hstart) (fun q hq => hshort q (.tail _ hq)) hmake
    refine ⟨t', ?_, hgrows⟩
    rw [makeFrom, hat']
    dsimp only
    rwa [if_pos hup]
  | case3 u start p ps es hat hup es' hlookup ih =>
    refine makeFrom_cons_of_grows h hstart hup (hshort p (.head _))
      (look_concat_eq_directory hat hlookup) fun t ht hnext => ?_
    exact ih ht hnext (fun q hq => hshort q (.tail _ hq)) hmake
  | case4 => cases hmake
  | case5 => cases hmake
  | case6 u start p ps es hat hup hlookup hlong ih =>
    -- the later tree is the one that its directory has been put into
    refine makeFrom_cons_of_grows (h.trans (grows_put hat hlookup)) hstart hup
      (hshort p (.head _)) ?_ fun t ht hnext => ?_
    · rw [look_put_directory hat hlookup, if_pos rfl]
    · exact ih ht hnext (fun q hq => hshort q (.tail _ hq)) hmake
  | case7 => cases hmake
  | case8 => cases hmake

/-- A step leads into a directory that is there. -/
theorem step_eq_concat {t : FileTree} {start : List String} {p : String}
    (hup : ¬(p == "..") = true) (hshort : p.utf8ByteSize ≤ nameLimit)
    (hstart : t.look start = some none) (hnext : t.look (start ++ [p]) = some none) :
    step t start p = .ok (start ++ [p]) :=
  step_eq_ok.2 ⟨hstart, .inr ⟨by simpa using hup, hshort, by rw [hnext]; rfl, rfl⟩⟩

/-- **After directories have been made the way to them is free.** -/
theorem exists_foldlM_of_makeFrom {t t' : FileTree} {start parts : List String}
    (hstart : t.look start = some none) (hshort : ∀ p ∈ parts, p.utf8ByteSize ≤ nameLimit)
    (hmake : makeFrom t start parts = .ok t') :
    ∃ place, parts.foldlM (step t') start = .ok place ∧ t'.look place = some none := by
  fun_induction makeFrom t start parts with
  | case1 t start =>
    cases hmake
    exact ⟨start, rfl, hstart⟩
  | case2 t start p ps es hat hup ih =>
    have hstep : step t' start p = .ok start.dropLast :=
      step_eq_ok.2 ⟨(grows_of_makeFrom hmake).directory hstart, .inl ⟨by simpa using hup, rfl⟩⟩
    rw [List.foldlM_cons, hstep]
    exact ih (look_dropLast hstart) (fun q hq => hshort q (.tail _ hq)) hmake
  | case3 t start p ps es hat hup es' hlookup ih =>
    have hgrows := grows_of_makeFrom hmake
    have hnext := look_concat_eq_directory hat hlookup
    rw [List.foldlM_cons, step_eq_concat hup (hshort p (.head _)) (hgrows.directory hstart)
      (hgrows.directory hnext)]
    exact ih hnext (fun q hq => hshort q (.tail _ hq)) hmake
  | case4 => cases hmake
  | case5 => cases hmake
  | case6 t start p ps es hat hup hlookup hlong ih =>
    -- the directory that is made here stays while the others are made
    have hgrows := grows_of_makeFrom hmake
    have hnext : (t.put (.directory []) (start ++ [p])).look (start ++ [p]) = some none := by
      rw [look_put_directory hat hlookup, if_pos rfl]
    have hstart' := hgrows.directory ((grows_put hat hlookup).directory hstart)
    rw [List.foldlM_cons, step_eq_concat hup (hshort p (.head _)) hstart' (hgrows.directory hnext)]
    exact ih hnext (fun q hq => hshort q (.tail _ hq)) hmake
  | case7 => cases hmake
  | case8 => cases hmake

/-! ## Writing a file -/

/-- Names on a way that can be followed are not too long. -/
theorem short_of_follow {t : FileTree} {parts place : List String}
    (h : follow t parts = .ok place) : ∀ p ∈ parts, p.utf8ByteSize ≤ nameLimit := by
  suffices hfold : ∀ start : List String, parts.foldlM (step t) start = .ok place →
      ∀ p ∈ parts, p.utf8ByteSize ≤ nameLimit from hfold [] (follow_eq_ok_iff.1 h).2
  clear h
  intro start h
  induction parts generalizing start with
  | nil => exact fun p hp => absurd hp List.not_mem_nil
  | cons part parts ih =>
    obtain ⟨next, hstep, hrest⟩ := foldlM_step_cons.1 h
    refine List.forall_mem_cons.2 ⟨?_, ih next hrest⟩
    obtain ⟨-, ⟨rfl, -⟩ | ⟨-, hshort, -⟩⟩ := step_eq_ok.1 hstep
    · decide
    · exact hshort

/-- Directories are made if the path can be looked up and nothing is in the way. -/
theorem makeDirectories_eq_ok {d d' : Disk} {p : Path} :
    d.makeDirectories p = .ok d' ↔ d.isTooLong p = false ∧ hasZero (d.fullParts p) = false ∧
      ∃ t, makeFrom d.tree [] (d.fullParts p) = .ok t ∧ { d with tree := t } = d' := by
  constructor
  · intro h
    refine ⟨Bool.eq_false_iff.2 fun hlong => ?_, Bool.eq_false_iff.2 fun hzero => ?_,
      exists_makeFrom h⟩
    · rw [makeDirectories, if_pos hlong] at h
      cases h
    · rw [makeDirectories, if_neg (by simp [isTooLong, hzero]), if_pos hzero] at h
      cases h
  · rintro ⟨hlong, hzero, t, ht, rfl⟩
    rw [makeDirectories, if_neg (by simp [hlong]), if_neg (by simp [hzero]), ht]
    rfl

/-- An entry of a directory that has been made. -/
theorem entry_below {d : Disk} {dir : Path} {name : String} {inner : List String}
    (hshort : d.isTooLong (dir.below name) = false)
    (hzero : hasZero (d.fullParts (dir.below name)) = false)
    (hfollow : follow d.tree (d.fullParts dir) = .ok inner) (hdir : d.tree.look inner = some none)
    (hup : name ≠ "..") (hname : name.utf8ByteSize ≤ nameLimit) :
    d.Entry (dir.below name) inner name where
  short := hshort
  noZero := hzero
  last := by rw [fullParts_below, List.getLast?_concat]
  follow := by rw [fullParts_below, List.dropLast_concat, hfollow]
  directory := hdir
  ne_up := hup
  name_short := hname

/-- **A file that can be written later can be written before**, and so can the directory it is
written into be made. -/
theorem exists_writeText_of_grows {d later after : Disk} (hcwd : later.cwd = d.cwd)
    (hgrows : d.tree.Grows later.tree) {dir : Path} {name text : String}
    (h : Output.writeText later dir (dir.below name) text = .ok after) :
    ∃ d', Output.writeText d dir (dir.below name) text = .ok d' := by
  have hparts (p : Path) : later.fullParts p = d.fullParts p := by rw [fullParts, fullParts, hcwd]
  unfold Output.writeText at h
  cases hmake : later.makeDirectories dir with
  | error f =>
    rw [hmake] at h
    cases h
  | ok made =>
    rw [hmake] at h
    obtain ⟨hlong, hzero, u, hu, rfl⟩ := makeDirectories_eq_ok.1 hmake
    obtain ⟨inner, n, hentry, hfile, -⟩ := updateFile_eq_ok.1 h
    have hlast : name = n := by simpa [fullParts_below] using hentry.last
    have hfollow : follow u (d.fullParts dir) = .ok inner := by
      have hfollow := hentry.follow
      rw [fullParts_below, List.dropLast_concat] at hfollow
      rw [← hparts]
      exact hfollow
    have hshort := short_of_follow hfollow
    -- where there is a directory now, the root has always been one
    have hroot : d.tree.look [] = some none := by
      have hkind := (grows_of_makeFrom hu) [] _ (hgrows [] d.tree.bytes?.isSome rfl)
      rw [look_nil_of_look hentry.directory] at hkind
      have hnone : d.tree.bytes? = none :=
        Option.not_isSome_iff_eq_none.1 (by rw [← Option.some.inj hkind]; decide)
      rw [look_nil, hnone]
    rw [hparts] at hu hzero
    obtain ⟨t, ht, htu⟩ := makeFrom_of_grows hgrows hroot hshort hu
    obtain ⟨place, hfold, hplace⟩ := exists_foldlM_of_makeFrom hroot hshort ht
    have hfollow' : follow t (d.fullParts dir) = .ok place := follow_eq_ok_iff.2 ⟨hzero, hfold⟩
    obtain rfl : inner = place :=
      (follow_eq_settle hfollow).trans (follow_eq_settle hfollow').symm
    subst hlast
    have hmade : d.makeDirectories dir = .ok { d with tree := t } := by
      refine makeDirectories_eq_ok.2 ⟨?_, hzero, t, ht, rfl⟩
      rwa [isTooLong, hparts, ← isTooLong] at hlong
    have hwritable : Entry { d with tree := t } (dir.below name) inner name := by
      refine entry_below ?_ ?_ hfollow' hplace hentry.ne_up hentry.name_short
      · have hshort := hentry.short
        rwa [isTooLong, show fullParts { later with tree := u } _ = _ from hparts _] at hshort
      · rw [← hentry.noZero]
        exact congrArg hasZero (hparts _).symm
    have hfree : t.look (inner ++ [name]) ≠ some none := fun hdir => hfile (htu.directory hdir)
    obtain ⟨d', hwrite⟩ : ∃ d', updateFile { d with tree := t } (dir.below name)
        (fun _ => encode text) = .ok d' :=
      ⟨_, updateFile_eq_ok.2 ⟨inner, name, hwritable, hfree, rfl⟩⟩
    refine ⟨d', ?_⟩
    rw [Output.writeText, hmade]
    exact hwrite

end Disk

/-- **A document that can be saved later can be saved before.** -/
theorem Output.exists_saveDocument_of_grows {d later after : Disk} (hcwd : later.cwd = d.cwd)
    (hgrows : d.tree.Grows later.tree) {dir : Path} {doc : Document}
    (hslash : '/' ∉ doc.name.toList) (h : saveDocument later dir doc none = .ok after) :
    ∃ d', saveDocument d dir doc none = .ok d' := by
  obtain ⟨later', hwrite, -⟩ := exists_of_saveDocument h
  obtain ⟨hempty, hdot, -⟩ := isEnding_json.append_ne doc.name
  have hpath : documentPath dir doc.name = dir.below (doc.name ++ ".json") := by
    refine Path.child_eq_below dir hempty hdot ?_
    rw [String.toList_append, List.mem_append, not_or]
    exact ⟨hslash, isEnding_json.slash⟩
  rw [hpath] at hwrite
  obtain ⟨d', hd'⟩ := Disk.exists_writeText_of_grows hcwd hgrows hwrite
  refine ⟨d', ?_⟩
  rw [saveDocument, hpath, hd']
  rfl

/-- Records do not bring up anything but what stands there already. -/
theorem Log.Outlets.grows_sendAll_back {o : Log.Outlets} (ho : o.Ready) (rs : List Log.Record) :
    (o.sendAll rs).disk.tree.Grows o.disk.tree := by
  intro place k hk
  by_cases hlog : o.IsLog place
  · -- the log file is a file before and after
    obtain ⟨file, hfile, rfl⟩ := hlog
    obtain ⟨-, dir, name, hentry, hcontent⟩ := ho file hfile
    rw [← hentry.place_eq] at hcontent
    have hafter := (o.kept_sendAll rs).disk.isSome_content? hcontent
    rw [Disk.isSome_content?_iff] at hcontent hafter
    rw [hcontent, ← hk, hafter]
  · rwa [(frame_silent.sendAll o rs).look place hlog] at hk

end ComponentCatalog
