import ComponentCatalog.Proofs.OneFileEach

/-!
# What a command leaves as it was

A command may end in many places: when the log is routed, when the library or the configuration
is read, when documents are made or written, and while texts of the manual are fetched. What it
leaves alone is said of a part of a run however it ends (`Leaves`), and goes from part to part if
it is a `Frame`: something that records and the console do not break.

Two things follow. Texts of the manual are fetched when everything else has been done
(`GoesOn`), and whatever the web does then, no file whose name ends like that of a document is
changed. And a command that ends with a status has not begun to write (`NeverExits`), so it has
changed nothing but the log file, and has made no directories but those on the way to it
(`Disk.Passes`).
-/

namespace ComponentCatalog

open Text

/-! ## Directories on the way -/

namespace Path

/-- A settled path does not lead upwards. -/
theorem not_mem_settle {done : List String} (hdone : ".." ∉ done) (parts : List String) :
    ".." ∉ settle done parts := by
  induction parts generalizing done with
  | nil => simpa [settle] using hdone
  | cons part parts ih =>
    rw [settle]
    split
    · exact ih fun h => hdone (List.mem_of_mem_tail h)
    · next hne =>
      refine ih fun h => ?_
      obtain rfl | h := List.mem_cons.1 h
      · exact hne rfl
      · exact hdone h

/-- A path that does not lead upwards is settled. -/
theorem settle_of_not_mem {parts : List String} (h : ".." ∉ parts) (done : List String) :
    settle done parts = done.reverse ++ parts := by
  induction parts generalizing done with
  | nil => simp [settle]
  | cons part parts ih =>
    obtain ⟨hpart, hparts⟩ := not_or.1 (mt List.mem_cons.2 h)
    rw [settle, if_neg (by simpa using Ne.symm hpart), ih hparts, List.reverse_cons,
      List.append_assoc, List.singleton_append]

end Path

namespace Disk

open FileTree

/-- A path and what it resolves to lead to the same place. -/
theorem place_resolve (d : Disk) (p : Path) : d.place (d.resolve p) = d.place p := by
  have hjoin : d.fullParts (d.resolve p) = d.place p := by
    rw [fullParts, Path.join, if_neg (by simp [resolve, Path.resolve])]
    rfl
  have hup : ".." ∉ d.place p := Path.not_mem_settle List.not_mem_nil _
  rw [place_eq_settle, hjoin, Path.settle_of_not_mem hup, List.reverse_nil, List.nil_append]

/-- **A place that a path leads through.** -/
def Passes (d : Disk) (p : Path) (place : List String) : Prop :=
  ∃ way, way <+: d.fullParts p ∧ place = Path.settle [] way

/-- The way that is left goes on from where one more name leads. -/
theorem exists_way_cons {p : String} {ps done done' place : List String}
    (hstep : ∀ way, Path.settle done (p :: way) = Path.settle done' way)
    (h : ∃ way, way <+: ps ∧ place = Path.settle done' way) :
    ∃ way, way <+: p :: ps ∧ place = Path.settle done way := by
  obtain ⟨way, hway, rfl⟩ := h
  exact ⟨p :: way, List.cons_prefix_cons.2 ⟨rfl, hway⟩, (hstep way).symm⟩

/-- Directories are made on the way only. -/
theorem look_makeFrom_or_passed {t t' : FileTree} {start parts : List String}
    (h : makeFrom t start parts = .ok t') (place : List String) :
    t'.look place = t.look place ∨
      ∃ way, way <+: parts ∧ place = Path.settle start.reverse way := by
  fun_induction makeFrom t start parts with
  | case1 t start =>
    cases h
    exact .inl rfl
  | case2 t start p ps es hat hup ih =>
    refine (ih h).imp_right (exists_way_cons fun way => ?_)
    rw [Path.settle, if_pos hup, List.tail_reverse]
  | case3 t start p ps es hat hup es' hlookup ih =>
    refine (ih h).imp_right (exists_way_cons fun way => ?_)
    rw [Path.settle, if_neg hup, List.reverse_concat]
  | case4 => cases h
  | case5 => cases h
  | case6 t start p ps es hat hup hlookup hshort ih =>
    -- the directory that is made is on the way itself, and those below it come later
    have hput : (t.put (.directory []) (start ++ [p])).look place =
        if place = start ++ [p] then some none else t.look place :=
      look_put hat (fun u hu => absurd (hu.symm.trans hlookup) (Option.some_ne_none u)) rfl place
    by_cases hplace : place = start ++ [p]
    · refine .inr ⟨[p], List.cons_prefix_cons.2 ⟨rfl, List.nil_prefix⟩, ?_⟩
      rw [hplace, Path.settle, if_neg hup, Path.settle, List.reverse_cons, List.reverse_reverse]
    · rw [if_neg hplace] at hput
      refine (ih h).imp (fun hrest => hrest.trans hput) (exists_way_cons fun way => ?_)
      rw [Path.settle, if_neg hup, List.reverse_concat]
  | case7 => cases h
  | case8 => cases h

/-- **What stands where after directories have been made**: a directory where the path leads
through and nothing was, and everything else as before. -/
theorem look_makeDirectories {d d' : Disk} {p : Path} (h : d.makeDirectories p = .ok d')
    (place : List String) :
    d'.tree.look place = d.tree.look place ∨
      d.tree.look place = none ∧ d'.tree.look place = some none ∧ d.Passes p place := by
  obtain ⟨t, ht, rfl⟩ := exists_makeFrom h
  obtain hsame | ⟨hnone, hmade⟩ := look_makeFrom ht place
  · exact .inl hsame
  · refine (look_makeFrom_or_passed ht place).imp_right fun hpassed => ⟨hnone, hmade, ?_⟩
    rwa [List.reverse_nil] at hpassed

/-- **A directory is left as it was**, except that a path may have made directories in it that it
leads through. -/
def LeavesAlone (dir : List String) (log? : Option Path) (d d' : Disk) : Prop :=
  ∀ place, dir <+: place → d'.tree.look place = d.tree.look place ∨
    d.tree.look place = none ∧ d'.tree.look place = some none ∧
      ∃ file ∈ log?, d.Passes file.parent place

end Disk

/-! ## Frames -/

namespace Log.Outlets

/-- **What records and the console do not break**, and goes from one part of a run to the next. -/
structure Frame (P : Outlets → Outlets → Prop) : Prop where
  refl : ∀ o, P o o
  trans : ∀ {o o' o''}, P o o' → P o' o'' → P o o''
  console : ∀ o text, P o { o with console := text }
  sendAll : ∀ o rs, P o (o.sendAll rs)

/-- Only the log file and files at some places have changed. -/
def KeptBut (w : List String → Prop) (o o' : Outlets) : Prop :=
  Kept (fun place => o.IsLog place ∨ w place) o o'

/-- To keep all but some files goes from one part of a run to the next. -/
theorem frame_keptBut (w : List String → Prop) : Frame (KeptBut w) where
  refl o := .refl o
  trans h h' := Kept.trans h (h'.mono fun place => .imp_left (h.isLog_iff place).1)
  console _ _ := ⟨.refl _, rfl⟩
  sendAll o rs := (o.kept_sendAll rs).mono fun _ => .inl

/-- **Nothing but the log file has changed**, and no directories have been made. -/
structure Silent (o o' : Outlets) : Prop where
  cwd : o'.disk.cwd = o.disk.cwd
  routing : o'.routing = o.routing
  look : ∀ place, ¬o.IsLog place → o'.disk.tree.look place = o.disk.tree.look place

namespace Silent

variable {o o' o'' : Outlets}

theorem refl (o : Outlets) : Silent o o :=
  ⟨rfl, rfl, fun _ _ => rfl⟩

theorem isLog_iff (h : Silent o o') (place : List String) : o'.IsLog place ↔ o.IsLog place := by
  simp only [IsLog, h.routing, Disk.place, Disk.resolve, h.cwd]

theorem trans (h : Silent o o') (h' : Silent o' o'') : Silent o o'' where
  cwd := h'.cwd.trans h.cwd
  routing := h'.routing.trans h.routing
  look place hplace :=
    (h'.look place (mt (h.isLog_iff place).1 hplace)).trans (h.look place hplace)

end Silent

theorem silent_display (o : Outlets) (r : Record) : Silent o (o.display r) := by
  unfold display
  split
  · exact ⟨rfl, rfl, fun _ _ => rfl⟩
  · exact .refl o

theorem silent_append (o : Outlets) (r : Record) : Silent o (o.append r) := by
  unfold append
  split
  · exact .refl o
  · next file hfile =>
    split
    · next disk hdisk =>
      refine ⟨(Disk.changed_updateFile hdisk).cwd, rfl, fun place hplace => ?_⟩
      exact (Disk.look_of_updateFile hdisk place).trans (if_neg fun h => hplace ⟨file, hfile, h⟩)
    · exact .refl o

/-- A record changes the log file only. -/
theorem silent_send (o : Outlets) (r : Record) : Silent o (o.send r) := by
  unfold send
  split
  · exact (o.silent_display r).trans ((o.display r).silent_append r)
  · exact .refl o

/-- To be silent goes from one part of a run to the next. -/
theorem frame_silent : Frame Silent where
  refl := .refl
  trans := .trans
  console _ _ := ⟨rfl, rfl, fun _ _ => rfl⟩
  sendAll o rs := by
    unfold sendAll
    induction rs generalizing o with
    | nil => exact .refl o
    | cons r rs ih => exact (o.silent_send r).trans (ih (o.send r))

/-- The log file that records go to is the one that was asked for. -/
theorem Routed.exists_of_isLog {o o' : Outlets} {logFile? : Option Path}
    (h : Routed logFile? o o') {place : List String} (hlog : o'.IsLog place) :
    ∃ file ∈ logFile?, place = o.disk.place file := by
  obtain ⟨file, hfile, rfl⟩ := hlog
  rw [h.file?_eq] at hfile
  obtain ⟨path, hpath, rfl⟩ := Option.mem_map.1 hfile
  exact ⟨path, hpath, by rw [h.changed.place, Disk.place_resolve]⟩

/-- Routing the log makes the directories on the way to the log file. -/
theorem look_configure {o o' : Outlets} {verbose : Bool} {logFile? : Option Path}
    (h : o.configure verbose logFile? = (none, o')) {place : List String}
    (hplace : ∀ file ∈ logFile?, place ≠ o.disk.place file) :
    o'.disk.tree.look place = o.disk.tree.look place ∨
      o.disk.tree.look place = none ∧ o'.disk.tree.look place = some none ∧
        ∃ file ∈ logFile?, o.disk.Passes file.parent place := by
  unfold configure at h
  cases logFile? with
  | none =>
    cases h
    exact .inl rfl
  | some path =>
    dsimp only at h
    split at h
    · next o₁ hopen =>
      cases h
      obtain ⟨d, d', hmake, hupdate, rfl⟩ := exists_of_openFile hopen
      have hlog : place ≠ d.place (d.resolve path) := by
        rw [d.place_resolve, (Disk.changed_makeDirectories hmake).place]
        exact hplace path rfl
      have hlook := (Disk.look_of_updateFile hupdate place).trans (if_neg hlog)
      dsimp only
      rw [hlook]
      exact (Disk.look_makeDirectories hmake place).imp_right fun ⟨hnone, hmade, hpasses⟩ =>
        ⟨hnone, hmade, path, rfl, hpasses⟩
    · cases h

end Log.Outlets

namespace Command

open Log.Outlets Output

/-- A part of a run ends early. -/
def Ends {α : Type} (x : Run α) (h : Host) (e : Ending) (h' : Host) : Prop :=
  x.run.run h = (.error e, h')

/-- **A run ends early** where its first part does, or where its second part does after the first
has ended well. -/
theorem ends_bind {α β : Type} {x : Run α} {f : α → Run β} {h h' : Host} {e : Ending} :
    Ends (x >>= f) h e h' ↔
      Ends x h e h' ∨ ∃ a h₁, Yields x h a h₁ ∧ Ends (f a) h₁ e h' := by
  unfold Ends Yields
  rw [ExceptT.run_bind, StateT.run_bind]
  rcases x.run.run h with ⟨e' | a, h₁⟩
  · constructor
    · intro hend
      have hend : (Except.error e', h₁) = ((Except.error e, h') : Except Ending β × Host) := hend
      cases hend
      exact .inl rfl
    · rintro (hend | ⟨a, h₂, hyields, -⟩)
      · cases hend
        rfl
      · cases hyields
  · constructor
    · exact fun hend => .inr ⟨a, h₁, rfl, hend⟩
    · rintro (hend | ⟨a', h₂, hyields, hend⟩)
      · cases hend
      · cases hyields
        exact hend

/-- A change that cannot be made changes nothing. -/
theorem eq_of_ends_change {f : Disk → Except PathFault Disk} {h h' : Host} {e : Ending}
    (hend : Ends (change f) h e h') : h' = h := by
  unfold change at hend
  obtain hend | ⟨_, h₁, hget, hend⟩ := ends_bind.1 hend
  · cases hend
  obtain ⟨rfl, rfl⟩ := yields_get.1 hget
  split at hend
  · cases hend
  · cases hend
    rfl

/-- **However a part of a run ends**, the outlets are related to those before. -/
def Leaves {α : Type} (P : Log.Outlets → Log.Outlets → Prop) (x : Run α) : Prop :=
  ∀ h : Host, P h.toOutlets (x.run.run h).2.toOutlets

section Leaves

variable {α β : Type} {P : Log.Outlets → Log.Outlets → Prop}

/-- What a run leaves holds where it ends well. -/
theorem Leaves.of_yields {x : Run α} (hx : Leaves P x) {h h' : Host} {a : α}
    (hy : Yields x h a h') : P h.toOutlets h'.toOutlets := by
  have hleaves := hx h
  rwa [show x.run.run h = (.ok a, h') from hy] at hleaves

/-- What a run leaves holds where it ends early, too. -/
theorem Leaves.of_ends {x : Run α} (hx : Leaves P x) {h h' : Host} {e : Ending}
    (hend : Ends x h e h') : P h.toOutlets h'.toOutlets := by
  have hleaves := hx h
  rwa [show x.run.run h = (.error e, h') from hend] at hleaves

/-- Of the second part of a run only what it does after the first matters. -/
theorem leaves_bind_of (hP : Frame P) {x : Run α} {f : α → Run β} (hx : Leaves P x)
    (hf : ∀ a h h', Yields x h a h' → Leaves P (f a)) : Leaves P (x >>= f) := by
  intro h
  have hfirst := hx h
  rw [ExceptT.run_bind, StateT.run_bind]
  rcases hrun : x.run.run h with ⟨e | a, h₁⟩ <;> rw [hrun] at hfirst
  · exact hfirst
  · exact hP.trans hfirst (hf a h h₁ hrun h₁)

/-- A frame that both parts leave is left by the run. -/
theorem leaves_bind (hP : Frame P) {x : Run α} {f : α → Run β} (hx : Leaves P x)
    (hf : ∀ a, Leaves P (f a)) : Leaves P (x >>= f) :=
  leaves_bind_of hP hx fun a _ _ _ => hf a

theorem leaves_pure (hP : Frame P) (a : α) : Leaves P (pure a) :=
  fun h => hP.refl h.toOutlets

theorem leaves_throw (hP : Frame P) (e : Ending) : Leaves P (throw e : Run α) :=
  fun h => hP.refl h.toOutlets

theorem leaves_get (hP : Frame P) : Leaves P (get : Run Host) :=
  fun h => hP.refl h.toOutlets

theorem leaves_sendAll (hP : Frame P) (rs : List Log.Record) : Leaves P (sendAll rs) :=
  fun h => hP.sendAll h.toOutlets rs

theorem leaves_print (hP : Frame P) (line : String) : Leaves P (print line) :=
  fun h => hP.refl h.toOutlets

theorem leaves_exit (hP : Frame P) (code : Nat) (message : String) :
    Leaves P (exit code message : Run α) :=
  leaves_bind hP (fun h => hP.console h.toOutlets _) fun _ => leaves_throw hP _

/-- Files are changed if the change can be made. -/
theorem leaves_change (hP : Frame P) {f : Disk → Except PathFault Disk}
    (hf : ∀ (o : Log.Outlets) disk, f o.disk = .ok disk → P o { o with disk := disk }) :
    Leaves P (change f) := by
  intro h
  rcases hrun : (change f).run.run h with ⟨e | _, h'⟩
  · rw [eq_of_ends_change hrun]
    exact hP.refl h.toOutlets
  · obtain ⟨disk, hdisk, rfl⟩ := yields_change.1 hrun
    exact hf h.toOutlets disk hdisk

/-- Computing with a library sends records and nothing else. -/
theorem leaves_catalog (hP : Frame P) (session : Session) (x : Catalog α) :
    Leaves P (catalog session x) := by
  unfold catalog
  refine leaves_bind hP (leaves_sendAll hP _) fun _ => ?_
  split
  · exact leaves_pure hP _
  · exact leaves_throw hP _

/-- Visiting the web sends records and nothing else. -/
theorem leaves_visit (hP : Frame P) (x : Manual.Fetch α) : Leaves P (visit x) := by
  unfold visit
  refine leaves_bind hP (leaves_sendAll hP _) fun _ => ?_
  refine leaves_bind hP (fun h => hP.refl h.toOutlets) fun _ => ?_
  split
  · exact leaves_pure hP _
  · exact leaves_throw hP _

theorem leaves_configuration (hP : Frame P) (s : Settings) : Leaves P (configuration s) := by
  unfold configuration
  refine leaves_bind hP (leaves_get hP) fun _ => ?_
  dsimp only
  split
  · exact leaves_pure hP _
  · split
    · exact leaves_exit hP _ _
    · exact leaves_throw hP _

/-- **Making documents is a matter of records and messages.** -/
theorem leaves_documents (hP : Frame P) (l : Library) (s : Settings) :
    Leaves P (documents l s) := by
  have hone (name : String) : Leaves P (oneDocument l name) := by
    unfold oneDocument
    refine leaves_bind hP (leaves_catalog hP _ _) fun found => ?_
    dsimp only
    split
    · exact leaves_exit hP _ _
    · refine leaves_bind hP (leaves_catalog hP _ _) fun made => ?_
      split
      · exact leaves_pure hP _
      · exact leaves_exit hP _ _
  unfold documents
  split
  · exact leaves_bind hP (leaves_catalog hP _ _) fun _ => leaves_pure hP _
  · exact leaves_bind hP (hone _) fun _ => leaves_pure hP _

/-- A frame that saving each document leaves is left by all of them. -/
theorem leaves_writeEach (hP : Frame P) {dir : Path} {docs : List Document}
    (hsave : ∀ doc ∈ docs, ∀ (o : Log.Outlets) disk, saveDocument o.disk dir doc none = .ok disk →
      P o { o with disk := disk }) : Leaves P (writeEach dir docs) := by
  induction docs with
  | nil => exact leaves_pure hP ()
  | cons doc docs ih =>
    obtain ⟨hfirst, hrest⟩ := List.forall_mem_cons.1 hsave
    rw [writeEach]
    exact leaves_bind hP (leaves_change hP hfirst) fun _ =>
      leaves_bind hP (leaves_sendAll hP _) fun _ => ih hrest

/-- A frame that saving each text of the manual leaves is left by all of them. -/
theorem leaves_writeManual (hP : Frame P) {dir : Path}
    (hsave : ∀ (o : Log.Outlets) name text disk, saveManual o.disk dir name text = .ok disk →
      P o { o with disk := disk }) (texts : List (String × String)) :
    Leaves P (writeManual dir texts) := by
  induction texts with
  | nil => exact leaves_pure hP ()
  | cons entry texts ih =>
    obtain ⟨name, text⟩ := entry
    rw [writeManual]
    exact leaves_bind hP (leaves_change hP fun o disk => hsave o name text disk) fun _ => ih

/-- It is left by fetching these texts and then writing them. -/
theorem leaves_fetchManual (hP : Frame P) {dir : Path}
    (hsave : ∀ (o : Log.Outlets) name text disk, saveManual o.disk dir name text = .ok disk →
      P o { o with disk := disk })
    (web : Manual.Web) (settings : ManualSettings) (docs : List Document) :
    Leaves P (fetchManual web settings dir docs) := by
  unfold fetchManual
  exact leaves_bind hP (leaves_visit hP _) fun _ =>
    leaves_bind hP (leaves_writeManual hP hsave _) fun _ => leaves_print hP _

end Leaves

/-- Whatever is written, records go where they went. -/
theorem leaves_generate (web : Manual.Web) (l : Library) (s : Settings) :
    Leaves (KeptBut fun _ => True) (generate web l s) := by
  have hP := frame_keptBut fun _ => True
  have hchanged {w : List String → Prop} {o : Log.Outlets} {disk : Disk}
      (h : Disk.Changed w o.disk disk) : KeptBut (fun _ => True) o { o with disk := disk } :=
    ⟨h.mono fun _ _ => .inr trivial, rfl⟩
  have hwrite (dir : Path) (docs : List Document) :
      Leaves (KeptBut fun _ => True) (writeDocuments s dir docs) := by
    unfold writeDocuments
    refine leaves_bind hP (leaves_get hP) fun _ => ?_
    dsimp only
    split
    · exact leaves_bind hP (leaves_change hP fun o disk hsave => hchanged (writeText_spec hsave).1)
        fun _ => leaves_bind hP (leaves_sendAll hP _) fun _ => leaves_print hP _
    · exact leaves_bind hP (leaves_writeEach hP fun doc _ o disk hsave =>
        hchanged (saved_of_saveDocument hsave).kept.disk) fun _ => leaves_print hP _
  unfold generate
  refine leaves_bind hP (leaves_get hP) fun _ => ?_
  refine leaves_bind hP (leaves_documents hP l s) fun docs => ?_
  refine leaves_bind hP (hwrite _ docs) fun _ => ?_
  split
  · exact leaves_fetchManual hP (fun o name text disk hsave => hchanged (writeText_spec hsave).1)
      web _ docs
  · exact leaves_pure hP ()

/-! ## Texts of the manual come last -/

/-- A place whose last name ends like that of the file of a document. -/
def IsJson (place : List String) : Prop :=
  ∃ stem, place.getLast? = some (stem ++ ".json")

/-- A text of the manual is no JSON file. -/
theorem not_isJson_manualPath (d : Disk) (dir : Path) (name : String) :
    ¬IsJson (d.place (manualPath dir name)) := by
  rintro ⟨stem, hstem⟩
  obtain ⟨stem', hstem'⟩ := d.exists_place_child isEnding_manualSuffix dir name
  rw [manualPath, hstem', Option.some.injEq] at hstem
  have hlast := congrArg (fun s : String => s.toList.getLast?) hstem
  simp [manualSuffix, List.getLast?_append] at hlast

/-- **Fetching texts of the manual changes no JSON file**, whatever the web answers. -/
theorem leaves_fetchManual_json (web : Manual.Web) (settings : ManualSettings) (dir : Path)
    (docs : List Document) :
    Leaves (KeptBut fun place => ¬IsJson place) (fetchManual web settings dir docs) := by
  refine leaves_fetchManual (frame_keptBut _) (fun o name text disk hsave => ?_) web settings docs
  refine ⟨(writeText_spec hsave).1.mono fun place hplace => .inr ?_, rfl⟩
  rw [hplace]
  exact not_isJson_manualPath o.disk dir name

/-- **One run goes on where another one has ended well**, and ends where that one ends early. -/
def GoesOn (more : Run Unit → Prop) (x y : Run Unit) : Prop :=
  ∀ h, (∃ e h', Ends y h e h' ∧ Ends x h e h') ∨
    ∃ h' z, Yields y h () h' ∧ more z ∧ x.run.run h = z.run.run h'

section GoesOn

variable {α : Type} {more : Run Unit → Prop}

/-- Runs with the same first part go on alike if their second parts do. -/
theorem goesOn_bind {x : Run α} {f g : α → Run Unit} (hfg : ∀ a, GoesOn more (f a) (g a)) :
    GoesOn more (x >>= f) (x >>= g) := by
  intro h
  unfold Ends Yields
  rw [ExceptT.run_bind, StateT.run_bind, ExceptT.run_bind, StateT.run_bind]
  rcases x.run.run h with ⟨e | a, h₁⟩
  · exact .inl ⟨e, h₁, rfl, rfl⟩
  · exact hfg a h₁

theorem goesOn_pure {x : Run Unit} (hx : more x) : GoesOn more x (pure ()) :=
  fun h => .inr ⟨h, x, rfl, hx, rfl⟩

/-- A run that never ends well is its own continuation. -/
theorem goesOn_of_not_yields {x : Run Unit} (hx : ∀ h a h', ¬Yields x h a h') :
    GoesOn more x x := by
  intro h
  rcases hrun : x.run.run h with ⟨e | a, h'⟩
  · exact .inl ⟨e, h', hrun, hrun⟩
  · exact absurd hrun (hx h a h')

end GoesOn

/-- A part of a run that fetches texts of the manual. -/
def Fetches (web : Manual.Web) (x : Run Unit) : Prop :=
  ∃ settings dir docs, x = fetchManual web settings dir docs

/-- A command with the manual does all that it does without it, and then fetches texts. -/
theorem goesOn_perform (web web' : Manual.Web) (s : Settings) :
    GoesOn (Fetches web) (perform web .generate { s with fetchDocs := true })
      (perform web' .generate { s with fetchDocs := false }) := by
  have hgenerate (l : Library) : GoesOn (Fetches web) (generate web l { s with fetchDocs := true })
      (generate web' l { s with fetchDocs := false }) :=
    goesOn_bind fun h => goesOn_bind fun docs => goesOn_bind fun _ => goesOn_pure ⟨_, _, docs, rfl⟩
  refine goesOn_bind fun _ => goesOn_bind fun h => goesOn_bind fun h' => ?_
  dsimp only
  split
  · exact goesOn_of_not_yields fun _ _ _ => yields_throw
  · exact goesOn_of_not_yields fun _ _ _ => yields_exit
  · exact goesOn_bind fun config => goesOn_bind fun _ => hgenerate _

section Run

variable {web : Manual.Web} {words : List String} {task : Task} {s : Settings} {d : Disk}
  {h : Host} {e : Ending}

theorem carryOut_eq (hparse : parse words = .ok (task, s)) :
    carryOut web words = perform web task s := by
  unfold carryOut
  rw [hparse]

/-- A run ends well exactly if its command does. -/
theorem run_eq_none_iff (hparse : parse words = .ok (task, s)) :
    run web words d = (none, h) ↔ Yields (perform web task s) { disk := d } () h := by
  rw [← carryOut_eq hparse]
  refine ⟨yields_of_run, fun hy => ?_⟩
  have hy : (carryOut web words).run { disk := d } = (.ok (), h) := hy
  rw [run, hy]

/-- A run ends early exactly if its command does, with the same ending. -/
theorem run_eq_some_iff (hparse : parse words = .ok (task, s)) :
    run web words d = (some e, h) ↔ Ends (perform web task s) { disk := d } e h := by
  rw [← carryOut_eq hparse]
  constructor
  · intro hrun
    unfold run at hrun
    split at hrun
    · cases hrun
    · next hend =>
      cases hrun
      exact hend
  · intro he
    have he : (carryOut web words).run { disk := d } = (.error e, h) := he
    rw [run, he]

end Run

/-- **The run with the manual** is the run without it if that one ends early, and otherwise goes
on from where that one ends. -/
theorem run_fetchDocs (web web' : Manual.Web) {words words' : List String} {s : Settings}
    (hparse : parse words = .ok (.generate, { s with fetchDocs := true }))
    (hparse' : parse words' = .ok (.generate, { s with fetchDocs := false })) (d : Disk) :
    (run web' words' d).1 ≠ none ∧ run web words d = run web' words' d ∨
      ∃ h z, run web' words' d = (none, h) ∧ Fetches web z ∧
        (run web words d).2 = (z.run.run h).2 := by
  obtain ⟨e, h, hends', hends⟩ | ⟨h, z, hyields, hz, hgoes⟩ :=
    goesOn_perform web web' s { disk := d }
  · left
    rw [(run_eq_some_iff hparse').2 hends', (run_eq_some_iff hparse).2 hends]
    exact ⟨nofun, rfl⟩
  · refine .inr ⟨h, z, (run_eq_none_iff hparse').2 hyields, hz, ?_⟩
    rcases hrun : z.run.run h with ⟨e | _, h'⟩ <;> rw [hrun] at hgoes
    · rw [(run_eq_some_iff hparse).2 hgoes]
    · rw [(run_eq_none_iff hparse).2 hgoes]

/-! ## Commands that end with a status -/

/-- **A part of a run that does not end with a status.** -/
def NeverExits {α : Type} (x : Run α) : Prop :=
  ∀ h code h', ¬Ends x h (.status code) h'

section NeverExits

variable {α β : Type}

/-- Parts that never exit do not exit together. -/
theorem neverExits_bind {x : Run α} {f : α → Run β} (hx : NeverExits x)
    (hf : ∀ a, NeverExits (f a)) : NeverExits (x >>= f) := by
  intro h code h' hend
  obtain hend | ⟨a, h₁, -, hend⟩ := ends_bind.1 hend
  · exact hx h code h' hend
  · exact hf a h₁ code h' hend

theorem neverExits_pure (a : α) : NeverExits (pure a) :=
  fun _ _ _ hend => by cases hend

theorem neverExits_failure (f : Failure) : NeverExits (throw (.failure f) : Run α) :=
  fun _ _ _ hend => by cases hend

theorem neverExits_get : NeverExits (get : Run Host) :=
  fun _ _ _ hend => by cases hend

theorem neverExits_set (h : Host) : NeverExits (set h : Run Unit) :=
  fun _ _ _ hend => by cases hend

theorem neverExits_modify (f : Host → Host) : NeverExits (modify f : Run Unit) :=
  fun _ _ _ hend => by cases hend

theorem neverExits_change (f : Disk → Except PathFault Disk) : NeverExits (change f) := by
  unfold change
  refine neverExits_bind neverExits_get fun h => ?_
  split
  · exact neverExits_set _
  · exact neverExits_failure _

theorem neverExits_visit (x : Manual.Fetch α) : NeverExits (visit x) := by
  unfold visit
  refine neverExits_bind (neverExits_modify _) fun _ =>
    neverExits_bind (neverExits_modify _) fun _ => ?_
  split
  · exact neverExits_pure _
  · exact neverExits_failure _

theorem neverExits_routeLog (s : Settings) : NeverExits (routeLog s) := by
  unfold routeLog
  refine neverExits_bind neverExits_get fun h => neverExits_bind (neverExits_set _) fun _ => ?_
  split
  · exact neverExits_failure _
  · exact neverExits_pure _

theorem neverExits_writeEach (dir : Path) (docs : List Document) :
    NeverExits (writeEach dir docs) := by
  induction docs with
  | nil => exact neverExits_pure ()
  | cons doc docs ih =>
    rw [writeEach]
    exact neverExits_bind (neverExits_change _) fun _ =>
      neverExits_bind (neverExits_modify _) fun _ => ih

/-- Writing documents fails or ends well, and exits with no status. -/
theorem neverExits_writeDocuments (s : Settings) (dir : Path) (docs : List Document) :
    NeverExits (writeDocuments s dir docs) := by
  unfold writeDocuments
  refine neverExits_bind neverExits_get fun _ => ?_
  dsimp only
  split
  · exact neverExits_bind (neverExits_change _) fun _ =>
      neverExits_bind (neverExits_modify _) fun _ => neverExits_modify _
  · exact neverExits_bind (neverExits_writeEach dir docs) fun _ => neverExits_modify _

theorem neverExits_writeManual (dir : Path) (texts : List (String × String)) :
    NeverExits (writeManual dir texts) := by
  induction texts with
  | nil => exact neverExits_pure ()
  | cons entry texts ih =>
    obtain ⟨name, text⟩ := entry
    rw [writeManual]
    exact neverExits_bind (neverExits_change _) fun _ => ih

/-- Fetching texts of the manual fails or ends well, and exits with no status. -/
theorem neverExits_fetchManual (web : Manual.Web) (settings : ManualSettings) (dir : Path)
    (docs : List Document) : NeverExits (fetchManual web settings dir docs) := by
  unfold fetchManual
  exact neverExits_bind (neverExits_visit _) fun _ =>
    neverExits_bind (neverExits_writeManual dir _) fun _ => neverExits_modify _

end NeverExits

section Status

variable {web : Manual.Web} {s : Settings} {h h' : Host} {code : Nat}

/-- What ends a generation with a status is the making of documents. -/
theorem silent_of_ends_generate {l : Library} (hend : Ends (generate web l s) h (.status code) h') :
    Silent h.toOutlets h'.toOutlets := by
  unfold generate at hend
  obtain hend | ⟨_, h₁, hget, hend⟩ := ends_bind.1 hend
  · exact absurd hend (neverExits_get _ _ _)
  obtain ⟨rfl, rfl⟩ := yields_get.1 hget
  obtain hend | ⟨docs, h₂, -, hend⟩ := ends_bind.1 hend
  · exact (leaves_documents frame_silent l s).of_ends hend
  · refine absurd hend (neverExits_bind (neverExits_writeDocuments s _ docs) (fun _ => ?_) _ _ _)
    split
    · exact neverExits_fetchManual web _ _ docs
    · exact neverExits_pure ()

/-- **A command that ends with a status has routed the log**, and from then on it has changed
nothing but the log file. -/
theorem exists_of_ends_perform (hend : Ends (perform web .generate s) h (.status code) h') :
    ∃ h₁, Yields (routeLog s) h () h₁ ∧ Silent h₁.toOutlets h'.toOutlets := by
  unfold perform at hend
  obtain hend | ⟨_, h₁, hroute, hend⟩ := ends_bind.1 hend
  · exact absurd hend (neverExits_routeLog s _ _ _)
  refine ⟨h₁, hroute, ?_⟩
  obtain hend | ⟨_, h₂, hget, hend⟩ := ends_bind.1 hend
  · exact absurd hend (neverExits_get _ _ _)
  obtain ⟨rfl, rfl⟩ := yields_get.1 hget
  obtain hend | ⟨_, h₂, hget, hend⟩ := ends_bind.1 hend
  · exact absurd hend (neverExits_get _ _ _)
  obtain ⟨rfl, rfl⟩ := yields_get.1 hget
  -- of the three answers to whether there is a library, two can end with a status
  split at hend
  · exact absurd hend (neverExits_failure _ _ _ _)
  · exact (leaves_exit frame_silent _ _).of_ends hend
  · obtain hend | ⟨config, h₂, hconfig, hend⟩ := ends_bind.1 hend
    · exact (leaves_configuration frame_silent s).of_ends hend
    obtain ⟨rfl, -⟩ := yields_configuration.1 hconfig
    obtain hend | ⟨_, h₃, hget, hend⟩ := ends_bind.1 hend
    · exact absurd hend (neverExits_get _ _ _)
    obtain ⟨rfl, rfl⟩ := yields_get.1 hget
    exact silent_of_ends_generate hend

/-- A directory that the log file does not lie in is left alone. -/
theorem leavesAlone_of_run {words : List String} {d : Disk}
    (hparse : parse words = .ok (.generate, s))
    (hrun : (run web words d).1 = some (.status code)) {dir : List String}
    (hlog : ∀ file ∈ s.logFile?, ¬dir <+: d.place file) :
    d.LeavesAlone dir s.logFile? (run web words d).2.disk := by
  obtain ⟨h₁, hroute, hsilent⟩ :=
    exists_of_ends_perform ((run_eq_some_iff hparse).1 (Prod.fst_eq_iff.1 hrun))
  have hconfigure := (yields_routeLog.1 hroute).1
  intro place hplace
  have helsewhere (file : Path) (hfile : file ∈ s.logFile?) : place ≠ d.place file := by
    rintro rfl
    exact hlog file hfile hplace
  rw [hsilent.look place fun hislog => ?_]
  · exact look_configure hconfigure helsewhere
  · obtain ⟨file, hfile, hequal⟩ := (routed_configure hconfigure).exists_of_isLog hislog
    exact helsewhere file hfile hequal

/-- When a command has ended well, records go to the log file that was asked for. -/
theorem exists_of_isLog_run {words : List String} {d : Disk}
    (hparse : parse words = .ok (.generate, s)) (hrun : run web words d = (none, h))
    {place : List String} (hislog : h.toOutlets.IsLog place) :
    ∃ file ∈ s.logFile?, place = d.place file := by
  obtain ⟨h₀, l, hreads, hy⟩ := exists_reads_of_run hparse hrun
  have hkept := (leaves_generate web l s).of_yields hy
  exact (routed_configure hreads.routed).exists_of_isLog ((hkept.isLog_iff place).1 hislog)

end Status

/-- **Fetching texts of the manual keeps the documents, and a command that is refused keeps the
directory.** If the log file does not lie in the output directory, the JSON files there are the
same with the manual and without it, whatever the web does; where the run without it ends early,
the run with it is no other. A run that ends with the status of a refusal leaves the output
directory as it was, except for directories that the path of the log file leads through. -/
theorem generate_keeps_json (web web' : Manual.Web) {words words' : List String} (d : Disk)
    {s : Settings} (hparse : parse words = .ok (.generate, { s with fetchDocs := true }))
    (hparse' : parse words' = .ok (.generate, { s with fetchDocs := false }))
    (hlog : ∀ file ∈ s.logFile?, ¬d.place (argumentPath d s.output) <+: d.place file) :
    (∀ place, d.place (argumentPath d s.output) <+: place → IsJson place →
        (run web words d).2.disk.content? place = (run web' words' d).2.disk.content? place) ∧
      ((run web' words' d).1 ≠ none → run web words d = run web' words' d) ∧
      ((run web words d).1 = some (.status 1) →
        d.LeavesAlone (d.place (argumentPath d s.output)) s.logFile? (run web words d).2.disk) ∧
      ((run web' words' d).1 = some (.status 1) →
        d.LeavesAlone (d.place (argumentPath d s.output)) s.logFile?
          (run web' words' d).2.disk) := by
  have hruns := run_fetchDocs web web' hparse hparse' d
  refine ⟨fun place hinside hjson => ?_, fun hearly => ?_,
    fun hend => leavesAlone_of_run hparse hend hlog,
    fun hend => leavesAlone_of_run hparse' hend hlog⟩
  · obtain ⟨-, hsame⟩ | ⟨h, z, hrun, ⟨settings, dir, docs, rfl⟩, hafter⟩ := hruns
    · rw [hsame]
    · have hkept := leaves_fetchManual_json web settings dir docs h
      rw [hafter, hrun]
      refine hkept.disk.kept place ?_
      rintro (hislog | hother)
      · obtain ⟨file, hfile, rfl⟩ := exists_of_isLog_run hparse' hrun hislog
        exact hlog file hfile hinside
      · exact hother hjson
  · obtain ⟨-, hsame⟩ | ⟨h, z, hrun, -⟩ := hruns
    · exact hsame
    · exact absurd (congrArg Prod.fst hrun) hearly

/-- Every request fails in a way that nothing expects. -/
def refusing : Manual.Web := fun _ => .raised "refused"

/-- A command on a library that does not exist. -/
def astrayWords : List String := ["generate", "--all", "-l", "no", "-o", "components"]

def astraySettings : Settings := { all := true, library := "no", output := "components" }

theorem generate_keeps_json_refusing :
    (run refusing (eachWords ++ ["--fetch-docs"]) (withAlias "tabs")).1 =
        some (.failure (.manual (.raised "refused"))) ∧
      (∃ bytes,
        (run refusing (eachWords ++ ["--fetch-docs"]) (withAlias "tabs")).2.disk.content?
          ["out", "tabs.json"] = some bytes ∧
        (run offline eachWords (withAlias "tabs")).2.disk.content? ["out", "tabs.json"] =
          some bytes) ∧
      (run refusing (astrayWords ++ ["--fetch-docs"]) (withAlias "tabs")).1 = some (.status 1) ∧
      ∀ place, ["components"] <+: place →
        (run refusing (astrayWords ++ ["--fetch-docs"]) (withAlias "tabs")).2.disk.tree.look place =
          (withAlias "tabs").tree.look place := by
  have hparse : parse (eachWords ++ ["--fetch-docs"]) =
      .ok (.generate, { eachSettings with fetchDocs := true }) := by decide
  have hastray : parse astrayWords =
      .ok (.generate, { astraySettings with fetchDocs := false }) := by decide
  have hastray' : parse (astrayWords ++ ["--fetch-docs"]) =
      .ok (.generate, { astraySettings with fetchDocs := true }) := by decide
  obtain ⟨hsame, -⟩ := generate_keeps_json (s := eachSettings) refusing offline (withAlias "tabs")
    hparse parse_eachWords nofun
  obtain ⟨-, -, halone, -⟩ := generate_keeps_json (s := astraySettings) refusing offline
    (withAlias "tabs") hastray' hastray nofun
  have hout : (withAlias "tabs").place (argumentPath (withAlias "tabs") eachSettings.output) =
      ["out"] := by decide
  have hin : (withAlias "tabs").place (argumentPath (withAlias "tabs") astraySettings.output) =
      ["components"] := by decide
  rw [hout] at hsame
  rw [hin] at halone
  have hfailed : (run refusing (eachWords ++ ["--fetch-docs"]) (withAlias "tabs")).1 =
      some (.failure (.manual (.raised "refused"))) := by decide +kernel
  have hrefused : (run refusing (astrayWords ++ ["--fetch-docs"]) (withAlias "tabs")).1 =
      some (.status 1) := by decide
  have hwritten : ((run offline eachWords (withAlias "tabs")).2.disk.content?
      ["out", "tabs.json"]).isSome = true := by decide +kernel
  obtain ⟨bytes, hbytes⟩ := Option.isSome_iff_exists.1 hwritten
  have hequal := hsame ["out", "tabs.json"] (List.prefix_append ["out"] ["tabs.json"]) ⟨"tabs", rfl⟩
  refine ⟨hfailed, ⟨bytes, hequal.trans hbytes, hbytes⟩, hrefused, fun place hplace => ?_⟩
  obtain hlook | ⟨-, -, file, hfile, -⟩ := halone hrefused place hplace
  · exact hlook
  · cases hfile

/-- Such a command whose log file is outside of the output directory, but is written as a path
through it. -/
def detourWords : List String :=
  ["generate", "--all", "-l", "no", "-o", "out", "--log-file", "out/x/../../run.log"]

def detourSettings : Settings :=
  { all := true, library := "no", output := "out",
    logFile? := some (.ofString "out/x/../../run.log") }

/-- **A command that is refused does not leave the output directory exactly as it was**: the
directories that the path of a log file leads through are made, also where the file itself is
elsewhere. -/
theorem refused_run_makes_directories :
    parse detourWords = .ok (.generate, detourSettings) ∧
      (withAlias "tabs").place (argumentPath (withAlias "tabs") detourSettings.output) = ["out"] ∧
      (∀ file ∈ detourSettings.logFile?, ¬["out"] <+: (withAlias "tabs").place file) ∧
      (run offline detourWords (withAlias "tabs")).1 = some (.status 1) ∧
      ((withAlias "tabs").tree.look ["out"] = none ∧
        (withAlias "tabs").tree.look ["out", "x"] = none) ∧
      (run offline detourWords (withAlias "tabs")).2.disk.tree.look ["out"] = some none ∧
      (run offline detourWords (withAlias "tabs")).2.disk.tree.look ["out", "x"] = some none := by
  decide

end Command

end ComponentCatalog
