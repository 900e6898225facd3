import ComponentCatalog.Command.Run
import ComponentCatalog.Proofs.Files

/-!
# What a run leaves alone

A run sends log records, and with a log file every record is appended to it. Apart from that, a
part of a run changes only the files that it is there to write: this is said by `Outlets.Kept`,
which goes from part to part. In particular a record changes nothing but the log file
(`kept_sendAll`), and a log file that has been opened goes on to take records (`Outlets.Ready`).

A part of a run that ends well is one that `Yields` something. A sequence of parts does if each
of them does (`yields_bind`), which takes a run apart into its steps.
-/

namespace ComponentCatalog

open Text

namespace Log.Outlets

/-- Whether a place is that of the log file. -/
def IsLog (o : Outlets) (place : List String) : Prop :=
  ∃ file ∈ o.routing.file?, place = o.disk.place file

/-- **Records go where they went, and only some files have changed.** -/
structure Kept (written : List String → Prop) (o o' : Outlets) : Prop where
  disk : Disk.Changed written o.disk o'.disk
  routing : o'.routing = o.routing

namespace Kept

variable {w w' : List String → Prop} {o o' o'' : Outlets}

theorem refl (o : Outlets) : Kept w o o :=
  ⟨.refl _, rfl⟩

/-- Changes one after the other are kept. -/
theorem trans (h : Kept w o o') (h' : Kept w o' o'') : Kept w o o'' :=
  ⟨h.disk.trans h'.disk, h'.routing.trans h.routing⟩

theorem mono (h : Kept w o o') (hw : ∀ place, w place → w' place) : Kept w' o o' :=
  ⟨h.disk.mono hw, h.routing⟩

/-- The log file stays the log file. -/
theorem isLog_iff (h : Kept w o o') (place : List String) : o'.IsLog place ↔ o.IsLog place := by
  simp only [IsLog, h.routing, h.disk.place]

end Kept

theorem kept_display (o : Outlets) (r : Record) : Kept o.IsLog o (o.display r) := by
  unfold display
  split
  · exact ⟨.refl _, rfl⟩
  · exact .refl o

theorem kept_append (o : Outlets) (r : Record) : Kept o.IsLog o (o.append r) := by
  unfold append
  split
  · exact .refl o
  · next file hfile =>
    split
    · next disk hdisk =>
      exact ⟨(Disk.changed_updateFile hdisk).mono fun place hplace => ⟨file, hfile, hplace⟩, rfl⟩
    · exact .refl o

/-- A record goes to the log file and to no other. -/
theorem kept_send (o : Outlets) (r : Record) : Kept o.IsLog o (o.send r) := by
  unfold send
  split
  · have hdisplay := o.kept_display r
    have happend := (o.display r).kept_append r
    exact hdisplay.trans (happend.mono fun place => (hdisplay.isLog_iff place).1)
  · exact .refl o

/-- **Records change nothing but the log file.** -/
theorem kept_sendAll (o : Outlets) (rs : List Record) : Kept o.IsLog o (o.sendAll rs) := by
  unfold sendAll
  induction rs generalizing o with
  | nil => exact .refl o
  | cons r rs ih =>
    have hsend := o.kept_send r
    exact hsend.trans ((ih (o.send r)).mono fun place => (hsend.isLog_iff place).1)

/-- **A log file that is open takes every record**: it is there, and records of every level go
to it. -/
def Ready (o : Outlets) : Prop :=
  ∀ file ∈ o.routing.file?, o.routing.threshold = .debug ∧
    ∃ dir name, o.disk.Entry file dir name ∧ (o.disk.content? (dir ++ [name])).isSome

/-- A log file that is ready stays so. -/
theorem Kept.ready {w : List String → Prop} {o o' : Outlets} (h : Kept w o o') (ho : o.Ready) :
    o'.Ready := by
  intro file hfile
  rw [h.routing] at hfile ⊢
  obtain ⟨hthreshold, dir, name, hentry, hcontent⟩ := ho file hfile
  exact ⟨hthreshold, dir, name, h.disk.entry hentry, h.disk.isSome_content? hcontent⟩

/-- A record is added at the end of the log file. -/
theorem content?_send {o : Outlets} (ho : o.Ready) {place : List String} (hplace : o.IsLog place)
    (r : Record) :
    (o.send r).disk.content? place =
      some ((o.disk.content? place).getD [] ++ encode r.fileLine) := by
  obtain ⟨file, hfile, rfl⟩ := hplace
  obtain ⟨hthreshold, dir, name, hentry, hcontent⟩ := ho file hfile
  have hreaches : r.level.reaches o.routing.threshold = true := by
    rw [hthreshold]
    exact decide_eq_true r.level.least
  have hdisk : (o.display r).disk = o.disk := by
    unfold display
    split <;> rfl
  have hrouting : (o.display r).routing = o.routing := (o.kept_display r).routing
  -- a file stands at the place, so no directory does
  have hfree : o.disk.tree.look (dir ++ [name]) ≠ some none := by
    intro hdirectory
    simp [Disk.content?, hdirectory] at hcontent
  obtain ⟨disk, hupdate⟩ : ∃ disk,
      o.disk.updateFile file (fun bytes => bytes ++ encode r.fileLine) = .ok disk :=
    ⟨_, Disk.updateFile_eq_ok.2 ⟨dir, name, hentry, hfree, rfl⟩⟩
  have hsend : (o.send r).disk = disk := by
    rw [send, if_pos hreaches, append, hrouting, Option.mem_def.1 hfile]
    simp only [hdisk, hupdate]
  rw [hsend, Disk.content?, Disk.look_of_updateFile hupdate, if_pos rfl]
  rfl

theorem exists_of_openFile {o o' : Outlets} {path : Path} (h : o.openFile path = .ok o') :
    ∃ d d', o.disk.makeDirectories path.parent = .ok d ∧ d.updateFile (d.resolve path) id = .ok d' ∧
      o' = { o with disk := d', routing := { o.routing with file? := some (d.resolve path) } } := by
  unfold openFile at h
  cases hmake : o.disk.makeDirectories path.parent with
  | error f =>
    rw [hmake] at h
    cases h
  | ok d =>
    rw [hmake] at h
    cases hupdate : d.updateFile (d.resolve path) id with
    | error f =>
      simp only [bind, Except.bind, hupdate] at h
      cases h
    | ok d' =>
      simp only [bind, Except.bind, hupdate] at h
      cases h
      exact ⟨d, d', rfl, hupdate, rfl⟩

/-- What routing records anew does: the log file is the one that is asked for, it takes records,
and no other file has changed. -/
structure Routed (logFile? : Option Path) (o o' : Outlets) : Prop where
  file?_eq : o'.routing.file? = logFile?.map o.disk.resolve
  ready : o'.Ready
  changed : Disk.Changed o'.IsLog o.disk o'.disk

/-- Opening a log file leaves it ready for records. -/
theorem routed_openFile {o o' : Outlets} {path : Path} (h : o.openFile path = .ok o')
    (hthreshold : o.routing.threshold = .debug) : Routed (some path) o o' := by
  obtain ⟨d, d', hmake, hupdate, rfl⟩ := exists_of_openFile h
  have hmade := Disk.changed_makeDirectories hmake
  have hupdated := Disk.changed_updateFile hupdate
  obtain ⟨dir, name, hentry, -⟩ := Disk.updateFile_eq_ok.1 hupdate
  refine ⟨?_, ?_, ?_⟩
  · rw [Option.map_some, Disk.resolve, Disk.resolve, hmade.cwd]
  · intro file hfile
    cases hfile
    refine ⟨hthreshold, dir, name, hupdated.entry hentry, ?_⟩
    rw [Disk.content?, Disk.look_of_updateFile hupdate, if_pos hentry.place_eq.symm]
    rfl
  · exact (hmade.mono fun _ hnone => hnone.elim).trans (hupdated.mono fun place hplace =>
      ⟨_, rfl, hplace.trans (hupdated.place _).symm⟩)

/-- Routing the log opens its file and changes nothing else. -/
theorem routed_configure {o o' : Outlets} {verbose : Bool} {logFile? : Option Path}
    (h : o.configure verbose logFile? = (none, o')) : Routed logFile? o o' := by
  unfold configure at h
  cases logFile? with
  | none =>
    cases h
    exact ⟨rfl, fun file hfile => absurd hfile (Option.not_mem_none file), .refl _⟩
  | some path =>
    dsimp only at h
    split at h
    · next o₁ hopen =>
      cases h
      obtain ⟨hfile, hready, hchanged⟩ := routed_openFile hopen rfl
      exact ⟨hfile, hready, hchanged⟩
    · cases h

end Log.Outlets

namespace Command

/-- A part of a run ends well. -/
def Yields {α : Type} (x : Run α) (h : Host) (a : α) (h' : Host) : Prop :=
  x.run.run h = (.ok a, h')

section Yields

variable {α β : Type} {h h' : Host}

/-- A run ends well exactly if both of its parts do. -/
theorem yields_bind {x : Run α} {f : α → Run β} {b : β} :
    Yields (x >>= f) h b h' ↔ ∃ a h₁, Yields x h a h₁ ∧ Yields (f a) h₁ b h' := by
  unfold Yields
  rw [ExceptT.run_bind, StateT.run_bind]
  rcases hx : x.run.run h with ⟨e | a, h₁⟩
  · refine ⟨fun hend => ?_, ?_⟩
    · have hend : (Except.error e, h₁) = (Except.ok b, h') := hend
      cases hend
    · rintro ⟨a, h₂, hyields, -⟩
      cases hyields
  · refine ⟨fun hend => ⟨a, h₁, rfl, hend⟩, ?_⟩
    rintro ⟨a', h₂, hyields, hend⟩
    cases hyields
    exact hend

theorem yields_pure {a b : α} : Yields (pure a) h b h' ↔ a = b ∧ h = h' := by
  show (Except.ok a, h) = (Except.ok b, h') ↔ _
  simp only [Prod.mk.injEq, Except.ok.injEq]

theorem yields_throw {e : Ending} {b : α} : ¬Yields (throw e : Run α) h b h' :=
  nofun

theorem yields_get {a : Host} : Yields get h a h' ↔ h = a ∧ h = h' := by
  show (Except.ok h, h) = (Except.ok a, h') ↔ _
  simp only [Prod.mk.injEq, Except.ok.injEq]

theorem yields_set {h₁ : Host} {u : Unit} : Yields (set h₁) h u h' ↔ h₁ = h' := by
  show (Except.ok (), h₁) = (Except.ok u, h') ↔ _
  simp only [Prod.mk.injEq, true_and]

theorem yields_modify {f : Host → Host} {u : Unit} :
    Yields (modify f : Run Unit) h u h' ↔ f h = h' := by
  show (Except.ok (), f h) = (Except.ok u, h') ↔ _
  simp only [Prod.mk.injEq, true_and]

theorem yields_sendAll {rs : List Log.Record} {u : Unit} :
    Yields (sendAll rs) h u h' ↔ { h with toOutlets := h.toOutlets.sendAll rs } = h' :=
  yields_modify

/-- Files are changed as the change says, if it can be made. -/
theorem yields_change {f : Disk → Except PathFault Disk} {u : Unit} :
    Yields (change f) h u h' ↔ ∃ disk, f h.disk = .ok disk ∧ { h with disk := disk } = h' := by
  unfold change
  rw [yields_bind]
  simp only [yields_get]
  constructor
  · rintro ⟨a, h₁, ⟨rfl, rfl⟩, hend⟩
    cases hf : f h.disk with
    | error e =>
      rw [hf] at hend
      exact absurd hend yields_throw
    | ok disk =>
      rw [hf] at hend
      exact ⟨disk, rfl, yields_set.1 hend⟩
  · rintro ⟨disk, hf, rfl⟩
    refine ⟨h, h, ⟨rfl, rfl⟩, ?_⟩
    rw [hf]
    exact yields_set.2 rfl

/-- Printing a line writes no record and no file. -/
theorem toOutlets_of_yields_print {line : String} {u : Unit} (hy : Yields (print line) h u h') :
    h'.toOutlets = h.toOutlets := by
  cases yields_modify.1 hy
  rfl

/-- Fetching pages of the manual changes nothing but the log file. -/
theorem toOutlets_of_yields_visit {x : Manual.Fetch α} {a : α} (hy : Yields (visit x) h a h') :
    ∃ rs, h'.toOutlets = h.toOutlets.sendAll rs := by
  unfold visit at hy
  obtain ⟨_, h₁, hsend, hy⟩ := yields_bind.1 hy
  obtain ⟨_, h₂, hmodify, hy⟩ := yields_bind.1 hy
  cases yields_sendAll.1 hsend
  cases yields_modify.1 hmodify
  split at hy
  · obtain ⟨-, rfl⟩ := yields_pure.1 hy
    exact ⟨_, rfl⟩
  · exact absurd hy yields_throw

/-- A computation of a session that ends well changes nothing but the log file. -/
theorem yields_catalog {session : Session} {x : Catalog α} {a : α × Session}
    (hy : Yields (catalog session x) h a h') :
    (x.run.run { session with log := [] }).1 = .ok a.1 ∧
      ∃ rs, h'.toOutlets = h.toOutlets.sendAll rs := by
  unfold catalog at hy
  obtain ⟨_, h₁, hsend, hy⟩ := yields_bind.1 hy
  cases yields_sendAll.1 hsend
  split at hy
  · next hx =>
    obtain ⟨rfl, rfl⟩ := yields_pure.1 hy
    exact ⟨hx, _, rfl⟩
  · exact absurd hy yields_throw

theorem yields_exit {code : Nat} {message : String} {a : α} :
    ¬Yields (exit code message : Run α) h a h' := by
  unfold exit
  rw [yields_bind]
  rintro ⟨_, _, -, hthrow⟩
  exact yields_throw hthrow

/-- A configuration is the one that loads, and nothing is written for it. -/
theorem yields_configuration {s : Settings} {config : Config} :
    Yields (configuration s) h config h' ↔
      h' = h ∧ Config.load h.disk (some (configPath h.disk s)) = .ok config := by
  unfold configuration
  refine ⟨fun hy => ?_, ?_⟩
  · obtain ⟨_, h₁, hget, hy⟩ := yields_bind.1 hy
    obtain ⟨rfl, rfl⟩ := yields_get.1 hget
    dsimp only at hy
    split at hy
    · next hload =>
      obtain ⟨rfl, rfl⟩ := yields_pure.1 hy
      exact ⟨rfl, hload⟩
    · split at hy
      · exact absurd hy yields_exit
      · exact absurd hy yields_throw
  · rintro ⟨rfl, hload⟩
    refine yields_bind.2 ⟨_, _, yields_get.2 ⟨rfl, rfl⟩, ?_⟩
    dsimp only
    rw [hload]
    exact yields_pure.2 ⟨rfl, rfl⟩

/-- The log is routed exactly if its file can be opened, and nothing else is done. -/
theorem yields_routeLog {s : Settings} {u : Unit} :
    Yields (routeLog s) h u h' ↔
      h.toOutlets.configure s.verbose s.logFile? = (none, h'.toOutlets) ∧
        h' = { h with toOutlets := h'.toOutlets } := by
  unfold routeLog
  refine ⟨fun hy => ?_, ?_⟩
  · obtain ⟨_, h₁, hget, hy⟩ := yields_bind.1 hy
    obtain ⟨rfl, rfl⟩ := yields_get.1 hget
    obtain ⟨_, h₂, hset, hy⟩ := yields_bind.1 hy
    cases yields_set.1 hset
    split at hy
    · exact absurd hy yields_throw
    · next hnone =>
      obtain ⟨-, rfl⟩ := yields_pure.1 hy
      exact ⟨Prod.ext hnone rfl, rfl⟩
  · rintro ⟨hrouted, hsame⟩
    refine yields_bind.2 ⟨_, _, yields_get.2 ⟨rfl, rfl⟩, ?_⟩
    dsimp only
    rw [hrouted]
    exact yields_bind.2 ⟨(), h', yields_set.2 hsame.symm, yields_pure.2 ⟨rfl, rfl⟩⟩

/-- A run without an ending has ended well. -/
theorem yields_of_run {web : Manual.Web} {words : List String} {d : Disk}
    (hrun : run web words d = (none, h)) : Yields (carryOut web words) { disk := d } () h := by
  unfold run at hrun
  split at hrun
  · next hend =>
    cases hrun
    exact hend
  · cases hrun

end Yields

/-- **The library that a command reads**, and the outlets when it does: those of a disk with the
log routed as the settings ask for. -/
structure Reads (d : Disk) (s : Settings) (o : Log.Outlets) (l : Library) : Prop where
  routed : Log.Outlets.configure { disk := d } s.verbose s.logFile? = (none, o)
  disk : l.disk = o.disk
  path : l.path = argumentPath o.disk s.library
  config : Config.load o.disk (some (configPath o.disk s)) = .ok l.config

/-- A command reads one library. -/
theorem Reads.unique {d : Disk} {s : Settings} {o o' : Log.Outlets} {l l' : Library}
    (h : Reads d s o l) (h' : Reads d s o' l') : l = l' := by
  obtain ⟨hrouted, hdisk, hpath, hconfig⟩ := h
  obtain ⟨hrouted', hdisk', hpath', hconfig'⟩ := h'
  obtain rfl : o = o' := congrArg Prod.snd (hrouted.symm.trans hrouted')
  cases l
  cases l'
  cases hdisk
  cases hdisk'
  cases hpath
  cases hpath'
  cases Except.ok.inj (hconfig.symm.trans hconfig')
  rfl

/-- **The library that a command opens**: the one that it reads, where there is a directory. -/
structure Opens (d : Disk) (s : Settings) (o : Log.Outlets) (l : Library) : Prop
    extends Reads d s o l where
  found : ∃ t, o.disk.directory? l.path = .ok (some t)

/-- What an argument leads to does not change. -/
theorem argumentPath_of_changed {w : List String → Prop} {d d' : Disk} (h : Disk.Changed w d d')
    (argument : String) : argumentPath d' argument = argumentPath d argument := by
  rw [argumentPath, argumentPath, Disk.resolve, Disk.resolve, h.cwd, h.home]

/-- What every command begins with: the log is routed, and the library and its configuration are
read. -/
def openLibrary (s : Settings) : Run Library := do
  routeLog s
  let path := argumentPath (← get).disk s.library
  match (← get).disk.directory? path with
  | .error f => throw (.failure (.path f))
  | .ok none => exit 1 ("Library path not found: " ++ path.toString)
  | .ok (some _) =>
    let config ← configuration s
    return { disk := (← get).disk, path := path, config := config }

/-- What a command does with the library it reads. -/
def performOn (web : Manual.Web) (task : Task) (s : Settings) (l : Library) : Run Unit :=
  match task with
  | .generate => generate web l s
  | .list => list l

theorem throw_bind {α β : Type} (e : Ending) (f : α → Run β) :
    (throw e : Run α) >>= f = throw e := rfl

theorem exit_bind {α β : Type} (code : Nat) (message : String) (f : α → Run β) :
    (exit code message : Run α) >>= f = exit code message := by
  unfold exit
  rw [bind_assoc]
  exact congrArg _ (funext fun _ => throw_bind _ _)

/-- A command opens its library first and then does its task. -/
theorem perform_eq_bind (web : Manual.Web) (task : Task) (s : Settings) :
    perform web task s = openLibrary s >>= performOn web task s := by
  unfold perform openLibrary
  simp only [bind_assoc]
  refine congrArg _ (funext fun _ => congrArg _ (funext fun h => congrArg _ (funext fun h' => ?_)))
  generalize h'.disk.directory? (argumentPath h.disk s.library) = found
  rcases found with f | _ | t
  · exact (throw_bind _ _).symm
  · exact (exit_bind _ _ _).symm
  · cases task <;> simp only [bind_assoc, pure_bind, performOn]

/-- **A command goes on exactly with the library that it opens**, and has printed nothing so
far. -/
theorem yields_openLibrary {d : Disk} {s : Settings} {l : Library} {h : Host} :
    Yields (openLibrary s) { disk := d } l h ↔
      Opens d s h.toOutlets l ∧ h = { toOutlets := h.toOutlets } := by
  unfold openLibrary
  refine ⟨fun hy => ?_, ?_⟩
  · obtain ⟨_, h₁, hroute, hy⟩ := yields_bind.1 hy
    obtain ⟨_, h₂, hget, hy⟩ := yields_bind.1 hy
    obtain ⟨rfl, rfl⟩ := yields_get.1 hget
    obtain ⟨_, h₃, hget, hy⟩ := yields_bind.1 hy
    obtain ⟨rfl, rfl⟩ := yields_get.1 hget
    -- of the three answers to whether there is a library, one goes on
    split at hy
    · exact absurd hy yields_throw
    · exact absurd hy yields_exit
    · next t hfound =>
      obtain ⟨config, h₄, hconfig, hy⟩ := yields_bind.1 hy
      obtain ⟨rfl, hload⟩ := yields_configuration.1 hconfig
      obtain ⟨_, h₅, hget, hy⟩ := yields_bind.1 hy
      obtain ⟨rfl, rfl⟩ := yields_get.1 hget
      obtain ⟨rfl, rfl⟩ := yields_pure.1 hy
      obtain ⟨hrouted, hsame⟩ := yields_routeLog.1 hroute
      exact ⟨⟨⟨hrouted, rfl, rfl, hload⟩, t, hfound⟩, hsame⟩
  · rintro ⟨⟨⟨hrouted, hdisk, hpath, hload⟩, t, hfound⟩, hsame⟩
    refine yields_bind.2 ⟨(), h, yields_routeLog.2 ⟨hrouted, hsame⟩, ?_⟩
    refine yields_bind.2 ⟨_, _, yields_get.2 ⟨rfl, rfl⟩, ?_⟩
    refine yields_bind.2 ⟨_, _, yields_get.2 ⟨rfl, rfl⟩, ?_⟩
    rw [← hpath, hfound]
    refine yields_bind.2 ⟨_, _, yields_configuration.2 ⟨rfl, hload⟩, ?_⟩
    refine yields_bind.2 ⟨_, _, yields_get.2 ⟨rfl, rfl⟩, yields_pure.2 ⟨?_, rfl⟩⟩
    rw [← hdisk]

/-- A command that ends well is carried out on the library it reads. -/
theorem exists_reads_of_run {web : Manual.Web} {words : List String} {d : Disk} {task : Task}
    {s : Settings} {h' : Host} (hparse : parse words = .ok (task, s))
    (hrun : run web words d = (none, h')) :
    ∃ h l, Reads d s h.toOutlets l ∧ Yields (match task with
      | .generate => generate web l s
      | .list => list l) h () h' := by
  have hy := yields_of_run hrun
  unfold carryOut at hy
  rw [hparse] at hy
  change Yields (perform web task s) _ _ _ at hy
  rw [perform_eq_bind] at hy
  obtain ⟨l, h, hopen, hy⟩ := yields_bind.1 hy
  exact ⟨h, l, (yields_openLibrary.1 hopen).1.toReads, hy⟩

end Command

end ComponentCatalog
