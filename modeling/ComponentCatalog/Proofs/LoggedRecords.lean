import ComponentCatalog.Log.Loggers
import ComponentCatalog.Proofs.Untouched

/-!
# Where each record ends up

Records are routed by calls, each of which takes the place of the one before, and logged in
between. Whatever the calls are and whether their log files can be opened or not, a record is shown
on the console once if its level is one that the latest call shows, is appended once to the log
file that the latest call has opened, and goes nowhere else (`console_run`, `content?_run`).

What carries this is `Follows`: the outlets are those that the latest call has set up. One call
brings it about and one record keeps it. A record gets as far as the outlets only if its logger
belongs to the root, and that is so for good if the name of the part does not begin with a dot
(`isHeard_fullName`). Otherwise the records may be lost.
-/

namespace ComponentCatalog.Log

open Text

/-! ## Names that lead to the root -/

/-- Behind a dot, the logger above is the root, or one that is known, or is looked for further up.
-/
theorem leadsToRoot_dot (names : List String) (last : Char) (before : List Char) :
    leadsToRoot names ('.' :: last :: before) =
      if String.ofList (last :: before).reverse = rootName then true
      else if String.ofList (last :: before).reverse ∈ names then
        leadsToRoot names (last :: before)
      else leadsToRoot names before := by
  rw [leadsToRoot.eq_def]
  exact if_pos rfl

theorem leadsToRoot_of_ne {c : Char} (hc : c ≠ '.') (names : List String) (rest : List Char) :
    leadsToRoot names (c :: rest) = leadsToRoot names rest := by
  rw [leadsToRoot.eq_def]
  exact if_neg hc

/-- A child of the root leads to it. -/
theorem leadsToRoot_root (names : List String) :
    leadsToRoot names ('.' :: rootName.toList.reverse) = true := by
  rw [show rootName.toList.reverse = 'c' :: "odpmoc".toList by decide, leadsToRoot_dot]
  exact if_pos (by decide)

/-- The dot behind the root is looked at if the name goes on with something else. -/
theorem leadsToRoot_append (names : List String) {part : List Char}
    (hlast : part.getLast? ≠ some '.') :
    leadsToRoot names (part ++ '.' :: rootName.toList.reverse) = true := by
  induction part using List.twoStepInduction with
  | nil => exact leadsToRoot_root names
  | singleton c =>
    have hc : c ≠ '.' := by simpa using hlast
    rw [List.singleton_append, leadsToRoot_of_ne hc]
    exact leadsToRoot_root names
  | cons_cons c last before ih ih' =>
    rw [List.getLast?_cons_cons] at hlast
    have hrest := ih' last hlast
    by_cases hc : c = '.'
    · rw [hc, List.cons_append, List.cons_append, leadsToRoot_dot]
      split
      · rfl
      · split
        · exact hrest
        · -- what stands before the dot is passed over; if it is all there is, it is no dot
          refine ih fun hdot => hlast ?_
          rw [List.getLast?_cons, hdot]
          rfl
    · rw [List.cons_append, leadsToRoot_of_ne hc]
      exact hrest

/-- **A part whose name does not begin with a dot is heard**, whatever loggers there are. -/
theorem isHeard_fullName {part : String} (hpart : part.toList.head? ≠ some '.')
    (names : List String) : isHeard names (fullName part) = true := by
  rw [isHeard, Bool.or_eq_true, decide_eq_true_eq, fullName]
  split
  · exact .inl rfl
  · refine .inr ?_
    rw [String.toList_append, String.toList_append, List.reverse_append, List.reverse_append]
    exact leadsToRoot_append names (by rwa [List.getLast?_reverse])

/-! ## What a logger remembers -/

/-- **What is remembered is what is the case**, of loggers that are heard whatever happens. -/
def Loggers.Remembers (g : Loggers) : Prop :=
  ∀ entry ∈ g.known, (∀ names, isHeard names entry.1.1 = true) →
    entry.2 = entry.1.2.reaches g.routing.threshold

section Heard

variable {g g' : Loggers} {r : Record}

/-- What is remembered depends on the known loggers and on the routing. -/
theorem Loggers.Remembers.congr (hg : g.Remembers) (hknown : g'.known = g.known)
    (hrouting : g'.routing = g.routing) : g'.Remembers := by
  intro entry hentry
  rw [hknown] at hentry
  rw [hrouting]
  exact hg entry hentry

/-- A logger that is heard takes the records that reach the threshold. -/
theorem takes_of_heard (hg : g.Remembers) {logger : String}
    (hheard : ∀ names, isHeard names logger = true) (level : Level) :
    g.takes logger level = level.reaches g.routing.threshold := by
  unfold Loggers.takes
  cases hknown : g.known.lookup (logger, level) with
  | none => rw [Option.getD_none, Loggers.threshold, if_pos (hheard g.names)]
  | some b => exact hg _ (mem_of_lookup_eq_some hknown) hheard

theorem toOutlets_enroll (g : Loggers) (logger : String) :
    (g.enroll logger).toOutlets = g.toOutlets := by
  unfold Loggers.enroll
  split <;> rfl

theorem known_enroll (g : Loggers) (logger : String) : (g.enroll logger).known = g.known := by
  unfold Loggers.enroll
  split <;> rfl

/-- **A record of a logger that is heard whatever happens is sent**, and nothing wrong is
remembered. -/
theorem log_of_heard (hg : g.Remembers) (hheard : ∀ names, isHeard names r.logger = true) :
    (g.log r).toOutlets = g.toOutlets.send r ∧ (g.log r).Remembers := by
  have henrolled : (g.enroll r.logger).Remembers :=
    hg.congr (known_enroll g r.logger) (by rw [toOutlets_enroll])
  have htakes := takes_of_heard henrolled hheard r.level
  have hremembers : ((g.enroll r.logger).remember r.logger r.level).Remembers := by
    intro entry hentry hnames
    obtain rfl | hentry := List.mem_cons.1 hentry
    · exact htakes
    · exact henrolled entry hentry hnames
  unfold Loggers.log
  dsimp only
  rw [htakes, toOutlets_enroll]
  by_cases hreaches : r.level.reaches g.routing.threshold = true
  · rw [if_pos hreaches, Loggers.deliver, if_pos (hheard _), Log.Outlets.send, if_pos hreaches]
    refine ⟨?_, hremembers.congr rfl ?_⟩
    · exact congrArg (fun o : Outlets => (o.display r).append r) (toOutlets_enroll g r.logger)
    · exact (Outlets.kept_append _ r).routing.trans (Outlets.kept_display _ r).routing
  · rw [if_neg hreaches, Log.Outlets.send, if_neg hreaches]
    exact ⟨toOutlets_enroll g r.logger, hremembers⟩

end Heard

/-! ## The latest call -/

/-- **A call that routes records.** -/
structure Call where
  verbose : Bool
  /-- The place of the log file, if one is asked for and can be opened. -/
  opened? : Option (List String)

/-- A call, as it turns out. -/
def Call.of (o : Outlets) (verbose : Bool) (logFile? : Option Path) : Call where
  verbose := verbose
  opened? := if (o.configure verbose logFile?).1 = none then logFile?.map o.disk.place else none

/-- Whether the console shows a record. -/
def Call.shows (c : Call) (r : Record) : Bool :=
  r.level.reaches (consoleLevel c.verbose)

/-- **The outlets are those that a call has set up.** -/
structure Follows (c : Call) (g : Loggers) : Prop where
  console : g.routing.console = consoleLevel c.verbose
  threshold : g.routing.threshold.rank ≤ g.routing.console.rank
  ready : g.toOutlets.Ready
  isLog_iff : ∀ place, g.toOutlets.IsLog place ↔ c.opened? = some place
  remembers : g.Remembers

namespace Outlets

/-- **What a call can do**: without a log file, with one, and with one that cannot be opened. -/
theorem configure_cases (o : Outlets) (verbose : Bool) (logFile? : Option Path) :
    (logFile? = none ∧ o.configure verbose none =
      (none, { o with routing := ⟨consoleLevel verbose, consoleLevel verbose, none⟩ })) ∨
    (∃ path d d', logFile? = some path ∧ o.disk.makeDirectories path.parent = .ok d ∧
      d.updateFile (d.resolve path) id = .ok d' ∧ o.configure verbose (some path) =
        (none, { o with
          disk := d'
          routing := ⟨.debug, consoleLevel verbose, some (d.resolve path)⟩ })) ∨
    ∃ path fault, logFile? = some path ∧ o.configure verbose (some path) =
      (some fault, { o with
        disk := o.disk.attemptDirectories path.parent
        routing := ⟨.debug, consoleLevel verbose, none⟩ }) := by
  cases logFile? with
  | none => exact .inl ⟨rfl, rfl⟩
  | some path =>
    refine .inr ?_
    simp only [configure, Option.isSome_some, if_true]
    cases hopen : openFile { o with routing := ⟨.debug, consoleLevel verbose, none⟩ } path with
    | ok o' =>
      obtain ⟨d, d', hmake, hupdate, rfl⟩ := exists_of_openFile hopen
      exact .inl ⟨path, d, d', rfl, hmake, hupdate, by rw [hopen]⟩
    | error f => exact .inr ⟨path, f, rfl, by rw [hopen]⟩

theorem console_append (o : Outlets) (r : Record) : (o.append r).console = o.console := by
  unfold append
  split
  · rfl
  · split <;> rfl

/-- A record is shown once, if it is one for the console. -/
theorem console_send {o : Outlets} (h : o.routing.threshold.rank ≤ o.routing.console.rank)
    (r : Record) :
    (o.send r).console =
      o.console ++ if r.level.reaches o.routing.console then r.consoleLine else "" := by
  by_cases hshown : r.level.reaches o.routing.console = true
  · have hreaches : r.level.reaches o.routing.threshold = true :=
      decide_eq_true (h.trans (of_decide_eq_true hshown))
    rw [send, if_pos hreaches, console_append, display, if_pos hshown, if_pos hshown]
  · rw [if_neg hshown, String.append_empty, send]
    split
    · rw [console_append, display, if_neg hshown]
    · rfl

theorem console_configure (o : Outlets) (verbose : Bool) (logFile? : Option Path) :
    (o.configure verbose logFile?).2.console = o.console := by
  obtain ⟨rfl, heq⟩ | ⟨path, d, d', rfl, -, -, heq⟩ | ⟨path, fault, rfl, heq⟩ :=
    o.configure_cases verbose logFile? <;> rw [heq]

/-- A call makes its log file, if there is none, and changes nothing else. -/
theorem content?_configure (o : Outlets) (verbose : Bool) (logFile? : Option Path)
    (place : List String) :
    (o.configure verbose logFile?).2.disk.content? place =
      if (Call.of o verbose logFile?).opened? = some place then
        some ((o.disk.content? place).getD [])
      else o.disk.content? place := by
  unfold Call.of
  obtain ⟨rfl, heq⟩ | ⟨path, d, d', rfl, hmake, hupdate, heq⟩ | ⟨path, fault, rfl, heq⟩ :=
    o.configure_cases verbose logFile?
  · rw [heq]
    rfl
  · have hmade := Disk.changed_makeDirectories hmake
    have hplace : d.place (d.resolve path) = o.disk.place path := by
      rw [d.place_resolve, hmade.place]
    have hkept (p : List String) : d.content? p = o.disk.content? p := hmade.kept p id
    have hlook := Disk.look_of_updateFile hupdate place
    rw [hplace, hkept] at hlook
    simp only [heq, if_true, Option.map_some, Option.some.injEq]
    rw [Disk.content?, hlook]
    by_cases hown : place = o.disk.place path
    · rw [if_pos hown, if_pos hown.symm, hown]
      rfl
    · rw [if_neg hown, if_neg (Ne.symm hown)]
      exact hkept place
  · simp only [heq]
    exact (Disk.changed_attemptDirectories o.disk path.parent).kept place id

end Outlets

section Steps

variable {g : Loggers} {c : Call} {r : Record}

/-- **A call sets up the outlets**, whether its log file can be opened or not. -/
theorem follows_configure (g : Loggers) (verbose : Bool) (logFile? : Option Path) :
    Follows (.of g.toOutlets verbose logFile?) (g.configure verbose logFile?).2 := by
  have hremembers : (g.configure verbose logFile?).2.Remembers :=
    fun entry hentry => absurd hentry List.not_mem_nil
  have houtlets : (g.configure verbose logFile?).2.toOutlets =
      (g.toOutlets.configure verbose logFile?).2 := rfl
  have hleast : Level.debug.rank ≤ (consoleLevel verbose).rank := (consoleLevel verbose).least
  have hnone (o : Outlets) (ho : o.routing.file? = none) : o.Ready := by
    intro file hfile
    rw [ho] at hfile
    cases hfile
  unfold Call.of
  obtain ⟨rfl, heq⟩ | ⟨path, d, d', rfl, hmake, hupdate, heq⟩ | ⟨path, fault, rfl, heq⟩ :=
    g.toOutlets.configure_cases verbose logFile?
  · refine ⟨?_, ?_, ?_, fun place => ?_, hremembers⟩ <;> rw [houtlets, heq]
    · exact hnone _ rfl
    · simp [Outlets.IsLog]
  · refine ⟨?_, ?_, ?_, fun place => ?_, hremembers⟩ <;> rw [houtlets, heq]
    · exact hleast
    · exact (Outlets.routed_configure heq).ready
    · -- the file was resolved after its directories had been made, which moves no place
      have hplace : d'.place (d.resolve path) = g.disk.place path := by
        rw [(Disk.changed_updateFile hupdate).place, d.place_resolve,
          (Disk.changed_makeDirectories hmake).place]
      simp [Outlets.IsLog, hplace, eq_comm]
  · refine ⟨?_, ?_, ?_, fun place => ?_, hremembers⟩ <;> rw [houtlets, heq]
    · exact hleast
    · exact hnone _ rfl
    · simp [Outlets.IsLog]

/-- The file that has been opened last is there. -/
theorem Follows.isSome_content? (hg : Follows c g) {place : List String}
    (hplace : c.opened? = some place) : (g.disk.content? place).isSome = true := by
  obtain ⟨file, hfile, rfl⟩ := (hg.isLog_iff place).2 hplace
  obtain ⟨-, dir, name, hentry, hcontent⟩ := hg.ready file hfile
  rwa [hentry.place_eq]

/-- **A record of a logger that is heard** is shown once if the latest call shows it, and is
appended once to the log file that it has opened. -/
theorem Follows.log (hg : Follows c g) (hheard : ∀ names, isHeard names r.logger = true) :
    Follows c (g.log r) ∧
      (g.log r).console = g.console ++ (if c.shows r then r.consoleLine else "") ∧
      ∀ place, (g.log r).disk.content? place =
        if c.opened? = some place then
          some ((g.disk.content? place).getD [] ++ encode r.fileLine)
        else g.disk.content? place := by
  obtain ⟨hsent, hremembers⟩ := log_of_heard hg.remembers hheard
  have hkept := g.toOutlets.kept_send r
  rw [← hsent] at hkept
  refine ⟨⟨?_, ?_, hkept.ready hg.ready, fun place => ?_, hremembers⟩, ?_, fun place => ?_⟩
  · rw [hkept.routing, hg.console]
  · rw [hkept.routing]
    exact hg.threshold
  · rw [hkept.isLog_iff, hg.isLog_iff]
  · rw [hsent, Outlets.console_send hg.threshold, hg.console]
    rfl
  · rw [hsent]
    split
    · next hplace => exact Outlets.content?_send hg.ready ((hg.isLog_iff place).2 hplace) r
    · next hplace =>
      exact (g.toOutlets.kept_send r).disk.kept place (mt (hg.isLog_iff place).1 hplace)

end Steps

/-! ## A run -/

/-- The record that an event logs. -/
def Event.record? : Event → Option Record
  | .configure _ _ => none
  | .log level part message => some ⟨level, fullName part, message⟩

/-- Whether an event logs nothing under a name that begins with a dot. -/
def Event.isPlain : Event → Bool
  | .configure _ _ => true
  | .log _ part _ => part.toList.head? ≠ some '.'

/-- The calls of a run. -/
def Loggers.calls (g : Loggers) : List Event → List Call
  | [] => []
  | .configure verbose logFile? :: events =>
    .of g.toOutlets verbose logFile? :: (g.step (.configure verbose logFile?)).calls events
  | .log level part message :: events => (g.step (.log level part message)).calls events

/-- The records of a run, each with the latest call before it. -/
def Loggers.logged (g : Loggers) (latest : Call) : List Event → List (Call × Record)
  | [] => []
  | .configure verbose logFile? :: events =>
    (g.step (.configure verbose logFile?)).logged (.of g.toOutlets verbose logFile?) events
  | .log level part message :: events =>
    (latest, ⟨level, fullName part, message⟩) ::
      (g.step (.log level part message)).logged latest events

/-- What the console shows of records. -/
def shownText (logged : List (Call × Record)) : String :=
  String.join ((logged.filter fun e => e.1.shows e.2).map fun e => e.2.consoleLine)

/-- What is appended to the file at a place. -/
def filedAt (place : List String) (logged : List (Call × Record)) : List UInt8 :=
  (logged.filter fun e => e.1.opened? = some place).flatMap fun e => encode e.2.fileLine

/-- The records that are logged, in their order. -/
theorem map_snd_logged (g : Loggers) (latest : Call) (events : List Event) :
    (g.logged latest events).map Prod.snd = events.filterMap Event.record? := by
  fun_induction Loggers.logged g latest events with
  | case1 => rfl
  | case2 g latest verbose logFile? events ih => exact ih
  | case3 g latest level part message events ih => exact congrArg _ ih

section Run

variable {g : Loggers} {latest : Call} {events : List Event}

/-- A record is shown in front of those after it. -/
theorem shownText_cons (c : Call) (r : Record) (logged : List (Call × Record)) :
    shownText ((c, r) :: logged) =
      (if c.shows r then r.consoleLine else "") ++ shownText logged := by
  by_cases hshown : c.shows r = true <;> simp [shownText, hshown]

/-- A record is filed in front of those after it. -/
theorem filedAt_cons (place : List String) (c : Call) (r : Record)
    (logged : List (Call × Record)) :
    filedAt place ((c, r) :: logged) =
      (if c.opened? = some place then encode r.fileLine else []) ++ filedAt place logged := by
  by_cases hplace : c.opened? = some place <;> simp [filedAt, hplace]

/-- What the console shows in the end. -/
theorem console_run (hg : Follows latest g) (hplain : ∀ e ∈ events, e.isPlain = true) :
    (g.run events).console = g.console ++ shownText (g.logged latest events) := by
  induction events generalizing g latest with
  | nil => exact (String.append_empty).symm
  | cons e events ih =>
    obtain ⟨hfirst, hrest⟩ := List.forall_mem_cons.1 hplain
    cases e with
    | configure verbose logFile? =>
      refine (ih (follows_configure g verbose logFile?) hrest).trans ?_
      exact congrArg (· ++ _) (g.toOutlets.console_configure verbose logFile?)
    | log level part message =>
      obtain ⟨hnext, hconsole, -⟩ :=
        hg.log (r := ⟨level, fullName part, message⟩) (isHeard_fullName (of_decide_eq_true hfirst))
      refine (ih hnext hrest).trans ?_
      rw [hconsole, Loggers.logged, shownText_cons, String.append_assoc]
      rfl

/-- Routing the log anew goes on with the file that it opens. -/
theorem content?_run_configure (g : Loggers) (verbose : Bool) (logFile? : Option Path)
    {place : List String} {bytes : List UInt8}
    (h : ((g.step (.configure verbose logFile?)).run events).disk.content? place =
      (if ∃ call ∈ (g.step (.configure verbose logFile?)).calls events,
          call.opened? = some place then
        some (((g.step (.configure verbose logFile?)).disk.content? place).getD [])
      else (g.step (.configure verbose logFile?)).disk.content? place).map (· ++ bytes)) :
    (g.run (.configure verbose logFile? :: events)).disk.content? place =
      (if ∃ call ∈ g.calls (.configure verbose logFile? :: events), call.opened? = some place then
        some ((g.disk.content? place).getD [])
      else g.disk.content? place).map (· ++ bytes) := by
  refine h.trans ?_
  have hcontent : (g.step (.configure verbose logFile?)).disk.content? place = _ :=
    g.toOutlets.content?_configure verbose logFile? place
  rw [hcontent, Loggers.calls]
  by_cases hopened : (Call.of g.toOutlets verbose logFile?).opened? = some place <;> simp [hopened]

/-- What stands in a file in the end. -/
theorem content?_run (hg : Follows latest g) (hplain : ∀ e ∈ events, e.isPlain = true)
    (place : List String) :
    (g.run events).disk.content? place =
      (if ∃ call ∈ g.calls events, call.opened? = some place then
        some ((g.disk.content? place).getD [])
      else g.disk.content? place).map (· ++ filedAt place (g.logged latest events)) := by
  induction events generalizing g latest with
  | nil => simp [Loggers.run, Loggers.calls, Loggers.logged, filedAt]
  | cons e events ih =>
    obtain ⟨hfirst, hrest⟩ := List.forall_mem_cons.1 hplain
    cases e with
    | configure verbose logFile? =>
      exact content?_run_configure g verbose logFile?
        (ih (follows_configure g verbose logFile?) hrest)
    | log level part message =>
      obtain ⟨hnext, -, hcontent⟩ :=
        hg.log (r := ⟨level, fullName part, message⟩) (isHeard_fullName (of_decide_eq_true hfirst))
      refine (ih hnext hrest).trans ?_
      rw [hcontent, Loggers.calls, Loggers.logged, filedAt_cons, Loggers.step]
      by_cases hopened : latest.opened? = some place
      · obtain ⟨bytes, hbytes⟩ := Option.isSome_iff_exists.1 (hg.isSome_content? hopened)
        simp [hopened, hbytes]
      · simp [hopened]

end Run

/-- **Where each record ends up.** After a first call, and whatever calls and records follow, the
console shows once every record that the latest call before it shows, and every file holds what it
held before and then, once each, the records that were logged while the latest call had it open.
This is so of parts whose names do not begin with a dot. -/
theorem run_routes_records (g : Loggers) (verbose : Bool) (logFile? : Option Path)
    (events : List Event) (hplain : ∀ e ∈ events, e.isPlain = true) :
    ∃ logged, logged = (g.step (.configure verbose logFile?)).logged
        (.of g.toOutlets verbose logFile?) events ∧
      logged.map Prod.snd = events.filterMap Event.record? ∧
      (g.run (.configure verbose logFile? :: events)).console = g.console ++ shownText logged ∧
      ∀ place, (g.run (.configure verbose logFile? :: events)).disk.content? place =
        (if ∃ call ∈ g.calls (.configure verbose logFile? :: events),
            call.opened? = some place then some ((g.disk.content? place).getD [])
        else g.disk.content? place).map (· ++ filedAt place logged) := by
  have hfollows := follows_configure g verbose logFile?
  refine ⟨_, rfl, map_snd_logged _ _ _, ?_, fun place => ?_⟩
  · refine (console_run hfollows hplain).trans ?_
    exact congrArg (· ++ _) (g.toOutlets.console_configure verbose logFile?)
  · exact content?_run_configure g verbose logFile? (content?_run hfollows hplain place)

/-! ### A log file for some of the records -/

def emptyDisk : Disk where
  tree := .directory []
  cwd := ⟨"/", []⟩
  home := ⟨"/", []⟩

/-- A record for the log file, and one after another call. -/
def twoCalls : List Event :=
  [.log .info "a" "m", .configure true none, .log .debug "b.c" "n"]

theorem run_routes_records_twoCalls :
    (Loggers.run { disk := emptyDisk }
      (.configure false (some (.ofString "x.log")) :: twoCalls)).console =
        "[compdoc] INFO m\n[compdoc] DEBUG n\n" ∧
      (Loggers.run { disk := emptyDisk }
        (.configure false (some (.ofString "x.log")) :: twoCalls)).disk.content? ["x.log"] =
          some (encode "INFO compdoc.a: m\n") := by
  obtain ⟨logged, hlogged, -, hconsole, hcontent⟩ :=
    run_routes_records { disk := emptyDisk } false (some (.ofString "x.log")) twoCalls (by decide)
  rw [hlogged] at hconsole hcontent
  rw [hconsole, hcontent]
  decide +kernel

/-- **A record that is lost**: the latest call shows information, but the name of the part begins
with a dot. A warning of that part is shown, but not as a line of the log. -/
theorem run_leadingDot :
    Call.shows (.of { disk := emptyDisk } false none) ⟨.info, fullName ".a", "m"⟩ = true ∧
      (Loggers.run { disk := emptyDisk }
        [.configure false none, .log .info ".a" "m"]).console = "" ∧
      (Loggers.run { disk := emptyDisk }
        [.configure false none, .log .warning ".a" "m"]).console = "m\n" := by
  decide +kernel

end ComponentCatalog.Log
