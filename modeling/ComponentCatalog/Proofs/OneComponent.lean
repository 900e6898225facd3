import ComponentCatalog.Proofs.Aliases
import ComponentCatalog.Proofs.WritableBefore

/-!
# One component or all of them

A command can write the document of one component, given by its name, or those of all. What it
writes for a component is the same both times, but the name is compared in small letters and the
first component that has it is taken. So a component is reached by its own name exactly if no
component before it has a name that differs in case only (`IsFirst`); otherwise the other one is
written, and the file of the one that was asked for stays as it was.

The two commands begin alike: they open the same library (`Opens`). The command for one needs no
more than that its document can be saved (`CanSave`), and where all documents could be written this
one can be (`canSave_of_all`). Whichever way the command for all ends, it has written the file of a
component with the text of its document or not at all (`content?_generate_all_or`).
-/

namespace ComponentCatalog

open Text

/-- **The first component of a name**, whatever the case of its letters. -/
def IsFirst (cs : List Candidate) (c : Candidate) : Prop :=
  ∃ before after, cs = before ++ c :: after ∧ ∀ c' ∈ before, lower c'.name ≠ lower c.name

/-- The component that is found by a name is the first of that name. -/
theorem find?_lower_eq_some_iff {cs : List Candidate} {c : Candidate} :
    (cs.find? fun c' => lower c'.name == lower c.name) = some c ↔ IsFirst cs c := by
  rw [List.find?_eq_some_iff_append]
  simp [IsFirst]

/-- Where a component is not the first of its name, that is another component before it. -/
theorem exists_find?_of_not_isFirst {cs : List Candidate} {c : Candidate} (h : Catalogued cs)
    (hc : c ∈ cs) (hconcrete : c.aliasOf? = none) (hfirst : ¬IsFirst cs c) :
    ∃ other ∈ cs, other.aliasOf? = none ∧ other.name ≠ c.name ∧
      (cs.find? fun c' => lower c'.name == lower c.name) = some other := by
  obtain ⟨other, hother⟩ : ∃ other,
      (cs.find? fun c' => lower c'.name == lower c.name) = some other := by
    rw [← Option.isSome_iff_exists, List.find?_isSome]
    exact ⟨c, hc, beq_self_eq_true _⟩
  have hne : other ≠ c := by
    rintro rfl
    exact hfirst (find?_lower_eq_some_iff.1 hother)
  obtain ⟨-, before, after, rfl, hbefore⟩ := List.find?_eq_some_iff_append.1 hother
  have hafter : c ∈ after := by
    rcases List.mem_append.1 hc with hc | hc
    · simpa using hbefore c hc
    · exact (List.mem_cons.1 hc).resolve_left hne.symm
  have hmem : other ∈ before ++ other :: after := List.mem_append_right _ (.head _)
  refine ⟨other, hmem, ?_, fun hname => ?_, hother⟩
  · have hrest := (List.pairwise_append.1 h.concrete_first).2.1
    exact (List.pairwise_cons.1 hrest).1 c hafter hconcrete
  · exact hne (List.inj_on_of_nodup_map h.nodup hmem hc hname)

namespace Command

open Log.Outlets Output

/-! ## The documents of a library and their names -/

section Documents

variable {l : Library} {cs : List Candidate} {docs : List Document}

/-- What is found in a well-named tree: the components have names of entries. -/
theorem catalogued_of_findComponents (hnamed : l.disk.tree.isWellNamed = true)
    (hcs : l.findComponents.fresh = .ok cs) :
    Catalogued cs ∧ ∀ c ∈ cs, c.aliasOf? = none → isEntryName c.name = true := by
  by_cases hsearch : l.Searchable
  · obtain ⟨cs', hcs', hrules, hnames⟩ := succeeds_findComponents_entries hsearch hnamed {}
    obtain rfl : cs' = cs := Except.ok.inj (hcs'.symm.trans hcs)
    exact ⟨hrules.toCatalogued, hnames⟩
  · have hfault := result_findComponents_of_not_searchable hsearch {}
    cases hfault.symm.trans hcs

/-- Where there are documents, the search for components has come to an end. -/
theorem exists_findComponents_of_allDocuments (hdocs : l.allDocuments.fresh = .ok docs) :
    ∃ cs, l.findComponents.fresh = .ok cs := by
  obtain hfault | ⟨cs, -, hgives⟩ := gives_findComponents l
  · have hnone : Gives l l.allDocuments (.error (.badPath .nameTooLong)) := hfault.bind_error
    cases hnone.fresh_eq.symm.trans hdocs
  · exact ⟨cs, hgives.fresh_eq⟩

/-- A document of a component's name is the one made for it. -/
theorem documentOf_of_mem (hnamed : l.disk.tree.isWellNamed = true)
    (hcs : l.findComponents.fresh = .ok cs) (hdocs : l.allDocuments.fresh = .ok docs)
    {c : Candidate} (hc : c ∈ cs) {doc : Document} (hdoc : doc ∈ docs) (hname : doc.name = c.name) :
    l.documentOf c = some doc := by
  obtain ⟨hcatalogued, hnames⟩ := catalogued_of_findComponents hnamed hcs
  have hmade := (gives_allDocuments l hcatalogued ((steady_findComponents l).of_eq hcs)).fresh_eq
  rw [hdocs, Except.ok.injEq] at hmade
  rw [hmade] at hdoc
  obtain ⟨c', hc', hdoc'⟩ := List.mem_filterMap.1 hdoc
  have hmem := List.mem_of_mem_filter hc'
  have hname' := name_of_documentOf hdoc' fun hnone => (isEntryName_iff.1 (hnames c' hmem hnone)).1
  rwa [List.inj_on_of_nodup_map hcatalogued.nodup hc hmem (hname.symm.trans hname')]

end Documents

/-! ## Making one document -/

section OneDocument

variable {α : Type} {l : Library} {session : Session} {x : Catalog α} {h h' : Host}

theorem agrees_of_log (hs : session.Agrees l) : Session.Agrees l { session with log := [] } :=
  ⟨hs.rootProps, hs.artifacts⟩

/-- A computation that gives an answer ends well, and only records are sent. -/
theorem exists_yields_catalog {a : α} (hx : Gives l x (.ok a)) (hs : session.Agrees l) (h : Host) :
    ∃ after rs, Session.Agrees l after ∧
      Yields (catalog session x) h (a, after) { h with toOutlets := h.toOutlets.sendAll rs } := by
  obtain ⟨hresult, hafter⟩ := hx _ (agrees_of_log hs)
  refine ⟨x.after { session with log := [] }, (x.after { session with log := [] }).log.reverse,
    hafter, ?_⟩
  unfold catalog
  refine yields_bind.2 ⟨(), _, yields_sendAll.2 rfl, ?_⟩
  have hresult : (x { session with log := [] }).1 = .ok a := hresult
  rw [hresult]
  exact yields_pure.2 ⟨rfl, rfl⟩

/-- A computation that ends well has given its answer, in a session that still agrees. -/
theorem eq_of_yields_catalog {r : Except Fault α} (hx : Gives l x r) (hs : session.Agrees l)
    {a : α × Session} (hy : Yields (catalog session x) h a h') :
    r = .ok a.1 ∧ Session.Agrees l a.2 := by
  obtain ⟨hresult, hafter⟩ := hx _ (agrees_of_log hs)
  unfold catalog at hy
  obtain ⟨_, h₁, hsend, hy⟩ := yields_bind.1 hy
  split at hy
  · next hrun =>
    obtain ⟨rfl, -⟩ := yields_pure.1 hy
    exact ⟨hresult.symm.trans hrun, hafter⟩
  · exact absurd hy yields_throw

variable {cs : List Candidate} {doc : Document}

/-- The first component of a name is found by it. -/
theorem yields_oneDocument (hcs : Gives l l.findComponents (.ok cs)) {c : Candidate}
    (hfirst : IsFirst cs c) (hdoc : l.documentOf c = some doc) (h : Host) :
    ∃ rs, Yields (oneDocument l c.name) h doc
      { h with toOutlets := h.toOutlets.sendAll rs } := by
  obtain ⟨after, rs, hagrees, hfound⟩ := exists_yields_catalog hcs (Session.agrees_empty l) h
  have hgives : Gives l (l.candidateDocument c) (.ok (some doc)) :=
    hdoc ▸ gives_candidateDocument l c
  obtain ⟨_, rs', -, hmade⟩ := exists_yields_catalog hgives hagrees
    { h with toOutlets := h.toOutlets.sendAll rs }
  refine ⟨rs ++ rs', ?_⟩
  unfold oneDocument
  refine yields_bind.2 ⟨_, _, hfound, ?_⟩
  dsimp only
  rw [find?_lower_eq_some_iff.2 hfirst]
  refine yields_bind.2 ⟨_, _, hmade, yields_pure.2 ⟨rfl, ?_⟩⟩
  rw [Log.Outlets.sendAll, Log.Outlets.sendAll, Log.Outlets.sendAll, List.foldl_append]

/-- By a name the document of the first component is made that has it. -/
theorem documentOf_of_yields_oneDocument (hcs : Gives l l.findComponents (.ok cs)) {name : String}
    (hy : Yields (oneDocument l name) h doc h') :
    ∃ c, (cs.find? fun c => lower c.name == lower name) = some c ∧ l.documentOf c = some doc := by
  unfold oneDocument at hy
  obtain ⟨⟨cs', session⟩, h₁, hfound, hy⟩ := yields_bind.1 hy
  obtain ⟨heq, hagrees⟩ := eq_of_yields_catalog hcs (Session.agrees_empty l) hfound
  cases heq
  dsimp only at hy
  split at hy
  · exact absurd hy yields_exit
  · next c hc =>
    obtain ⟨⟨made, _⟩, h₂, hmade, hy⟩ := yields_bind.1 hy
    obtain ⟨heq, -⟩ := eq_of_yields_catalog (gives_candidateDocument l c) hagrees hmade
    cases made with
    | none => exact absurd hy yields_exit
    | some doc' =>
      obtain ⟨rfl, -⟩ := yields_pure.1 hy
      exact ⟨c, hc, Except.ok.inj heq⟩

end OneDocument

/-! ## The two commands -/

/-- A run goes on from where its first part has ended. -/
theorem run_bind_of_yields {α β : Type} {x : Run α} {f : α → Run β} {h h₁ : Host} {a : α}
    (hy : Yields x h a h₁) : (x >>= f).run.run h = (f a).run.run h₁ := by
  rw [ExceptT.run_bind, StateT.run_bind, show x.run.run h = (.ok a, h₁) from hy]
  rfl

/-- A document among those that have been written could be written at its time. -/
theorem exists_saveDocument_of_writeEach {dir : Path} {docs : List Document} {h h' : Host}
    {u : Unit} (hy : Yields (writeEach dir docs) h u h') {doc : Document} (hdoc : doc ∈ docs) :
    ∃ later after, later.cwd = h.disk.cwd ∧ h.disk.tree.Grows later.tree ∧
      saveDocument later dir doc none = .ok after := by
  induction docs generalizing h with
  | nil => cases hdoc
  | cons first docs ih =>
    obtain rfl | hdoc := List.mem_cons.1 hdoc
    · rw [writeEach] at hy
      obtain ⟨_, h₁, hchange, -⟩ := yields_bind.1 hy
      obtain ⟨disk, hsave, -⟩ := yields_change.1 hchange
      exact ⟨h.disk, disk, rfl, fun _ _ hk => hk, hsave⟩
    · obtain ⟨h₁, hwrote, hrest⟩ := yields_writeEach_cons hy
      obtain ⟨later, after, hcwd, hgrows, hsave⟩ := ih hrest hdoc
      have hfirst := hwrote.kept.disk
      exact ⟨later, after, hcwd.trans hfirst.cwd, fun place k hk =>
        hgrows place k (hfirst.grows place k hk), hsave⟩

/-- One document is written if it can be saved. -/
theorem exists_yields_writeEach_one {dir : Path} {doc : Document} {h : Host} {disk : Disk}
    (hsave : saveDocument h.disk dir doc none = .ok disk) :
    ∃ h', Yields (writeEach dir [doc]) h () h' := by
  have hchange : Yields (change fun d => saveDocument d dir doc none) h ()
      { h with disk := disk } := yields_change.2 ⟨disk, hsave, rfl⟩
  obtain ⟨h', hsend⟩ : ∃ h', Yields (sendAll [savedNote (documentPath dir doc.name)])
      { h with disk := disk } () h' := ⟨_, yields_sendAll.2 rfl⟩
  exact ⟨h', yields_bind.2 ⟨_, _, hchange, yields_bind.2 ⟨_, _, hsend, yields_pure.2 ⟨rfl, rfl⟩⟩⟩⟩

/-- Writing documents one by one ends with a line that is printed, and nothing else. -/
theorem exists_yields_writeDocuments {s : Settings} (heach : s.singleFile = false) {dir : Path}
    {docs : List Document} {h h₁ : Host} (hy : Yields (writeEach dir docs) h () h₁) :
    ∃ h₂, h₂.toOutlets = h₁.toOutlets ∧ Yields (writeDocuments s dir docs) h () h₂ := by
  obtain ⟨h₂, hprint⟩ : ∃ h₂, Yields (print ("Generated documentation for " ++ docs.length.repr ++
      " components in " ++ shown h.disk.cwd dir)) h₁ () h₂ := ⟨_, yields_modify.2 rfl⟩
  refine ⟨h₂, toOutlets_of_yields_print hprint, yields_bind.2 ⟨h, h, yields_get.2 ⟨rfl, rfl⟩, ?_⟩⟩
  dsimp only
  rw [if_neg (by simp [heach])]
  exact yields_bind.2 ⟨(), h₁, hy, hprint⟩

/-- The settings that ask for one component. -/
def Settings.forOne (s : Settings) (name : String) : Settings :=
  { s with all := false, component? := some name }

/-- The settings that ask for all components. -/
def Settings.forAll (s : Settings) : Settings :=
  { s with all := true, component? := none }

/-- **A document can be saved** where it belongs. -/
def CanSave (o : Log.Outlets) (dir : Path) (doc : Document) : Prop :=
  ∃ disk, saveDocument o.disk dir doc none = .ok disk

/-- Records do not get in the way of a document. -/
theorem CanSave.sendAll {o : Log.Outlets} {dir : Path} {doc : Document} (h : CanSave o dir doc)
    (hready : o.Ready) (hslash : '/' ∉ doc.name.toList) (rs : List Log.Record) :
    CanSave (o.sendAll rs) dir doc := by
  obtain ⟨disk, hsave⟩ := h
  exact exists_saveDocument_of_grows (o.kept_sendAll rs).disk.cwd.symm
    (grows_sendAll_back hready rs) hslash hsave

/-- What is left to do when the documents have been written. -/
def fetchAfter (web : Manual.Web) (l : Library) (s : Settings) (dir : Path) (docs : List Document) :
    Run Unit :=
  if s.fetchDocs then fetchManual web l.config.manual dir docs else pure ()

section Generate

variable (web : Manual.Web) {l : Library} {s : Settings} {h : Host} {cs : List Candidate}
  {c : Candidate} {doc : Document}

/-- Where the documents go is known when a command begins. -/
theorem run_generate (s : Settings) (h : Host) :
    (generate web l s).run.run h = (do
      let docs ← documents l s
      writeDocuments s (argumentPath h.disk s.output) docs
      fetchAfter web l s (argumentPath h.disk s.output) docs : Run Unit).run.run h :=
  run_bind_of_yields (yields_get.2 ⟨rfl, rfl⟩)

/-- **The document of the first component of a name is written**, if it can be. -/
theorem exists_run_generate_one (hcs : Gives l l.findComponents (.ok cs)) (hfirst : IsFirst cs c)
    (hdoc : l.documentOf c = some doc) (heach : s.singleFile = false)
    (hsave : ∀ rs, CanSave (h.toOutlets.sendAll rs) (argumentPath h.disk s.output) doc) :
    ∃ rs h₁ h₂, Yields (writeEach (argumentPath h.disk s.output) [doc])
        { h with toOutlets := h.toOutlets.sendAll rs } () h₁ ∧
      h₂.toOutlets = h₁.toOutlets ∧ (generate web l (s.forOne c.name)).run.run h =
        (fetchAfter web l s (argumentPath h.disk s.output) [doc]).run.run h₂ := by
  obtain ⟨rs, hmade⟩ := yields_oneDocument hcs hfirst hdoc h
  obtain ⟨disk, hdisk⟩ := hsave rs
  have hdocuments : Yields (documents l (s.forOne c.name)) h [doc]
      { h with toOutlets := h.toOutlets.sendAll rs } :=
    yields_bind.2 ⟨_, _, hmade, yields_pure.2 ⟨rfl, rfl⟩⟩
  obtain ⟨h₁, hwrite⟩ := exists_yields_writeEach_one
    (h := { h with toOutlets := h.toOutlets.sendAll rs }) hdisk
  obtain ⟨h₂, hprinted, hwritten⟩ :=
    exists_yields_writeDocuments (s := s.forOne c.name) heach hwrite
  refine ⟨rs, h₁, h₂, hwrite, hprinted, ?_⟩
  rw [run_generate, run_bind_of_yields hdocuments]
  exact run_bind_of_yields hwritten

/-- What comes after the documents changes no JSON file. -/
theorem leaves_fetchAfter_json (dir : Path) (docs : List Document) :
    Leaves (KeptBut fun place => ¬IsJson place) (fetchAfter web l s dir docs) := by
  unfold fetchAfter
  split
  · exact leaves_fetchManual_json web _ dir docs
  · exact leaves_pure (frame_keptBut _) ()

theorem isJson_documentPath (d : Disk) (dir : Path) (name : String) :
    IsJson (d.place (documentPath dir name)) :=
  d.exists_place_child isEnding_json dir name

/-- **What stands in the file of the first component of a name.** -/
theorem content?_generate_first (hcs : Gives l l.findComponents (.ok cs)) (hfirst : IsFirst cs c)
    (hdoc : l.documentOf c = some doc) (heach : s.singleFile = false)
    (hsave : ∀ rs, CanSave (h.toOutlets.sendAll rs) (argumentPath h.disk s.output) doc)
    (hlog : ¬h.toOutlets.IsLog
      (h.disk.place (documentPath (argumentPath h.disk s.output) doc.name))) :
    ((generate web l (s.forOne c.name)).run.run h).2.disk.content?
        (h.disk.place (documentPath (argumentPath h.disk s.output) doc.name)) =
      some (encode (documentText doc)) := by
  obtain ⟨rs, h₁, h₂, hwrite, hprinted, hrun⟩ :=
    exists_run_generate_one web hcs hfirst hdoc heach hsave
  have hsent := h.toOutlets.kept_sendAll rs
  have hwritten := kept_writeEach hwrite
  have hplace := hsent.disk.place (documentPath (argumentPath h.disk s.output) doc.name)
  have hcontent := content?_writeEach hwrite (List.mem_singleton_self doc)
    (by rw [hplace]; exact fun hl => hlog ((hsent.isLog_iff _).1 hl))
    (fun doc' hdoc' _ => by rw [List.mem_singleton.1 hdoc'])
  rw [hrun, (leaves_fetchAfter_json web _ _ h₂).disk.kept]
  · rwa [hprinted, ← hplace]
  · rintro (hl | hl)
    · rw [hprinted, hwritten.isLog_iff, hsent.isLog_iff] at hl
      exact hlog hl
    · exact hl (isJson_documentPath _ _ _)

/-- A frame that each document keeps is kept by all of them. -/
theorem leaves_writeDocuments {P : Log.Outlets → Log.Outlets → Prop} (hP : Frame P)
    (heach : s.singleFile = false) {dir : Path} {docs : List Document}
    (hsave : ∀ doc ∈ docs, ∀ (o : Log.Outlets) disk, saveDocument o.disk dir doc none = .ok disk →
      P o { o with disk := disk }) : Leaves P (writeDocuments s dir docs) := by
  refine leaves_bind hP (leaves_get hP) fun _ => ?_
  dsimp only
  rw [if_neg (by simp [heach])]
  exact leaves_bind hP (leaves_writeEach hP hsave) fun _ => leaves_print hP _

/-- A document of another name leaves the file of a component alone. -/
theorem keptBut_saveDocument {name : String} (hne : doc.name ≠ name)
    (hslash : '/' ∉ doc.name.toList) (hslash' : '/' ∉ name.toList) (d : Disk) {dir : Path}
    {o : Log.Outlets} {disk : Disk} (hsave : saveDocument o.disk dir doc none = .ok disk) :
    KeptBut (· ≠ d.place (documentPath dir name)) o { o with disk := disk } := by
  refine (saved_of_saveDocument hsave).kept.mono fun place hplace => .inr fun heq => ?_
  exact hne (name_eq_of_place_documentPath hslash hslash' (hplace.symm.trans heq))

/-- **The file of another component stays as it was.** -/
theorem content?_generate_other (hcs : Gives l l.findComponents (.ok cs)) {other : Candidate}
    (hother : (cs.find? fun c' => lower c'.name == lower c.name) = some other)
    (hne : other.name ≠ c.name) (hnames : isEntryName other.name = true ∧ isEntryName c.name = true)
    (heach : s.singleFile = false)
    (hlog : ¬h.toOutlets.IsLog
      (h.disk.place (documentPath (argumentPath h.disk s.output) c.name))) :
    ((generate web l (s.forOne c.name)).run.run h).2.disk.content?
        (h.disk.place (documentPath (argumentPath h.disk s.output) c.name)) =
      h.disk.content? (h.disk.place (documentPath (argumentPath h.disk s.output) c.name)) := by
  rw [run_generate, show (s.forOne c.name).output = s.output from rfl]
  -- the directory and the place are what they are, whatever the parts of the run do
  generalize argumentPath h.disk s.output = dir at hlog ⊢
  have hP := frame_keptBut (· ≠ h.disk.place (documentPath dir c.name))
  refine (leaves_bind_of hP (leaves_documents hP l _) (fun docs _ _ hy => ?_) h).disk.kept _
    (by simpa using hlog)
  obtain ⟨doc, _, hmade, hpure⟩ := yields_bind.1 hy
  obtain ⟨rfl, -⟩ := yields_pure.1 hpure
  obtain ⟨c', hc', hdoc⟩ := documentOf_of_yields_oneDocument hcs hmade
  obtain rfl : other = c' := Option.some.inj (hother.symm.trans hc')
  obtain ⟨hempty, -, -, hslash, -⟩ := isEntryName_iff.1 hnames.1
  obtain ⟨-, -, -, hslash', -⟩ := isEntryName_iff.1 hnames.2
  have hname : doc.name = other.name := name_of_documentOf hdoc fun _ => hempty
  rw [← hname] at hne hslash
  refine leaves_bind hP (leaves_writeDocuments hP heach fun doc' hdoc' o disk hsave => ?_)
    fun _ h' => (leaves_fetchAfter_json web dir _ h').mono fun place =>
      .imp_right fun hjson heq => ?_
  · obtain rfl := List.mem_singleton.1 hdoc'
    exact keptBut_saveDocument hne hslash hslash' h.disk hsave
  · exact hjson (heq ▸ isJson_documentPath h.disk dir c.name)

/-- A command for the first component of a name ends well, if no texts of the manual follow. -/
theorem exists_yields_generate_first (hcs : Gives l l.findComponents (.ok cs))
    (hfirst : IsFirst cs c) (hdoc : l.documentOf c = some doc) (heach : s.singleFile = false)
    (hsave : ∀ rs, CanSave (h.toOutlets.sendAll rs) (argumentPath h.disk s.output) doc)
    (hfetch : s.fetchDocs = false) :
    ∃ h', Yields (generate web l (s.forOne c.name)) h () h' := by
  obtain ⟨-, -, h₂, -, -, hrun⟩ := exists_run_generate_one web hcs hfirst hdoc heach hsave
  rw [fetchAfter, if_neg (by simp [hfetch])] at hrun
  exact ⟨h₂, hrun⟩

section All

variable {docs : List Document} {h' : Host}

/-- Of all documents that have been written, each could be saved at the beginning. -/
theorem canSave_of_all {web : Manual.Web} (heach : s.singleFile = false)
    (hy : Yields (generate web l s.forAll) h () h') (hdocs : l.allDocuments.fresh = .ok docs)
    (hdoc : doc ∈ docs) (hslash : '/' ∉ doc.name.toList) :
    CanSave h.toOutlets (argumentPath h.disk s.output) doc := by
  obtain ⟨docs', rs, h₁, h₂, hdocs', hsent, hwrite, -⟩ :=
    yields_generate_each (s := s.forAll) rfl heach hy
  obtain rfl : docs' = docs := Except.ok.inj (hdocs'.symm.trans hdocs)
  obtain ⟨later, after, hcwd, hgrows, hsave⟩ := exists_saveDocument_of_writeEach hwrite hdoc
  rw [hsent] at hcwd hgrows
  have hsent := (h.toOutlets.kept_sendAll rs).disk
  exact exists_saveDocument_of_grows (hcwd.trans hsent.cwd)
    (fun place k hk => hgrows place k (hsent.grows place k hk)) hslash hsave

/-- **What stands in the file of a document when all have been written.** -/
theorem content?_generate_all {web : Manual.Web} (heach : s.singleFile = false)
    (hy : Yields (generate web l s.forAll) h () h') (hdocs : l.allDocuments.fresh = .ok docs)
    (hdoc : doc ∈ docs)
    (hlog : ¬h.toOutlets.IsLog
      (h.disk.place (documentPath (argumentPath h.disk s.output) doc.name)))
    (hsame : ∀ doc' ∈ docs, h.disk.place (documentPath (argumentPath h.disk s.output) doc'.name) =
      h.disk.place (documentPath (argumentPath h.disk s.output) doc.name) →
        doc'.toJson = doc.toJson) :
    h'.disk.content? (h.disk.place (documentPath (argumentPath h.disk s.output) doc.name)) =
      some (encode (documentText doc)) := by
  obtain ⟨docs', rs, h₁, h₂, hdocs', hsent, hwrite, hfollowed⟩ :=
    yields_generate_each (s := s.forAll) rfl heach hy
  obtain rfl : docs' = docs := Except.ok.inj (hdocs'.symm.trans hdocs)
  have hkept := h.toOutlets.kept_sendAll rs
  rw [← hsent] at hkept
  have hcontent := content?_of_followed hwrite hfollowed hdoc
  simp only [hkept.disk.place, hkept.isLog_iff] at hcontent
  exact hcontent hlog hsame

/-- **A file is as it was or has been given one text**, unless it is the log file. Paths are read
from the same directory throughout. -/
structure KeptOr (cwd : Path) (place : List String) (text : List UInt8) (o o' : Log.Outlets) :
    Prop where
  kept : KeptBut (fun _ => True) o o'
  content?_eq : o.disk.cwd = cwd → ¬o.IsLog place →
    o'.disk.content? place = o.disk.content? place ∨ o'.disk.content? place = some text

/-- What leaves a file alone leaves it as it was. -/
theorem KeptOr.of_keptBut {cwd : Path} {place : List String} {text : List UInt8}
    {w : List String → Prop} {o o' : Log.Outlets} (hw : ¬w place) (h : KeptBut w o o') :
    KeptOr cwd place text o o' where
  kept := h.mono fun _ => .imp_right fun _ => trivial
  content?_eq _ hlog := .inl (h.disk.kept place (not_or.2 ⟨hlog, hw⟩))

/-- To be as it was or to have the text goes from one part of a run to the next. -/
theorem frame_keptOr (cwd : Path) (place : List String) (text : List UInt8) :
    Frame (KeptOr cwd place text) where
  refl o := .of_keptBut not_false ((frame_keptBut fun _ => False).refl o)
  trans h h' := by
    refine ⟨(frame_keptBut _).trans h.kept h'.kept, fun hcwd hlog => ?_⟩
    -- a text that has been given is the one that is there or is given again
    rcases h'.content?_eq (h.kept.disk.cwd.trans hcwd)
      (fun hl => hlog ((h.kept.isLog_iff place).1 hl)) with hsame | htext
    · rw [hsame]
      exact h.content?_eq hcwd hlog
    · exact .inr htext
  console o text := .of_keptBut not_false ((frame_keptBut fun _ => False).console o text)
  sendAll o rs := .of_keptBut not_false ((frame_keptBut fun _ => False).sendAll o rs)

/-- **What stands in the file of a document, whichever way a command for all ends.** -/
theorem content?_generate_all_or (heach : s.singleFile = false)
    (hdocs : l.allDocuments.fresh = .ok docs) (doc : Document)
    (hlog : ¬h.toOutlets.IsLog
      (h.disk.place (documentPath (argumentPath h.disk s.output) doc.name)))
    (hsame : ∀ doc' ∈ docs, h.disk.place (documentPath (argumentPath h.disk s.output) doc'.name) =
      h.disk.place (documentPath (argumentPath h.disk s.output) doc.name) →
        doc'.toJson = doc.toJson) :
    ((generate web l s.forAll).run.run h).2.disk.content?
        (h.disk.place (documentPath (argumentPath h.disk s.output) doc.name)) =
      h.disk.content? (h.disk.place (documentPath (argumentPath h.disk s.output) doc.name)) ∨
    ((generate web l s.forAll).run.run h).2.disk.content?
        (h.disk.place (documentPath (argumentPath h.disk s.output) doc.name)) =
      some (encode (documentText doc)) := by
  rw [run_generate, show s.forAll.output = s.output from rfl]
  generalize argumentPath h.disk s.output = dir at hlog hsame ⊢
  have hjson := isJson_documentPath h.disk dir doc.name
  generalize hplace : h.disk.place (documentPath dir doc.name) = place at hlog hsame hjson ⊢
  have hP := frame_keptOr h.disk.cwd place (encode (documentText doc))
  refine (leaves_bind_of hP (leaves_documents hP l _) (fun docs' _ _ hy => ?_) h).content?_eq rfl
    hlog
  have hdocs' := (yields_documents_all (s := s.forAll) rfl hy).1
  obtain rfl : docs' = docs := Except.ok.inj (hdocs'.symm.trans hdocs)
  refine leaves_bind hP (leaves_writeDocuments hP heach fun doc' hdoc' o disk hsave => ?_)
    fun _ h' => .of_keptBut (not_not_intro hjson) (leaves_fetchAfter_json web dir _ h')
  have hsaved := saved_of_saveDocument hsave
  refine ⟨hsaved.kept.mono fun _ _ => .inr trivial, fun hcwd _ => ?_⟩
  have hread (p : Path) : o.disk.place p = h.disk.place p := by
    rw [Disk.place, Disk.place, Disk.resolve, Disk.resolve, hcwd]
  by_cases hown : h.disk.place (documentPath dir doc'.name) = place
  · have hcontent := hsaved.content?_eq
    rw [hread, hown, documentText, hsame doc' hdoc' hown] at hcontent
    exact .inr hcontent
  · exact .inl (hsaved.kept.disk.kept place fun heq => hown (by rw [heq, hread]))

end All

end Generate

theorem openLibrary_forOne (s : Settings) (name : String) :
    openLibrary (s.forOne name) = openLibrary s := by
  simp only [openLibrary, routeLog, configuration, configPath, Settings.forOne]

theorem openLibrary_forAll (s : Settings) : openLibrary s.forAll = openLibrary s := by
  simp only [openLibrary, routeLog, configuration, configPath, Settings.forAll]

/-- A run does what its task does with the library that it opens. -/
theorem run_eq {web : Manual.Web} {words : List String} {task : Task} {s : Settings} {d : Disk}
    {l : Library} {h : Host} (hparse : parse words = .ok (task, s))
    (hopen : Yields (openLibrary s) { disk := d } l h) :
    (run web words d).2 = ((performOn web task s l).run.run h).2 := by
  have hrun := run_bind_of_yields (f := performOn web task s) hopen
  rw [← perform_eq_bind, ← carryOut_eq hparse] at hrun
  rw [← hrun]
  unfold run
  split <;> rename_i heq <;> exact congrArg Prod.snd heq.symm

/-- A command for all components that ends well has opened a library. -/
theorem exists_generate_all {web : Manual.Web} {words : List String} {d : Disk} {s : Settings}
    {h : Host} (hparse : parse words = .ok (.generate, s.forAll))
    (hrun : run web words d = (none, h)) :
    ∃ l h₀, Yields (openLibrary s) { disk := d } l h₀ ∧
      Yields (generate web l s.forAll) h₀ () h := by
  have hy := (run_eq_none_iff hparse).1 hrun
  rw [perform_eq_bind, openLibrary_forAll] at hy
  exact yields_bind.1 hy

/-- **One component or all of them.** A command for all components of a library opens it and makes
their documents before it ends well. Whichever way it ends, what it has written into the file of a
component is the text of its document. The command for that component, by its name, writes the same
text if only this document can be saved, exactly if the component is the first one of its name.
Otherwise it leaves that file alone. -/
theorem generate_one_eq_all (web : Manual.Web) {words wordsAll : List String} {d : Disk}
    {s : Settings} {c : Candidate}
    (hone : parse words = .ok (.generate, s.forOne c.name))
    (hall : parse wordsAll = .ok (.generate, s.forAll)) (heach : s.singleFile = false) :
    ((run web wordsAll d).1 = none → ∃ o l cs docs, Opens d s o l ∧
      l.findComponents.fresh = .ok cs ∧ l.allDocuments.fresh = .ok docs) ∧
    ∀ o l cs docs, Opens d s o l → l.findComponents.fresh = .ok cs →
      l.allDocuments.fresh = .ok docs → l.disk.tree.isWellNamed = true →
      c ∈ cs → c.aliasOf? = none → ∀ doc ∈ docs, doc.name = c.name → ∀ place,
        place = d.place (documentPath (argumentPath d s.output) c.name) →
        (∀ file ∈ s.logFile?, place ≠ d.place file) →
        (∀ doc' ∈ docs, d.place (documentPath (argumentPath d s.output) doc'.name) = place →
          doc'.toJson = doc.toJson) →
        ((run web wordsAll d).2.disk.content? place = d.content? place ∨
          (run web wordsAll d).2.disk.content? place = some (encode (documentText doc))) ∧
        ((run web wordsAll d).1 = none →
          (run web wordsAll d).2.disk.content? place = some (encode (documentText doc)) ∧
          CanSave o (argumentPath d s.output) doc) ∧
        (IsFirst cs c → CanSave o (argumentPath d s.output) doc →
          (run web words d).2.disk.content? place = some (encode (documentText doc)) ∧
          (s.fetchDocs = false → (run web words d).1 = none)) ∧
        (¬IsFirst cs c → (run web words d).2.disk.content? place = d.content? place) := by
  constructor
  · intro hnone
    obtain ⟨l, h₀, hopen, hy⟩ := exists_generate_all hall (Prod.fst_eq_iff.1 hnone)
    obtain ⟨docs, -, -, -, hdocs, -⟩ := yields_generate_each (s := s.forAll) rfl heach hy
    obtain ⟨cs, hcs⟩ := exists_findComponents_of_allDocuments hdocs
    exact ⟨_, l, cs, docs, (yields_openLibrary.1 hopen).1, hcs, hdocs⟩
  intro o l cs docs hopens hcs hdocs hnamed hc hconcrete doc hdoc hname place hown hlog hsame
  obtain ⟨hcatalogued, hnames⟩ := catalogued_of_findComponents hnamed hcs
  have hgives := (steady_findComponents l).of_eq hcs
  have hentry := hnames c hc hconcrete
  obtain ⟨-, -, -, hslash, -⟩ := isEntryName_iff.1 hentry
  have hmade := documentOf_of_mem hnamed hcs hdocs hc hdoc hname
  -- the paths mean the same before and after the log has been routed
  have hrouted := routed_configure hopens.routed
  have hdir := argumentPath_of_changed hrouted.changed s.output
  have hplace := hrouted.changed.place
  have hlog' : ¬o.IsLog place := by
    intro hislog
    obtain ⟨file, hfile, heq⟩ := hrouted.exists_of_isLog hislog
    exact hlog file hfile heq
  have hbefore : o.disk.content? place = d.content? place := hrouted.changed.kept _ hlog'
  have hopen : Yields (openLibrary s) { disk := d } l { toOutlets := o } :=
    yields_openLibrary.2 ⟨hopens, rfl⟩
  have hopen' : Yields (openLibrary (s.forOne c.name)) { disk := d } l { toOutlets := o } := by
    rw [openLibrary_forOne]
    exact hopen
  have hhost : (run web words d).2 =
      ((generate web l (s.forOne c.name)).run.run { toOutlets := o }).2 := run_eq hone hopen'
  refine ⟨?_, fun hnone => ?_, fun hfirst hsave => ?_, fun hfirst => ?_⟩
  · have hopenAll : Yields (openLibrary s.forAll) { disk := d } l { toOutlets := o } := by
      rw [openLibrary_forAll]
      exact hopen
    have hhost : (run web wordsAll d).2 =
        ((generate web l s.forAll).run.run { toOutlets := o }).2 := run_eq hall hopenAll
    have hor := content?_generate_all_or web (h := { toOutlets := o }) heach hdocs doc
    simp only [hdir, hplace, hname, ← hown] at hor
    rw [hhost, ← hbefore]
    exact hor hlog' hsame
  · obtain ⟨l', h₀, hopen', hy⟩ := exists_generate_all hall (Prod.fst_eq_iff.1 hnone)
    cases hopen'.symm.trans hopen
    have hwritten := content?_generate_all heach hy hdocs hdoc
    have hsave := canSave_of_all heach hy hdocs hdoc (hname ▸ hslash)
    simp only [hdir, hplace, hname, ← hown] at hwritten hsave
    exact ⟨hwritten hlog' hsame, hsave⟩
  · have hsave' (rs : List Log.Record) :
        CanSave (o.sendAll rs) (argumentPath o.disk s.output) doc := by
      rw [hdir]
      exact hsave.sendAll hrouted.ready (hname ▸ hslash) rs
    constructor
    · have hwritten := content?_generate_first web (h := { toOutlets := o }) hgives hfirst hmade
        heach hsave'
      simp only [hdir, hplace, hname, ← hown] at hwritten
      rw [hhost]
      exact hwritten hlog'
    · intro hfetch
      obtain ⟨h₂, hends⟩ := exists_yields_generate_first web (h := { toOutlets := o }) hgives
        hfirst hmade heach hsave' hfetch
      have hperform : Yields (perform web .generate (s.forOne c.name)) { disk := d } () h₂ := by
        rw [perform_eq_bind]
        exact yields_bind.2 ⟨l, _, hopen', hends⟩
      rw [(run_eq_none_iff hone).2 hperform]
  · obtain ⟨other, hmem, hconcrete', hne, hother⟩ :=
      exists_find?_of_not_isFirst hcatalogued hc hconcrete hfirst
    have hkept := content?_generate_other web (h := { toOutlets := o }) hgives hother hne
      ⟨hnames other hmem hconcrete', hentry⟩ heach
    simp only [hdir, hplace, ← hown] at hkept
    rw [hhost, ← hbefore]
    exact hkept hlog'

/-! ### Two names that differ in case -/

/-- A component in the working directory, with another one in it whose name differs in case. -/
def twoCases : Disk where
  tree := .directory
    [(".compdoc.yml", .file (encode "components: \x7binclude: [A, a]\x7d\n")),
    ("components", .directory [("A", .directory
      [("A.props.js.map", sourceMapFile "class AProps\x7bb\x7d"), ("a", .directory
        [("a.props.js.map", sourceMapFile "class AProps\x7bc\x7d")])])])]
  cwd := ⟨"/", []⟩
  home := ⟨"/", []⟩

/-- The two components as a library. -/
def twoCasesLibrary : Library where
  disk := twoCases
  path := ⟨"/", []⟩
  config := { includeComponents := ["A", "a"] }

/-- A command that writes the document of one component. -/
def oneWords (name : String) : List String :=
  ["generate", "--component", name, "-l", ".", "-o", "out"]

def upperCandidate : Candidate := ⟨"A", "/components/A", "A", none⟩

def lowerCandidate : Candidate := ⟨"a", "/components/A/a", "A", none⟩

/-- What is read and made of the two, and what the commands leave for the second one. -/
theorem run_twoCases :
    (Config.load twoCases (some ⟨"/", []⟩) = .ok twoCasesLibrary.config ∧
      twoCasesLibrary.findComponents.fresh = .ok [upperCandidate, lowerCandidate] ∧
      twoCasesLibrary.allDocuments.fresh.map (·.map Document.name) = .ok ["A", "a"]) ∧
    (run offline eachWords twoCases).1 = none ∧
      ((run offline eachWords twoCases).2.disk.content? ["out", "a.json"]).isSome = true ∧
      (run offline (oneWords "a") twoCases).1 = none ∧
      (run offline (oneWords "a") twoCases).2.disk.content? ["out", "a.json"] = none := by
  decide +kernel

theorem generate_one_eq_all_twoCases :
    (run offline (oneWords "A") twoCases).1 = none ∧
      ∃ doc, doc.name = "A" ∧
        (run offline (oneWords "A") twoCases).2.disk.content? ["out", "A.json"] =
          some (encode (documentText doc)) ∧
        (run offline eachWords twoCases).2.disk.content? ["out", "A.json"] =
          some (encode (documentText doc)) := by
  have hparse : parse (oneWords "A") = .ok (.generate, eachSettings.forOne "A") := rfl
  obtain ⟨⟨hload, hfound, hmade⟩, hrun, -⟩ := run_twoCases
  have hpath : ⟨"/", []⟩ = Path.resolve ⟨"/", []⟩ (Path.expandHome ⟨"/", []⟩ (Path.ofString ".")) :=
    by decide
  obtain ⟨hopens, hwritten⟩ := generate_one_eq_all offline (d := twoCases) (s := eachSettings)
    (c := upperCandidate) hparse parse_eachWords rfl
  obtain ⟨o, l, cs, docs, hopen, hcs, hdocs⟩ := hopens hrun
  obtain rfl : l = twoCasesLibrary := hopen.toReads.unique ⟨rfl, rfl, hpath, hload⟩
  obtain rfl := Except.ok.inj (hcs.symm.trans hfound)
  rw [hdocs] at hmade
  have hnames : docs.map Document.name = ["A", "a"] := Except.ok.inj hmade
  obtain ⟨doc, hdoc, hname⟩ : ∃ doc ∈ docs, doc.name = "A" :=
    List.mem_map.1 (hnames ▸ .head _)
  have hdest : ["out", "A.json"] =
      twoCases.place (documentPath (argumentPath twoCases "out") "A") := rfl
  have hsame : ∀ doc' ∈ docs,
      twoCases.place (documentPath (argumentPath twoCases "out") doc'.name) = ["out", "A.json"] →
        doc'.toJson = doc.toJson := by
    intro doc' hdoc' hplace
    have hslash : '/' ∉ doc'.name.toList := by
      have hname' : doc'.name ∈ ["A", "a"] := hnames ▸ List.mem_map_of_mem hdoc'
      revert hname'
      generalize doc'.name = name
      revert name
      decide
    have hname' := name_eq_of_place_documentPath hslash (by decide) (hplace.trans hdest)
    rw [List.inj_on_of_nodup_map (hnames ▸ by decide) hdoc' hdoc (hname'.trans hname.symm)]
  obtain ⟨-, hall, hone, -⟩ := hwritten o twoCasesLibrary _ docs hopen hfound hdocs (by decide)
    (.head _) rfl doc hdoc hname ["out", "A.json"] hdest nofun hsame
  obtain ⟨hwrittenAll, hsave⟩ := hall hrun
  obtain ⟨hwrittenOne, hends⟩ := hone ⟨[], [lowerCandidate], rfl, nofun⟩ hsave
  exact ⟨hends rfl, doc, hname, hwrittenOne, hwrittenAll⟩

/-- **A component that cannot be asked for by its name**: another one, whose name differs in case
only, comes before it. All documents include that of the component, but where it is asked for, the
command ends well without having written it. -/
theorem generate_one_twoCases :
    lowerCandidate ∈ [upperCandidate, lowerCandidate] ∧ lowerCandidate.aliasOf? = none ∧
      twoCasesLibrary.findComponents.fresh = .ok [upperCandidate, lowerCandidate] ∧
      (run offline eachWords twoCases).1 = none ∧
      ((run offline eachWords twoCases).2.disk.content? ["out", "a.json"]).isSome = true ∧
      (run offline (oneWords "a") twoCases).1 = none ∧
      (run offline (oneWords "a") twoCases).2.disk.content? ["out", "a.json"] = none :=
  ⟨.tail _ (.head _), rfl, run_twoCases.1.2.1, run_twoCases.2⟩

end Command

end ComponentCatalog
