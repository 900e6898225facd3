import ComponentCatalog.Proofs.Listing
import ComponentCatalog.Proofs.WrittenDocuments

/-!
# What an alias stands for

An alias is looked up in the list that it is then added to. So it may stand for an alias that
was added before, and never for one that comes later: following the names that aliases stand
for goes backwards in the list and ends at a component, which lies where all of them lie
(`Leads`). Nothing of this has to be read off the finished list. It holds of the list without
aliases and is kept by one more alias (`Registered.append_alias`), and with that by the whole
table of aliases.

The document of an alias is that of a component, made before it, under another name. Written
out, the two have the same fields, except for the name and for the description, which only an
alias has (`Document.toJson_renamed`).
-/

namespace ComponentCatalog

/-! ## Following aliases -/

/-- **Following the names that aliases stand for**, from a candidate to one that is no
alias. -/
inductive Leads (cs : List Candidate) : Candidate → Candidate → Prop where
  | here {c : Candidate} (h : c.aliasOf? = none) : Leads cs c c
  | on {c d e : Candidate} {source : String} (hsource : c.aliasOf? = some source)
      (hd : Library.named? cs source = some d) (hlead : Leads cs d e) : Leads cs c e

/-- A name that stands for a candidate goes on to do so when more are added at the end. -/
theorem named?_append {cs cs' : List Candidate} {name : String} {c : Candidate}
    (h : Library.named? cs name = some c) : Library.named? (cs ++ cs') name = some c := by
  unfold Library.named? at h ⊢
  rw [List.find?_append, h, Option.some_or]

/-- What comes later in a list is no detour. -/
theorem Leads.append {cs : List Candidate} {c e : Candidate} (h : Leads cs c e)
    (cs' : List Candidate) : Leads (cs ++ cs') c e := by
  induction h with
  | here h => exact .here h
  | on hsource hd _ ih => exact .on hsource (named?_append hd) ih

/-- **The rules for a list of candidates with aliases.** They add to those of `Catalogued` what
the order of the list has to do with aliases. -/
structure Registered (config : Config) (cs : List Candidate) : Prop extends Catalogued cs where
  /-- A component is one of those that are to be documented. -/
  allowed : ∀ c ∈ cs, c.aliasOf? = none → c.name ∈ config.includeComponents
  /-- What an alias stands for comes before it, and lies in the same place. -/
  stands_for : ∀ before c after, cs = before ++ c :: after → ∀ source ∈ c.aliasOf?,
    ∃ d ∈ before, d.name = source ∧ d.path = c.path ∧ d.category = c.category
  /-- Following aliases ends, at a component in the same place. -/
  leads : ∀ c ∈ cs, ∃ e ∈ cs, Leads cs c e ∧ e.aliasOf? = none
    ∧ e.path = c.path ∧ e.category = c.category

namespace Registered

variable {config : Config} {cs : List Candidate}

/-- Candidates that are no aliases are registered if their names are distinct and allowed. -/
theorem of_concrete (hn : (cs.map Candidate.name).Nodup) (hc : ∀ c ∈ cs, c.aliasOf? = none)
    (hallowed : ∀ c ∈ cs, c.name ∈ config.includeComponents) : Registered config cs where
  toCatalogued := .of_concrete hn hc
  allowed c hmem _ := hallowed c hmem
  stands_for before c after heq source hsource := by
    rw [hc c (heq ▸ List.mem_append_right _ List.mem_cons_self)] at hsource
    cases hsource
  leads c hmem := ⟨c, hmem, .here (hc c hmem), hc c hmem, rfl, rfl⟩

/-- **One more alias** keeps the rules, if it stands for a candidate and its name is free. -/
theorem append_alias (h : Registered config cs) {name source : String} {c : Candidate}
    (hsource : Library.named? cs source = some c) (hfree : Library.named? cs name = none) :
    Registered config (cs ++
      [{ name := name, path := c.path, category := c.category, aliasOf? := some source }]) where
  toCatalogued := h.toCatalogued.append_alias hsource hfree
  allowed d hd hnone := by
    rcases List.mem_append.1 hd with hd | hd
    · exact h.allowed d hd hnone
    · cases List.mem_singleton.1 hd
      cases hnone
  stands_for before d after heq source' hsource' := by
    obtain ⟨hmem, hname⟩ := mem_of_named? hsource
    rcases List.append_eq_append_iff.1 heq with ⟨between, rfl, hlast⟩ | ⟨between, hbefore, hlast⟩
    · -- the candidate is the new one, and all others come before it
      obtain ⟨rfl, hlast⟩ | ⟨_, -, hlast⟩ := List.cons_eq_append_iff.1 hlast
      · cases hlast
        cases hsource'
        exact ⟨c, List.mem_append_left _ hmem, hname, rfl, rfl⟩
      · simp at hlast
    · cases between with
      | nil =>
        cases hlast
        cases hsource'
        rw [List.append_nil] at hbefore
        exact ⟨c, hbefore ▸ hmem, hname, rfl, rfl⟩
      | cons d' between =>
        cases hlast
        exact h.stands_for before d between hbefore source' hsource'
  leads d hd := by
    rcases List.mem_append.1 hd with hd | hd
    · obtain ⟨e, he, hlead, hrest⟩ := h.leads d hd
      exact ⟨e, List.mem_append_left _ he, hlead.append _, hrest⟩
    · cases List.mem_singleton.1 hd
      obtain ⟨e, he, hlead, hrest⟩ := h.leads c (mem_of_named? hsource).1
      exact ⟨e, List.mem_append_left _ he, .on rfl (named?_append hsource) (hlead.append _), hrest⟩

end Registered

/-! ## Names of components -/

theorem Path.name_below (dir : Path) (name : String) : (dir.below name).name = name := by
  rw [Path.name, Path.below, List.getLast?_concat, Option.getD_some]

/-- The directories below one have the names of entries, and so has all that is in them. -/
theorem entry_of_mem_subdirectories {dir : Path} {t : FileTree} (ht : t.isWellNamed = true)
    {e : Path × FileTree} (he : e ∈ subdirectories dir t) :
    ∃ n, e.1 = dir.below n ∧ isEntryName n = true ∧ e.2.isWellNamed = true := by
  obtain ⟨entry, hentry, rfl⟩ := List.mem_map.1 he
  have hmem := List.mem_of_mem_filter (List.mem_mergeSort.1 hentry)
  cases t with
  | file bytes => exact absurd hmem List.not_mem_nil
  | directory es => exact ⟨entry.1, rfl, (FileTree.isWellNamed_directory_iff.1 ht).2 entry hmem⟩

/-- What the path of an entry has if that of its directory does, the paths of all directories of a
well-named tree have. -/
theorem forall_mem_inOrder {P : Path → Prop}
    (hbelow : ∀ dir n, P dir → isEntryName n = true → P (dir.below n))
    {enter : Path → FileTree → Bool} {dir : Path} {t : FileTree} (ht : t.isWellNamed = true)
    (hdir : P dir) : ∀ v ∈ t.inOrder enter dir, P v.1 := by
  cases hd : t.isDirectory with
  | false =>
    cases t with
    | file bytes => exact fun v hv => absurd hv List.not_mem_nil
    | directory es => cases hd
  | true =>
    rw [FileTree.inOrder_eq_cons enter dir hd]
    refine List.forall_mem_cons.2 ⟨hdir, fun v hv => ?_⟩
    split at hv
    · obtain ⟨e, he, hv⟩ := List.mem_flatMap.1 hv
      have := sizeOfAll_subdirectories_lt dir t
      have := sizeOf_le_sizeOfAll he
      obtain ⟨n, hpath, hname, hinner⟩ := entry_of_mem_subdirectories ht he
      exact forall_mem_inOrder hbelow hinner (hpath ▸ hbelow dir n hdir hname) v hv
    · exact absurd hv List.not_mem_nil
termination_by sizeOf t

section Names

variable {l : Library}

/-- The entries that groups are made of have names of entries and well-named trees. -/
theorem entry_of_mem_groupEntries (hnamed : l.disk.tree.isWellNamed = true)
    {e : String × FileTree} (he : e ∈ l.groupEntries) :
    isEntryName e.1 = true ∧ e.2.isWellNamed = true := by
  unfold Library.groupEntries Disk.directory? at he
  cases hfind : l.disk.find l.componentsPath with
  | error f =>
    rw [hfind] at he
    cases f <;> exact absurd he List.not_mem_nil
  | ok t =>
    rw [hfind] at he
    cases t with
    | file bytes => exact absurd he List.not_mem_nil
    | directory es =>
      have hwell := isWellNamed_of_find hnamed hfind
      exact (FileTree.isWellNamed_directory_iff.1 hwell).2 e (List.mem_mergeSort.1 he)

/-- What the path of an entry has if that of its directory does, the paths of all directories of
the groups have. -/
theorem forall_mem_directories (P : Path → Prop)
    (hbelow : ∀ dir n, P dir → isEntryName n = true → P (dir.below n))
    (hnamed : l.disk.tree.isWellNamed = true) (hroot : P l.componentsPath) :
    ∀ v ∈ l.directories, P v.1 := by
  intro v hv
  obtain ⟨e, he, hv⟩ := List.mem_flatMap.1 hv
  obtain ⟨u, hu, rfl⟩ := List.mem_map.1 hv
  obtain ⟨hname, hinner⟩ := entry_of_mem_groupEntries hnamed (List.mem_of_mem_filter he)
  exact forall_mem_inOrder hbelow hinner (hbelow _ _ hroot hname) u hu

/-- Candidates that are met on the way through a well-named tree have the names of entries. -/
theorem ensures_walkCandidates_named (h : l.Searchable)
    (hnamed : l.disk.tree.isWellNamed = true) :
    Ensures (fun cs => ∀ c ∈ cs, isEntryName c.name = true) l.walkCandidates := by
  intro s cs hcs c hc
  rw [Library.result_walkCandidates h s] at hcs
  cases hcs
  obtain ⟨v, hv, rfl⟩ := List.mem_map.1 (mem_of_mem_firstOfEachName _ hc)
  have hnames : ∀ v ∈ l.directories, isEntryName v.1.name = true := by
    refine forall_mem_directories (fun p => isEntryName p.name = true)
      (fun dir n _ hname => ?_) hnamed ?_
    · rw [Path.name_below]
      exact hname
    · have hcomponents : l.componentsPath = l.path.below "components" :=
        Path.child_eq_below _ (by decide) (by decide) (by decide)
      rw [hcomponents, Path.name_below]
      decide
  exact hnames v (List.mem_of_mem_filter hv)

/-- **Finding components succeeds**, with a list that keeps to the rules and in which every
component has a name that an entry can have, if nothing ends the search for them. -/
theorem succeeds_findComponents_entries (h : l.Searchable)
    (hnamed : l.disk.tree.isWellNamed = true) :
    Succeeds (fun cs => Registered l.config cs ∧
      ∀ c ∈ cs, c.aliasOf? = none → isEntryName c.name = true) l.findComponents := by
  have hwalk : Succeeds (fun cs => ((cs.map Candidate.name).Nodup ∧ ∀ c ∈ cs, c.aliasOf? = none)
      ∧ ∀ c ∈ cs, isEntryName c.name = true) l.walkCandidates := by
    intro s
    obtain ⟨cs, hcs, hrules⟩ := succeeds_walkCandidates h s
    exact ⟨cs, hcs, hrules, ensures_walkCandidates_named h hnamed s cs hcs⟩
  refine hwalk.bind fun cs hcs => succeeds_withAliases_of ?_ _ ⟨?_, fun c hc _ => ?_⟩
  · rintro cs name source c ⟨hrules, hnames⟩ hsource hfree
    refine ⟨hrules.append_alias hsource hfree, fun d hd hnone => ?_⟩
    rcases List.mem_append.1 hd with hd | hd
    · exact hnames d hd hnone
    · cases List.mem_singleton.1 hd
      cases hnone
  · refine .of_concrete (hcs.1.1.sublist (List.filter_sublist.map _))
      (fun c hc => hcs.1.2 c (List.mem_of_mem_filter hc)) fun c hc => ?_
    simpa using (List.mem_filter.1 hc).2
  · exact hcs.2 c (List.mem_of_mem_filter hc)

/-- A search that can be made gives candidates that the configuration registers. -/
theorem succeeds_findComponents_registered (h : l.Searchable)
    (hnamed : l.disk.tree.isWellNamed = true) :
    Succeeds (fun cs => Registered l.config cs ∧ ∀ c ∈ cs, c.aliasOf? = none → c.name ≠ "")
      l.findComponents :=
  (succeeds_findComponents_entries h hnamed).mono fun _ ⟨hrules, hnames⟩ =>
    ⟨hrules, fun c hc hnone => (isEntryName_iff.1 (hnames c hc hnone)).1⟩

end Names

/-! ## The document of an alias -/

namespace Component

/-- The fields of a written document that are neither its name nor its description. -/
def sharedFields (c : Component) : List (String × Json) :=
  [("componentPath", .text c.path), ("category", .text c.category),
      ("props", .array (c.props.map Property.toJson)),
      ("methods", .array (c.methods.map Method.toJson)),
      ("events", .array (c.events.map Event.toJson)),
      ("styles", .array (c.styles.map Style.toJson))] ++ Json.unlessEmpty "baseClass" c.base? ++
    (if c.children.isEmpty then [] else [("children", .array (allToJson c.children))])

/-- Without a description, a document is its name and then what an alias shares with it. -/
theorem toJson_eq_sharedFields {c : Component} (h : c.description? = none) :
    c.toJson = .ofFields (("componentName", .text c.name) :: c.sharedFields) := by
  cases c
  cases h
  rw [toJson, sharedFields, Json.unlessEmpty.eq_def "description"]
  simp

/-- The name and the description are not among the fields that are shared. -/
theorem ne_of_mem_sharedFields {c : Component} {f : String × Json} (h : f ∈ c.sharedFields) :
    f.1 ≠ "componentName" ∧ f.1 ≠ "description" := by
  have hkey : f.1 ∈ ["componentPath", "category", "props", "methods", "events", "styles",
      "baseClass", "children"] := by
    rw [sharedFields, Json.unlessEmpty_eq] at h
    rcases List.mem_append.1 h with h | h
    · rcases List.mem_append.1 h with h | h
      · have := List.mem_map_of_mem (f := Prod.fst) h
        simp only [List.map_cons, List.map_nil, List.mem_cons] at this ⊢
        tauto
      · obtain ⟨s, -, rfl⟩ := Option.map_eq_some_iff.1 (Option.mem_toList.1 h)
        simp
    · split at h
      · cases h
      · cases List.mem_singleton.1 h
        simp
  constructor <;> (intro heq; rw [heq] at hkey; simp at hkey)

end Component

namespace Json

variable {key : String} {fields : List (String × Json)}

/-- Setting the first field of an object changes its value and nothing else. -/
theorem withField_ofFields_cons (v w : Json) :
    (ofFields ((key, w) :: fields)).withField key v = ofFields ((key, v) :: fields) := by
  simp [withField, ofFields, putField]

/-- A field with a new key comes last. -/
theorem withField_ofFields_of_not_mem (h : ∀ f ∈ fields, f.1 ≠ key) (v : Json) :
    (ofFields fields).withField key v = ofFields (fields ++ [(key, v)]) := by
  unfold withField ofFields
  dsimp only
  rw [putField_of_not_mem, List.map_append]
  · rfl
  · simpa [Text.Wide.ofString_inj] using fun v' hmem => h (key, v') hmem rfl

end Json

/-- **An alias is written like its source**, under its own name, with its description last. -/
theorem Document.toJson_renamed {source : Component} (h : source.description? = none)
    (name description : String) :
    (Document.renamed name source description).toJson = .ofFields
      (("componentName", .text name) :: source.sharedFields
        ++ [("description", .text description)]) := by
  rw [toJson, Component.toJson_eq_sharedFields h, Json.withField_ofFields_cons,
    Json.withField_ofFields_of_not_mem]
  refine List.forall_mem_cons.2 ⟨by simp, fun f hf => ?_⟩
  exact (Component.ne_of_mem_sharedFields hf).2

/-- **The document of an alias**, given the candidates and the documents before it: it shows a
component of which there is a document, and which has the name that the alias stands for. -/
structure TakenOver (cs : List Candidate) (before : List Document) (name : String)
    (source : Component) (description : String) : Prop where
  made_before : .component source ∈ before
  stands_for : ∃ c ∈ cs, c.name = name ∧ c.aliasOf? = some source.name
  /-- Written out, the two differ in the name and in the description. -/
  written : ∃ fields, (∀ f ∈ fields, f.1 ≠ "componentName" ∧ f.1 ≠ "description")
    ∧ source.toJson = .ofFields (("componentName", .text source.name) :: fields)
    ∧ (Document.renamed name source description).toJson = .ofFields
        (("componentName", .text name) :: fields ++ [("description", .text description)])

section Documents

variable (l : Library)

/-- What a document that is made for a component is called, and that it has no description. -/
theorem ensures_assemble_named (make : List Path → Path → Catalog (Option Component)) (dir : Path)
    (category : String) {name : String} (hname : name ≠ "") (ancestry : List Path) :
    Ensures (fun c? => ∀ c ∈ c?, c.name = name ∧ c.description? = none)
      (l.assemble make dir category (some name) ancestry) := by
  unfold Library.assemble
  refine .then_of fun sources => ?_
  split
  · exact .then_of fun _ => .pure nofun
  · refine .then_of fun _ => .then_of fun _ => .then_of fun _ => .then_of fun _ => ?_
    refine .then_of fun _ => .pure fun c hc => ?_
    cases hc
    exact ⟨by simp [Option.filter_some, hname], rfl⟩

/-- A document that is made under a name has this name and no description. -/
theorem succeeds_componentDocument_named (path category : String) {name : String}
    (hname : name ≠ "") :
    Succeeds (fun c? => ∀ c ∈ c?, c.name = name ∧ c.description? = none)
      (l.componentDocument path category (some name)) := by
  have hbuild : Succeeds (fun c? => ∀ c ∈ c?, c.name = name ∧ c.description? = none)
      (l.build category (l.disk.tree.directoryCount + 1) (some name) [] (.ofString path)) := by
    rw [Library.build]
    refine (ensures_assemble_named l _ _ category hname []).attempt.bind fun r hr => ?_
    cases r with
    | ok c? => exact .pure (hr c? rfl)
    | error f => exact .note_bind _ (.pure fun c hc => absurd hc (Option.not_mem_none c))
  refine hbuild.bind fun c? hc => .pure fun c hm => ?_
  obtain ⟨c', hc', rfl⟩ := Option.map_eq_some_iff.1 hm
  have hkept := hc c' hc'
  cases c'
  exact hkept

/-- The documents of candidates that are no aliases have their names and no descriptions. -/
theorem succeeds_concreteDocuments_named {cs : List Candidate}
    (hnames : ∀ c ∈ cs, c.aliasOf? = none → c.name ≠ "") :
    Succeeds (fun docs => ∀ e ∈ docs, e.2.name = e.1 ∧ e.2.description? = none)
      (l.concreteDocuments cs) := by
  induction cs with
  | nil => exact .pure nofun
  | cons c rest ih =>
    obtain ⟨hc, hrest⟩ := List.forall_mem_cons.1 hnames
    rw [Library.concreteDocuments]
    split
    · exact ih hrest
    case isFalse halias =>
      refine .note_bind _ ?_
      refine (succeeds_componentDocument_named l _ _ (hc (by simpa using halias))).bind
        fun c? hc' => (ih hrest).bind fun docs hdocs => .pure fun e he => ?_
      rcases List.mem_append.1 he with he | he
      · obtain ⟨d, hd, rfl⟩ := Option.map_eq_some_iff.1 (Option.mem_toList.1 he)
        exact hc' d hd
      · exact hdocs e he

end Documents

/-- What is in the second of two lists and not in the first comes after the whole first. -/
theorem exists_of_append_eq {α : Type} {as bs before after : List α} {x : α}
    (h : as ++ bs = before ++ x :: after) (hx : x ∉ as) :
    x ∈ bs ∧ ∀ a ∈ as, a ∈ before := by
  rcases List.append_eq_append_iff.1 h with ⟨between, rfl, rfl⟩ | ⟨between, rfl, hrest⟩
  · exact ⟨by simp, fun a ha => List.mem_append_left _ ha⟩
  · cases between with
    | nil =>
      rw [List.nil_append] at hrest
      exact ⟨hrest ▸ List.mem_cons_self, fun a ha => by simpa using ha⟩
    | cons y between =>
      cases hrest
      simp at hx

/-- **What an alias stands for.** In any session, the search for components ends with a fault,
and then there are no documents, or it gives a list that keeps to the rules, and the documents
are made: those of aliases come after the documents of the components that they stand for and
differ from them, written out, in the name and in the description. -/
theorem aliases_stand (l : Library) (hnamed : l.disk.tree.isWellNamed = true) (s : Session) :
    (¬l.Searchable ∧ l.findComponents.result s = .error (.badPath .nameTooLong)
      ∧ l.allDocuments.result s = .error (.badPath .nameTooLong)) ∨
    ∃ cs docs, l.findComponents.result s = .ok cs ∧ l.allDocuments.result s = .ok docs
      ∧ Registered l.config cs
      ∧ ∀ before name source description after,
          docs = before ++ .renamed name source description :: after →
            TakenOver cs before name source description := by
  by_cases hsearch : l.Searchable
  case neg =>
    have hfind := result_findComponents_of_not_searchable hsearch s
    refine .inl ⟨hsearch, hfind, ?_⟩
    unfold Library.allDocuments
    rw [Catalog.result_bind, hfind]
    rfl
  obtain ⟨cs, hcs, hrules, hnames⟩ := succeeds_findComponents_registered hsearch hnamed s
  suffices h : Succeeds (fun docs => ∀ before name source description after,
      docs = before ++ .renamed name source description :: after →
        TakenOver cs before name source description)
      (do
        Catalog.note (Log.info "generator" ("Found " ++ cs.length.repr ++ " components"))
        let concrete ← l.concreteDocuments cs
        let aliases ← Library.aliasDocuments concrete cs
        return concrete.map (fun e => .component e.2) ++ aliases) by
    obtain ⟨docs, hdocs, htaken⟩ := h (l.findComponents.after s)
    refine .inr ⟨cs, docs, hcs, ?_, hrules, htaken⟩
    unfold Library.allDocuments
    rw [Catalog.result_bind, hcs]
    exact hdocs
  refine .note_bind _ ?_
  refine (succeeds_concreteDocuments_named l hnames).bind fun concrete hconcrete => ?_
  refine (succeeds_aliasDocuments concrete cs).bind fun aliases haliases => .pure ?_
  intro before name source description after heq
  obtain ⟨hmem, hbefore⟩ := exists_of_append_eq heq (by simp)
  obtain ⟨c, hc, e, he, hstands, hdoc⟩ := haliases _ hmem
  obtain ⟨hname, hdescription⟩ := hconcrete e he
  cases hdoc
  exact
    { made_before := hbefore _ (List.mem_map_of_mem he)
      stands_for := ⟨c, hc, rfl, hname ▸ hstands⟩
      written := ⟨_, fun f hf => Component.ne_of_mem_sharedFields hf,
        Component.toJson_eq_sharedFields hdescription, Document.toJson_renamed hdescription _ _⟩ }

theorem aliases_stand_chained :
    chainedAliases.disk.tree.isWellNamed = true
      ∧ ∃ cs docs, chainedAliases.findComponents.result {} = .ok cs
        ∧ chainedAliases.allDocuments.result {} = .ok docs
        ∧ cs.map (fun c => (c.name, c.aliasOf?)) = [("a", none), ("z", some "a"), ("y", some "z")]
        ∧ Registered chainedAliases.config cs
        ∧ ∀ before name source description after,
            docs = before ++ .renamed name source description :: after →
              TakenOver cs before name source description := by
  have hnamed : chainedAliases.disk.tree.isWellNamed = true := by decide
  have hfound : (chainedAliases.findComponents.result {}).toOption.map
      (List.map fun c => (c.name, c.aliasOf?))
        = some [("a", none), ("z", some "a"), ("y", some "z")] := by
    decide +kernel
  rcases aliases_stand chainedAliases hnamed {} with
    ⟨-, hfind, -⟩ | ⟨cs, docs, hfind, hdocs, hrules, htaken⟩
  · rw [hfind] at hfound
    cases hfound
  · rw [hfind] at hfound
    exact ⟨hnamed, cs, docs, hfind, hdocs, Option.some.inj hfound, hrules, htaken⟩

/-- A directory with a long name is enough for there to be neither a list of components nor
documents, although there is a component. -/
theorem findComponents_overlongName :
    (withInner (nameOfLength 250)).findComponents.result {} = .error (.badPath .nameTooLong)
      ∧ (withInner (nameOfLength 250)).allDocuments.result {} = .error (.badPath .nameTooLong)
      ∧ (withInner (nameOfLength 250)).isEligible outerPath = true := by
  have hfind := result_findComponents_of_not_searchable not_searchable_overlong {}
  refine ⟨hfind, ?_, isEligible_outerPath⟩
  unfold Library.allDocuments
  rw [Catalog.result_bind, hfind]
  rfl

end ComponentCatalog
