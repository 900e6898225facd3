import ComponentCatalog.Proofs.WellFormed

/-!
# All documents at once and one by one

The documents of a library can be made all at once, or for one candidate after the
other. An alias gets its document in two ways: at once by the name it stands for, among
the documents of the components that have been made; by itself from the directory it
lies in, under that name. The two agree on an alias of a component. An alias that
stands for another alias finds nothing under that name, while there is a document to be
made in its directory; exactly there the two ways differ.

Since the same document may be made in two sessions, or twice in one, it has first to be
shown that making documents is steady.
-/

namespace ComponentCatalog

open Text Syntax Extract

/-! ## Making a document is steady -/

section Steadiness

variable (l : Library)

theorem steady_recoverIfAny (dir : Path) (file? : Option String) :
    Steady l (recoverIfAny l.disk dir file?) := by
  cases file? with
  | none => exact .pure _
  | some file => exact .bind (steady_orNote l _) fun _ => .bind (steady_orNote l _) fun _ => .pure _

theorem steady_recoverCompiledIfAny (dir : Path) (map? : Option String) :
    Steady l (recoverCompiledIfAny l.disk dir map?) := by
  cases map? with
  | none => exact .pure _
  | some map =>
    show Steady l (recoverCompiled l.disk dir map)
    unfold recoverCompiled
    dsimp only
    split
    · exact .pure _
    · split
      · exact .pure _
      · exact .after_note _ (.pure _)

/-- What the sources of a directory are does not depend on the session. -/
theorem steady_sourcesOf (dir : Path) : Steady l (sourcesOf l.disk dir) := by
  unfold sourcesOf
  split
  · exact .throw _
  · exact .after_note _ (.pure _)
  · refine .bind (steady_recoverIfAny l dir _) fun _ => ?_
    refine .bind (steady_recoverIfAny l dir _) fun _ => ?_
    refine .bind (steady_recoverCompiledIfAny l dir _) fun _ => ?_
    exact .bind (steady_recoverIfAny l dir _) fun _ => .pure _

theorem steady_sourceText (source : Wide) : Steady l (Library.sourceText source) := by
  unfold Library.sourceText
  split
  · exact .pure _
  · exact .throw _

theorem steady_componentMethods (sources : Sources) :
    Steady l (l.componentMethods sources) := by
  unfold Library.componentMethods
  split
  · exact .pure _
  · exact .bind (steady_sourceText l _) fun _ => .bind (Gives.noteAll _).steady fun _ => .pure _

theorem steady_componentEvents (sources : Sources) (props : List Property) :
    Steady l (l.componentEvents sources props) := by
  unfold Library.componentEvents
  dsimp only
  split
  · exact .pure _
  · exact .bind (Gives.noteAll _).steady fun _ => .pure _

theorem steady_componentStyles (sources : Sources) : Steady l (l.componentStyles sources) := by
  unfold Library.componentStyles
  split
  · exact .pure _
  · exact .bind (steady_sourceText l _) fun _ => .bind (Gives.noteAll _).steady fun _ => .pure _

/-- The documents of children do not depend on the session, if none of them does. -/
theorem steady_childDocuments {make : Path → Catalog (Option Component)}
    (hmake : ∀ path, Steady l (make path)) (parent : String) (lineage : List Path)
    (children : List (String × Except Fault Path)) :
    Steady l (l.childDocuments make parent lineage children) := by
  induction children with
  | nil => exact .pure _
  | cons e rest ih =>
    obtain ⟨child, f | path⟩ := e
    · rw [Library.childDocuments]
      cases f.message? with
      | some m => exact .after_note _ ih
      | none => exact .throw f
    · rw [Library.childDocuments]
      split
      · exact .after_note _ ih
      · exact .bind (hmake path) fun _ => .bind ih fun _ => .pure _

/-- Putting a document together does not depend on the session. -/
theorem steady_assemble {make : List Path → Path → Catalog (Option Component)}
    (hmake : ∀ lineage path, Steady l (make lineage path)) (dir : Path) (category : String)
    (name? : Option String) (ancestry : List Path) :
    Steady l (l.assemble make dir category name? ancestry) := by
  unfold Library.assemble
  refine .bind (steady_sourcesOf l dir) fun sources => ?_
  split
  · exact .after_note _ (.pure _)
  · refine .bind (steady_componentProps l sources) fun r => ?_
    refine .bind (steady_componentMethods l sources) fun _ => ?_
    refine .bind (steady_componentEvents l sources r.1) fun _ => ?_
    refine .bind (steady_componentStyles l sources) fun _ => ?_
    exact .bind (steady_childDocuments l (hmake _) _ _ _) fun _ => .pure _

/-- Making a document does not depend on it either, with any number of levels. -/
theorem steady_build (category : String) (limit : Nat) (name? : Option String)
    (ancestry : List Path) (dir : Path) :
    Steady l (l.build category limit name? ancestry dir) := by
  induction limit generalizing name? ancestry dir with
  | zero => exact .pure _
  | succ limit ih =>
    rw [Library.build]
    refine .bind (steady_assemble l (fun lineage path => ih _ lineage path) _ _ _ _).attempt
      fun r => ?_
    cases r with
    | ok c? => exact .pure _
    | error f => exact .after_note _ (.pure _)

theorem steady_componentDocument (path category : String) (name? : Option String) :
    Steady l (l.componentDocument path category name?) :=
  .bind (steady_build l category _ name? [] _) fun _ => .pure _

theorem steady_consider (group : String) (found : List Candidate) (dir : Path) :
    Steady l (l.consider group found dir) := by
  unfold Library.consider
  split
  · exact .pure _
  · split
    · exact .throw _
    · exact .pure _
    · split
      · exact .after_note _ (.pure _)
      · exact .pure _

/-- The way through a group is the same in every session. -/
theorem steady_walk (group : String) (found : List Candidate) (stack : List (Path × FileTree)) :
    Steady l (l.walk group found stack) := by
  induction found, stack using Library.walk.induct with
  | case1 found =>
    rw [Library.walk]
    exact .pure _
  | case2 found dir t stack ihin ihout =>
    rw [Library.walk]
    refine .bind (steady_consider l group found dir) fun found' => ?_
    split
    · exact ihin found'
    · exact .after_note _ (ihout found')

theorem steady_walkGroups (found : List Candidate) (entries : List (String × FileTree)) :
    Steady l (l.walkGroups found entries) := by
  induction entries generalizing found with
  | nil => exact .pure _
  | cons e entries ih =>
    rw [Library.walkGroups]
    split
    · exact .throw _
    · split
      · exact .bind (steady_walk l _ found _) fun found' => ih found'
      · exact ih found

theorem steady_withAliases (cs : List Candidate) (aliases : List (String × String)) :
    Steady l (Library.withAliases cs aliases) := by
  induction aliases generalizing cs with
  | nil => exact .pure _
  | cons a rest ih =>
    obtain ⟨name, source⟩ := a
    rw [Library.withAliases]
    cases Library.named? cs source with
    | none => exact .after_note _ (ih cs)
    | some c =>
      dsimp only
      split
      · exact .after_note _ (ih cs)
      · exact ih _

/-- The search for components is the same in every session. -/
theorem steady_findComponents : Steady l l.findComponents := by
  refine .bind ?_ fun cs => steady_withAliases l _ _
  unfold Library.walkCandidates
  split
  · exact .throw _
  · exact .after_note _ (.pure _)
  · exact steady_walkGroups l _ _

/-- Finding components gives a list that keeps to the rules, or the fault that ends the
search for them. -/
theorem gives_findComponents :
    Gives l l.findComponents (.error (.badPath .nameTooLong))
      ∨ ∃ cs, Catalogued cs ∧ Gives l l.findComponents (.ok cs) := by
  by_cases h : l.Searchable
  · obtain ⟨cs, hfresh, hcatalogued⟩ := succeeds_findComponents h {}
    exact .inr ⟨cs, hcatalogued, (steady_findComponents l).of_eq hfresh⟩
  · exact .inl ((steady_findComponents l).of_eq (result_findComponents_of_not_searchable h {}))

end Steadiness

/-! ## The document of one candidate -/

namespace Library

variable (l : Library)

/-- The document of the component in a directory, in whichever session it is made. -/
def componentOf (path category name : String) : Option Component :=
  (l.componentDocument path category (some name)).fresh.toOption.join

/-- The document of a candidate: that of its directory, under its name or under the
name it stands for. -/
def documentOf (c : Candidate) : Option Document :=
  match c.aliasOf? with
  | none => (l.componentOf c.path c.category c.name).map .component
  | some source => (l.componentOf c.path c.category source).map (aliasDocument c.name)

/-- The documents of the candidates, made one by one. -/
def oneByOne : Catalog (List Document) := do
  let candidates ← l.findComponents
  let documents ← candidates.mapM l.candidateDocument
  return documents.filterMap id

end Library

/-- Whether a candidate is an alias that stands for an alias. -/
def isChained (cs : List Candidate) (c : Candidate) : Bool :=
  match c.aliasOf? with
  | none => false
  | some source => (Library.named? cs source).any fun d => d.aliasOf?.isSome

section Single

variable (l : Library)

theorem gives_componentDocument (path category name : String) :
    Gives l (l.componentDocument path category (some name))
      (.ok (l.componentOf path category name)) := by
  obtain ⟨c?, hc, -⟩ := succeeds_componentDocument l path category (some name) {}
  refine Gives.of_eq (steady_componentDocument l path category (some name)) ?_
  have hfresh : (l.componentDocument path category (some name)).fresh = .ok c? := hc
  rw [Library.componentOf, hfresh]
  rfl

/-- The document of a candidate, in whichever session. -/
theorem gives_candidateDocument (c : Candidate) :
    Gives l (l.candidateDocument c) (.ok (l.documentOf c)) := by
  unfold Library.candidateDocument Library.documentOf
  cases c.aliasOf? with
  | none => exact (gives_componentDocument l _ _ _).bind (.pure _)
  | some source => exact (gives_componentDocument l _ _ _).bind (.pure _)

/-- The documents of candidates one by one. -/
theorem gives_mapM_candidateDocument (cs : List Candidate) :
    Gives l (cs.mapM l.candidateDocument) (.ok (cs.map l.documentOf)) := by
  induction cs with
  | nil => exact .pure _
  | cons c cs ih =>
    rw [List.mapM_cons]
    exact (gives_candidateDocument l c).bind (ih.bind (.pure _))

/-- One by one, every candidate gives its document. -/
theorem gives_oneByOne {cs : List Candidate} (hcs : Gives l l.findComponents (.ok cs)) :
    Gives l l.oneByOne (.ok (cs.filterMap l.documentOf)) := by
  refine hcs.bind ((gives_mapM_candidateDocument l cs).bind ((Gives.pure _).of_eq ?_))
  rw [List.filterMap_map]
  rfl

end Single

/-! ## The documents of all candidates -/

section AtOnce

variable (l : Library)

/-- The document that a candidate has by itself, if it is no alias. -/
def concrete? (c : Candidate) : Option Component :=
  if c.aliasOf?.isSome then none else l.componentOf c.path c.category c.name

/-- The documents of the components among candidates, by name. -/
def concreteTable (cs : List Candidate) : List (String × Component) :=
  cs.filterMap fun c => (concrete? l c).map fun d => (c.name, d)

/-- The document that an alias takes over from a table of components. -/
def takenOver? (concrete : List (String × Component)) (c : Candidate) : Option Document :=
  c.aliasOf?.bind fun source => (concrete.lookup source).map (Library.aliasDocument c.name)

/-- The documents of those that are no aliases, made at once. -/
theorem gives_concreteDocuments (cs : List Candidate) :
    Gives l (l.concreteDocuments cs) (.ok (concreteTable l cs)) := by
  unfold concreteTable
  induction cs with
  | nil => exact .pure _
  | cons c cs ih =>
    rw [Library.concreteDocuments, List.filterMap_cons]
    unfold concrete?
    split_ifs
    · exact ih
    · refine (Gives.note _).bind ((gives_componentDocument l _ _ _).bind (ih.bind ?_))
      cases l.componentOf c.path c.category c.name with
      | none => exact .pure _
      | some d => exact .pure _

/-- The documents of aliases are taken over from these. -/
theorem gives_aliasDocuments (concrete : List (String × Component)) (cs : List Candidate) :
    Gives l (Library.aliasDocuments concrete cs) (.ok (cs.filterMap (takenOver? concrete))) := by
  induction cs with
  | nil => exact .pure _
  | cons c cs ih =>
    rw [Library.aliasDocuments, List.filterMap_cons, takenOver?]
    cases c.aliasOf? with
    | none => exact ih
    | some source =>
      dsimp only [Option.bind_some]
      cases concrete.lookup source with
      | none => exact (Gives.note _).bind ih
      | some d => exact ih.bind (.pure _)

/-- A list in which components come before aliases is its components and then its
aliases. -/
theorem exists_append_of_concrete_first {cs : List Candidate}
    (h : cs.Pairwise fun c d => d.aliasOf? = none → c.aliasOf? = none) :
    ∃ components aliases, cs = components ++ aliases
      ∧ (∀ c ∈ components, c.aliasOf? = none) ∧ ∀ c ∈ aliases, c.aliasOf? ≠ none := by
  induction cs with
  | nil => exact ⟨[], [], rfl, nofun, nofun⟩
  | cons c cs ih =>
    obtain ⟨hc, hcs⟩ := List.pairwise_cons.1 h
    by_cases hnone : c.aliasOf? = none
    · obtain ⟨components, aliases, rfl, hcomponents, haliases⟩ := ih hcs
      exact ⟨c :: components, aliases, rfl, List.forall_mem_cons.2 ⟨hnone, hcomponents⟩, haliases⟩
    · exact ⟨[], c :: cs, rfl, nofun,
        List.forall_mem_cons.2 ⟨hnone, fun d hd hd' => hnone (hc d hd hd')⟩⟩

variable {cs : List Candidate}

/-- In a list of candidates a member is found by its name. -/
theorem Catalogued.named?_eq_some (h : Catalogued cs) {c : Candidate} (hc : c ∈ cs) :
    Library.named? cs c.name = some c := by
  cases hd : Library.named? cs c.name with
  | none => exact absurd (List.mem_map_of_mem hc) (named?_eq_none_iff.1 hd)
  | some d =>
    obtain ⟨hmem, hname⟩ := mem_of_named? hd
    rw [List.inj_on_of_nodup_map h.nodup hmem hc hname]

/-- What an alias gets at once is what it gets by itself, unless it stands for an
alias: then it gets nothing. -/
theorem takenOver?_eq (h : Catalogued cs) {c : Candidate} (hc : c ∈ cs)
    (halias : c.aliasOf? ≠ none) :
    takenOver? (concreteTable l cs) c = if isChained cs c then none else l.documentOf c := by
  obtain ⟨source, hsource⟩ := Option.ne_none_iff_exists'.1 halias
  obtain ⟨d, hd, rfl, hpath, hcategory⟩ := h.alias_lies c hc source hsource
  rw [takenOver?, hsource, Option.bind_some, concreteTable,
    lookup_filterMap_name Candidate.name (concrete? l) h.nodup]
  show ((Library.named? cs d.name).bind (concrete? l)).map _ = _
  rw [isChained, Library.documentOf, hsource]
  simp only [h.named?_eq_some hd, Option.bind_some, Option.any_some, concrete?, hpath, hcategory]
  split_ifs <;> rfl

/-- A candidate that is no alias has the same document both ways. -/
theorem concrete?_eq {c : Candidate} (hc : c.aliasOf? = none) :
    (concrete? l c).map .component = if isChained cs c then none else l.documentOf c := by
  simp [concrete?, isChained, Library.documentOf, hc]

/-- What comes from the first part of a list by one function and from the second by
another comes from the whole by one that is either. -/
theorem filterMap_append_filterMap {α β : Type} {u v f : α → Option β} {as bs : List α}
    (has : ∀ a ∈ as, u a = f a ∧ v a = none) (hbs : ∀ b ∈ bs, u b = none ∧ v b = f b) :
    (as ++ bs).filterMap u ++ (as ++ bs).filterMap v = (as ++ bs).filterMap f := by
  have hu : bs.filterMap u = [] := List.filterMap_eq_nil_iff.2 fun b hb => (hbs b hb).1
  have hv : as.filterMap v = [] := List.filterMap_eq_nil_iff.2 fun a ha => (has a ha).2
  rw [List.filterMap_append, List.filterMap_append, List.filterMap_append, hu, hv,
    List.append_nil, List.nil_append]
  rw [List.filterMap_congr fun a ha => (has a ha).1, List.filterMap_congr fun b hb => (hbs b hb).2]

/-- **At once, every candidate gives its document**, except for aliases that stand for an
alias. -/
theorem gives_allDocuments (h : Catalogued cs) (hcs : Gives l l.findComponents (.ok cs)) :
    Gives l l.allDocuments
      (.ok ((cs.filter fun c => !isChained cs c).filterMap l.documentOf)) := by
  refine hcs.bind ((Gives.note _).bind ((gives_concreteDocuments l cs).bind ?_))
  refine (gives_aliasDocuments l _ cs).bind ((Gives.pure _).of_eq (congrArg Except.ok ?_))
  obtain ⟨components, aliases, heq, hcomponents, haliases⟩ :=
    exists_append_of_concrete_first h.concrete_first
  have hfilter : (cs.filter fun c => !isChained cs c).filterMap l.documentOf
      = cs.filterMap fun c => if isChained cs c then none else l.documentOf c := by
    rw [List.filterMap_filter]
    exact List.filterMap_congr fun c _ => by cases isChained cs c <;> rfl
  -- each of the two passes sees only its own part of the candidates
  have hsplit := filterMap_append_filterMap
    (f := fun c => if isChained cs c then none else l.documentOf c)
    (u := fun c => (concrete? l c).map .component) (v := takenOver? (concreteTable l cs))
    (fun c hc => ⟨concrete?_eq l (hcomponents c hc), by simp [takenOver?, hcomponents c hc]⟩)
    (fun c hc => ⟨by simp [concrete?, Option.isSome_iff_ne_none, haliases c hc],
      takenOver?_eq l h (heq ▸ List.mem_append_right _ hc) (haliases c hc)⟩)
  rw [← heq] at hsplit
  rw [hfilter, ← hsplit, concreteTable, List.map_filterMap]
  simp only [Option.map_map, Function.comp_def]

/-- Leaving out some things makes no difference exactly if nothing comes from them. -/
theorem filterMap_filter_eq_iff {α β : Type} (p : α → Bool) (g : α → Option β) (as : List α) :
    (as.filter fun a => !p a).filterMap g = as.filterMap g
      ↔ ∀ a ∈ as, p a = true → g a = none := by
  constructor
  · -- what is left out can only make the list shorter, so comparing lengths is enough
    intro heq a ha hp
    have hlength := congrArg List.length heq
    rw [List.length_filterMap_eq_countP, List.length_filterMap_eq_countP,
      List.countP_eq_countP_filter_add as _ fun a => !p a, Nat.left_eq_add] at hlength
    simpa using List.countP_eq_zero.1 hlength a (by simpa using ⟨ha, hp⟩)
  · intro h
    rw [List.filterMap_filter]
    refine List.filterMap_congr fun a ha => ?_
    cases hp : p a with
    | true => simp [h a ha hp]
    | false => simp

end AtOnce

/-- **At once or one by one.** In sessions that agree with the library, both ways give
documents, unless the search for components ends both with the same fault. One by one,
every candidate gives its own; at once, aliases that stand for an alias are passed over. So
the documents are the same exactly if none of these aliases has a document to be made. -/
theorem allDocuments_eq_oneByOne_iff (l : Library) (s s' : Session) (hs : s.Agrees l)
    (hs' : s'.Agrees l) :
    (∃ f, l.findComponents.result s = .error f
      ∧ l.allDocuments.result s = .error f ∧ l.oneByOne.result s' = .error f) ∨
    ∃ candidates atOnce single, l.findComponents.result s = .ok candidates
      ∧ l.allDocuments.result s = .ok atOnce ∧ l.oneByOne.result s' = .ok single
      ∧ atOnce = (candidates.filter fun c => !isChained candidates c).filterMap l.documentOf
      ∧ single = candidates.filterMap l.documentOf
      ∧ (atOnce = single
          ↔ ∀ c ∈ candidates, isChained candidates c = true → l.documentOf c = none) := by
  rcases gives_findComponents l with hf | ⟨cs, hcatalogued, hcs⟩
  · exact .inl ⟨_, (hf s hs).1, (hf.bind_error s hs).1, (hf.bind_error s' hs').1⟩
  · exact .inr ⟨cs, _, _, (hcs s hs).1, (gives_allDocuments l hcatalogued hcs s hs).1,
      (gives_oneByOne l hcs s' hs').1, rfl, rfl, filterMap_filter_eq_iff _ _ _⟩

/-- A component with an alias, for which there is an alias. -/
def chainedAliases : Library :=
  smallLibrary
    [("g", .directory [("a", .directory
      [("a.props.js.map", sourceMapFile "class AProps\x7bb\x7d")])])]
    { includeComponents := ["a"], aliases := [("z", "a"), ("y", "z")] }

theorem allDocuments_eq_oneByOne_iff_chainedAliases :
    Session.Agrees chainedAliases {}
      ∧ ∃ candidates atOnce single, chainedAliases.findComponents.result {} = .ok candidates
        ∧ chainedAliases.allDocuments.result {} = .ok atOnce
        ∧ chainedAliases.oneByOne.result {} = .ok single
        ∧ (atOnce = single ↔ ∀ c ∈ candidates,
            isChained candidates c = true → chainedAliases.documentOf c = none) := by
  have hs := Session.agrees_empty chainedAliases
  have hmade : (chainedAliases.allDocuments.result {}).toOption.isSome = true := by
    decide +kernel
  rcases allDocuments_eq_oneByOne_iff chainedAliases {} {} hs hs with
    ⟨f, -, hf, -⟩ | ⟨candidates, atOnce, single, hfound, hatOnce, hsingle, -, -, hiff⟩
  · rw [hf] at hmade
    cases hmade
  · exact ⟨hs, candidates, atOnce, single, hfound, hatOnce, hsingle, hiff⟩

/-- An alias of an alias has a document of its own that is not among those made at
once. -/
theorem allDocuments_chainedAliases :
    ((chainedAliases.allDocuments.result {}).toOption.getD []).map Document.name = ["a", "z"]
      ∧ ((chainedAliases.oneByOne.result {}).toOption.getD []).map Document.name
        = ["a", "z", "y"] := by
  decide +kernel

end ComponentCatalog
