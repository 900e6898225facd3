import ComponentCatalog.Generator
import ComponentCatalog.Proofs.Facets
import ComponentCatalog.Proofs.Sessions

/-!
# Chains of types

The properties of a component are its own and those of the types it extends, directly
or through others. `Chain` says which types those are without saying how they are
walked: from each type to the one that its declaration extends, until one of the ways
to end is met. It is a relation, so it has to be shown that there is a chain from every
type (`exists_chain`: the types that have not been visited get fewer) and only one
(`Chain.unique`).

The answers of the computations are then read off the chain. A chain that ends in one
of the usual ways gives the properties of all its types; one that meets a file that
cannot be taken in at all fails, and takes the properties of the component with it.
-/

namespace ComponentCatalog

open Text Syntax Extract

/-- How a chain of types ends. -/
inductive ChainEnd where
  /-- The last type extends nothing. -/
  | noBase
  /-- The next type is on the chain already. -/
  | repeated
  /-- The root type has been reached. -/
  | root
  /-- No file has a name that fits the next type. -/
  | noArtifact
  /-- The file for the next type holds no source. -/
  | noContent
  /-- The source for the next type declares no properties. -/
  | noDeclaration
  /-- The file for the next type cannot be taken in. -/
  | failed (f : Fault)
  deriving DecidableEq

namespace Library

variable (l : Library)

/-- The first file of a given name under some search roots. -/
def fileUnder (file : String) (roots : List String) : Except Fault (Option Path) :=
  roots.findSomeM? fun root =>
    (artifactIndex l.disk l.path root).map fun index => index.lookup file

/-- The file for the first of some stems that has one: a stem is tried under all search
roots before the next one. -/
def fileOfStems (roots stems : List String) : Except Fault (Option Path) :=
  stems.findSomeM? fun stem => l.fileUnder (stem ++ propsSuffix) roots

/-- The stems that are tried for a type. -/
def stemsFor (typeName : String) : List String :=
  Stem.candidates l.config.inheritance.typePrefixes l.config.inheritance.typeSuffix typeName

/-- The file for a type, unless a search root cannot be looked at. -/
def searchFor (typeName : String) : Except Fault (Option Path) :=
  l.fileOfStems l.config.inheritance.searchRoots (l.stemsFor typeName)

/-- The file for a type, if one is found. -/
def artifactFor? (typeName : String) : Option Path :=
  (l.searchFor typeName).toOption.join

/-- What a source says about properties. -/
def bagOfSource (dialect : Dialect) (o : PropertyOptions) (source : Wide) :
    Except Fault (Option PropertyBag) :=
  match source.toString? with
  | none => .error .unencodable
  | some s => .ok (properties? (parse dialect s) o)

/-- What a file declares about a type, or how a chain ends there. -/
def declarationAt (typeName : String) (artifact : Path) : Except ChainEnd PropertyBag :=
  match SourceMap.contentAt l.disk artifact 0 with
  | .error short => .error ((short.fault?.map ChainEnd.failed).getD .noContent)
  | .ok source =>
    let dialect := dialectOf (SourceMap.nameAt l.disk artifact 0).toOption
    match bagOfSource dialect (l.optionsFor (some typeName)) source with
    | .error f => .error (.failed f)
    | .ok none => .error .noDeclaration
    | .ok (some bag) => .ok bag

/-- The declaration of a type, or how a chain ends there. -/
def declarationOf (typeName : String) : Except ChainEnd PropertyBag :=
  match l.searchFor typeName with
  | .error f => .error (.failed f)
  | .ok none => .error .noArtifact
  | .ok (some artifact) => l.declarationAt typeName artifact

/-- What becomes of a declaration: it is used, or there is something else where the
chain has ended, unless the file could not be taken in. -/
def settle {α : Type} (otherwise : α) (use : PropertyBag → α) :
    Except ChainEnd PropertyBag → Except Fault α
  | .ok bag => .ok (use bag)
  | .error (.failed f) => .error f
  | .error _ => .ok otherwise

/-- What the root type contributes: the properties that its file declares under its
name, and none if there is no such declaration. -/
def rootContribution : Except Fault (List Property) :=
  let rules := l.config.inheritance
  settle [] (fun bag => if bag.className == rules.rootType then bag.props else [])
    (l.declarationAt rules.rootType (l.path.child rules.rootArtifact))

end Library

/-- **The chain from a type**, given the types that are on it already: the types that
contribute, each with what it declares, and how the chain ends. -/
inductive Chain (l : Library) :
    List String → Option String → List (String × List Property) → ChainEnd → Prop where
  | noBase {visited : List String} {base? : Option String}
      (h : ∀ typeName ∈ base?, typeName = "") : Chain l visited base? [] .noBase
  | repeated {visited : List String} {typeName : String} (hne : typeName ≠ "")
      (hv : typeName ∈ visited) : Chain l visited (some typeName) [] .repeated
  | root {visited : List String} {typeName : String} {props : List Property}
      (hne : typeName ≠ "") (hv : typeName ∉ visited)
      (hr : typeName = l.config.inheritance.rootType) (hp : l.rootContribution = .ok props) :
      Chain l visited (some typeName) [(typeName, props)] .root
  | rootFailed {visited : List String} {typeName : String} {f : Fault}
      (hne : typeName ≠ "") (hv : typeName ∉ visited)
      (hr : typeName = l.config.inheritance.rootType) (hp : l.rootContribution = .error f) :
      Chain l visited (some typeName) [] (.failed f)
  | ends {visited : List String} {typeName : String} {e : ChainEnd} (hne : typeName ≠ "")
      (hv : typeName ∉ visited) (hr : typeName ≠ l.config.inheritance.rootType)
      (hd : l.declarationOf typeName = .error e) : Chain l visited (some typeName) [] e
  | next {visited : List String} {typeName : String} {bag : PropertyBag}
      {links : List (String × List Property)} {e : ChainEnd} (hne : typeName ≠ "")
      (hv : typeName ∉ visited) (hr : typeName ≠ l.config.inheritance.rootType)
      (hd : l.declarationOf typeName = .ok bag)
      (rest : Chain l (typeName :: visited) bag.base? links e) :
      Chain l visited (some typeName) ((typeName, bag.props) :: links) e

namespace Chain

variable {l : Library} {visited : List String} {base? : Option String}
  {links : List (String × List Property)} {e : ChainEnd}

/-- A type that contributes was not on the chain before. -/
theorem not_mem_visited (h : Chain l visited base? links e) :
    ∀ typeName ∈ links.map Prod.fst, typeName ∉ visited := by
  induction h with
  | noBase _ | repeated _ _ | rootFailed _ _ _ _ | ends _ _ _ _ => nofun
  | root hne hv hr hp => simpa using hv
  | next hne hv hr hd rest ih =>
    intro typeName hmem
    rw [List.map_cons, List.mem_cons] at hmem
    rcases hmem with rfl | hmem
    · exact hv
    · exact fun h => ih typeName hmem (List.mem_cons_of_mem _ h)

/-- **The types that contribute are distinct.** -/
theorem nodup (h : Chain l visited base? links e) : (links.map Prod.fst).Nodup := by
  induction h with
  | noBase _ | repeated _ _ | rootFailed _ _ _ _ | ends _ _ _ _ => exact List.nodup_nil
  | root hne hv hr hp => exact List.nodup_singleton _
  | next hne hv hr hd rest ih =>
    rw [List.map_cons, List.nodup_cons]
    exact ⟨fun h => rest.not_mem_visited _ h List.mem_cons_self, ih⟩

/-- **There is only one chain from a type.** -/
theorem unique {links' : List (String × List Property)} {e' : ChainEnd}
    (h : Chain l visited base? links e) (h' : Chain l visited base? links' e') :
    links' = links ∧ e' = e := by
  -- the rules exclude each other, so both chains are built by the same one
  induction h generalizing links' e' with
  | noBase hb =>
    cases h' with
    | noBase _ => exact ⟨rfl, rfl⟩
    | _ => exact absurd (hb _ rfl) (by assumption)
  | repeated hne hv =>
    cases h' with
    | noBase hb => exact absurd (hb _ rfl) hne
    | repeated _ _ => exact ⟨rfl, rfl⟩
    | _ => exact absurd hv (by assumption)
  | root hne hv hr hp =>
    cases h' with
    | noBase hb => exact absurd (hb _ rfl) hne
    | root _ _ _ hp' => cases hp.symm.trans hp'; exact ⟨rfl, rfl⟩
    | rootFailed _ _ _ hp' => cases hp.symm.trans hp'
    | repeated _ hv' => exact absurd hv' hv
    | ends _ _ hr' _ | next _ _ hr' _ _ => exact absurd hr hr'
  | rootFailed hne hv hr hp =>
    cases h' with
    | noBase hb => exact absurd (hb _ rfl) hne
    | root _ _ _ hp' => cases hp.symm.trans hp'
    | rootFailed _ _ _ hp' => cases hp.symm.trans hp'; exact ⟨rfl, rfl⟩
    | repeated _ hv' => exact absurd hv' hv
    | ends _ _ hr' _ | next _ _ hr' _ _ => exact absurd hr hr'
  | ends hne hv hr hd =>
    cases h' with
    | noBase hb => exact absurd (hb _ rfl) hne
    | ends _ _ _ hd' => cases hd.symm.trans hd'; exact ⟨rfl, rfl⟩
    | next _ _ _ hd' _ => cases hd.symm.trans hd'
    | repeated _ hv' => exact absurd hv' hv
    | root _ _ hr' _ | rootFailed _ _ hr' _ => exact absurd hr' hr
  | next hne hv hr hd rest ih =>
    cases h' with
    | noBase hb => exact absurd (hb _ rfl) hne
    | ends _ _ _ hd' => cases hd.symm.trans hd'
    | next _ _ _ hd' rest' =>
      cases hd.symm.trans hd'
      obtain ⟨rfl, rfl⟩ := ih rest'
      exact ⟨rfl, rfl⟩
    | repeated _ hv' => exact absurd hv' hv
    | root _ _ hr' _ | rootFailed _ _ hr' _ => exact absurd hr' hr

/-- What extends nothing has an empty chain. -/
theorem of_none (h : Chain l visited none links e) : links = [] ∧ e = .noBase := by
  cases h
  exact ⟨rfl, rfl⟩

end Chain

/-! ## The steps of the walk -/

section Search

variable {α β ε : Type} {f : α → Except ε (Option β)} {as : List α}

/-- A search that fails does so at one of the things that are searched. -/
theorem exists_error_of_findSomeM? {e : ε} (h : as.findSomeM? f = .error e) :
    ∃ a ∈ as, f a = .error e := by
  induction as with
  | nil => cases h
  | cons a as ih =>
    rw [List.findSomeM?] at h
    rcases hf : f a with e' | b?
    · rw [hf] at h
      exact ⟨a, List.mem_cons_self, hf.trans h⟩
    · rw [hf] at h
      cases b? with
      | some b => cases h
      | none =>
        obtain ⟨a', hmem, hf'⟩ := ih h
        exact ⟨a', List.mem_cons_of_mem _ hmem, hf'⟩

/-- A search that comes to something finds it at one of the things that are searched. -/
theorem exists_some_of_findSomeM? {b : β} (h : as.findSomeM? f = .ok (some b)) :
    ∃ a ∈ as, f a = .ok (some b) := by
  induction as with
  | nil => cases h
  | cons a as ih =>
    rw [List.findSomeM?] at h
    rcases hf : f a with e | b?
    · rw [hf] at h
      cases h
    · rw [hf] at h
      cases b? with
      | some b' =>
        cases h
        exact ⟨a, List.mem_cons_self, hf⟩
      | none =>
        obtain ⟨a', hmem, hf'⟩ := ih h
        exact ⟨a', List.mem_cons_of_mem _ hmem, hf'⟩

end Search

section Steps

variable (l : Library)

/-- A search root that cannot be looked at is no fault with a message of its own. -/
theorem message?_eq_none_of_searchFor {typeName : String} {f : Fault}
    (h : l.searchFor typeName = .error f) : f.message? = none := by
  obtain ⟨stem, -, hstem⟩ := exists_error_of_findSomeM? h
  obtain ⟨root, -, hroot⟩ := exists_error_of_findSomeM? hstem
  unfold artifactIndex at hroot
  dsimp only at hroot
  split at hroot
  · cases hroot
  · cases hroot
  · cases hroot
    rfl

/-- The search under one root after the other gives what the index of each says. -/
theorem gives_firstUnder? (file : String) (roots : List String) :
    Gives l (firstUnder? l.disk l.path file roots) (l.fileUnder file roots) := by
  induction roots with
  | nil => exact .pure _
  | cons root rest ih =>
    have hroot := gives_artifactsUnder l root
    rw [firstUnder?, Library.fileUnder, List.findSomeM?]
    cases hi : artifactIndex l.disk l.path root with
    | error f => exact (hroot.of_eq hi).bind_error
    | ok index =>
      refine (hroot.of_eq hi).bind ?_
      rw [show Except.map (fun index => index.lookup file) (Except.ok index : Except Fault _)
        = .ok (index.lookup file) from rfl]
      cases index.lookup file with
      | none => exact ih
      | some path => exact .pure _

theorem gives_firstOfStems? (roots stems : List String) :
    Gives l (firstOfStems? l.disk l.path roots stems) (l.fileOfStems roots stems) := by
  induction stems with
  | nil => exact .pure _
  | cons stem rest ih =>
    have hstem := gives_firstUnder? l (stem ++ propsSuffix) roots
    rw [firstOfStems?, Library.fileOfStems, List.findSomeM?]
    cases hf : l.fileUnder (stem ++ propsSuffix) roots with
    | error f => exact (hstem.of_eq hf).bind_error
    | ok path? =>
      refine (hstem.of_eq hf).bind ?_
      cases path? with
      | none => exact ih
      | some path => exact .pure _

/-- A type without a file is a fault of its own kind. -/
theorem gives_findArtifact (typeName : String) :
    Gives l (findArtifact l.disk l.path l.config.inheritance typeName)
      (match l.searchFor typeName with
        | .error f => .error f
        | .ok none => .error (.unresolvedAncestor typeName (l.stemsFor typeName))
        | .ok (some artifact) => .ok artifact) := by
  have hsearch : Gives l (firstOfStems? l.disk l.path l.config.inheritance.searchRoots _)
      (l.searchFor typeName) := gives_firstOfStems? l _ _
  rw [findArtifact]
  cases hp : l.searchFor typeName with
  | error f => exact (hsearch.of_eq hp).bind_error
  | ok path? =>
    refine (hsearch.of_eq hp).bind ?_
    cases path? with
    | none => exact .throw _
    | some path => exact .note_pure _ _

/-- What reading a source for properties comes to: it fails, it finds nothing, or it
finds what the source declares. -/
theorem declaredProperties_cases (dialect : Dialect) (o : PropertyOptions) (source : Wide) :
    (Library.bagOfSource dialect o source = .error .unencodable
        ∧ Library.declaredProperties dialect o source = throw .unencodable)
      ∨ (Library.bagOfSource dialect o source = .ok none
        ∧ Library.declaredProperties dialect o source
          = Catalog.note (missingPropertiesNote o) >>= fun _ => pure none)
      ∨ ∃ (t : Tree) (bag : Library.SourcedBag source), properties? t o = some bag.1
        ∧ Library.bagOfSource dialect o source = .ok (some bag.1)
        ∧ Library.declaredProperties dialect o source = pure (some bag) := by
  unfold Library.declaredProperties
  split
  · next hs => exact .inl ⟨by rw [Library.bagOfSource, hs], rfl⟩
  · next text hs =>
    have hof : Library.bagOfSource dialect o source
        = .ok (properties? (parse dialect text) o) := by
      rw [Library.bagOfSource, hs]
    split
    · next bag hbag => exact .inr (.inr ⟨_, ⟨bag, _⟩, hbag, hof.trans (congrArg _ hbag), rfl⟩)
    · next hbag => exact .inr (.inl ⟨hof.trans (congrArg _ hbag), rfl⟩)

theorem steady_declaredProperties (dialect : Dialect) (o : PropertyOptions) (source : Wide) :
    Steady l (Library.declaredProperties dialect o source) := by
  obtain ⟨-, heq⟩ | ⟨-, heq⟩ | ⟨t, bag, -, -, heq⟩ := declaredProperties_cases dialect o source
  · rw [heq]
    exact .throw _
  · rw [heq]
    exact .after_note _ (.pure _)
  · rw [heq]
    exact .pure _

/-- The name of a source can be looked for wherever its content can be read. -/
theorem fault?_eq_none_of_nameAt {d : Disk} {artifact : Path} {source : Wide}
    (h : SourceMap.contentAt d artifact 0 = .ok source) (short : SourceMap.Shortfall)
    (hn : SourceMap.nameAt d artifact 0 = .error short) : short.fault? = none := by
  unfold SourceMap.contentAt at h
  unfold SourceMap.nameAt at hn
  split at h
  · cases h
  · next m hm =>
    rw [hm] at hn
    dsimp only [SourceMap.nameIn] at hn
    split_ifs at hn
    · cases hn
      rfl
    · split at hn
      · cases hn
        rfl
      · split_ifs at hn
        cases hn
        rfl

/-- What comes after a file has been read for a type, by what a chain meets there. -/
theorem gives_bagIn_bind {α : Type} {typeName : String} {artifact : Path} {otherwise : α}
    {use : PropertyBag → α} {f : Option (Option (Library.FoundBag l)) → Catalog α}
    (hfound : ∀ found, Gives l (f (some (some found))) (.ok (use found.1)))
    (hnone : Gives l (f (some none)) (.ok otherwise))
    (hshort : Gives l (f none) (.ok otherwise)) :
    Gives l (l.bagIn typeName artifact >>= f)
      (Library.settle otherwise use (l.declarationAt typeName artifact)) := by
  unfold Library.bagIn
  split
  · next short h =>
    have hd : l.declarationAt typeName artifact
        = .error ((short.fault?.map ChainEnd.failed).getD .noContent) := by
      rw [Library.declarationAt, h]
    rw [hd]
    cases hs : short.fault? with
    | some f => exact (gives_orNote_fault l hs).bind_error.bind_error
    | none =>
      refine Gives.bind (a := none) ?_ hshort
      exact (gives_orNote l fun _ heq => Except.error.inj heq ▸ hs).bind (.pure none)
  · next source h =>
    -- the dialect of the source follows from its name, which is read first
    let dialect := Library.dialectOf (SourceMap.nameAt l.disk artifact 0).toOption
    have hname := gives_orNote l (fault?_eq_none_of_nameAt h)
    have hd : l.declarationAt typeName artifact
        = match Library.bagOfSource dialect (l.optionsFor (some typeName)) source with
          | .error f => .error (.failed f)
          | .ok none => .error .noDeclaration
          | .ok (some bag) => .ok bag := by
      rw [Library.declarationAt, h]
    obtain ⟨hof, heq⟩ | ⟨hof, heq⟩ | ⟨t, bag, -, hof, heq⟩ :=
      declaredProperties_cases dialect (l.optionsFor (some typeName)) source
    · rw [hd, hof]
      refine Gives.bind_error (hname.bind ?_)
      rw [heq]
      exact (Gives.throw _).bind_error
    · rw [hd, hof]
      refine Gives.bind (a := some none) (hname.bind ?_) hnone
      rw [heq]
      exact (Gives.note_pure _ none).bind (.pure _)
    · rw [hd, hof]
      refine Gives.bind (hname.bind ?_) (hfound ⟨bag.1, fun base hb =>
        mem_bases_of_contentAt h (bag.2 base hb)⟩)
      rw [heq]
      exact (Gives.pure _).bind (.pure _)

theorem gives_readRootProperties : Gives l l.readRootProperties l.rootContribution := by
  unfold Library.readRootProperties Library.rootContribution
  refine gives_bagIn_bind l (fun found => ?_) ?_ (.pure _)
  · simp only [Option.map_some, Option.filter_some]
    split_ifs
    · exact .note_pure _ _
    · exact .note_pure _ _
  · exact .note_pure _ _

/-- The properties of the root type are the same whether they are read now or
remembered. -/
theorem gives_rootProperties : Gives l l.rootProperties l.rootContribution := by
  intro s hs
  unfold Library.rootProperties
  rw [Catalog.result_get_bind, Catalog.after_get_bind]
  have hread := gives_readRootProperties l
  cases h : s.rootProps? with
  | some props =>
    exact ⟨(hs.rootProps props h).symm.trans hread.fresh_eq, hs⟩
  | none =>
    dsimp only
    obtain ⟨hr, ha⟩ := hread s hs
    rw [Catalog.result_bind, Catalog.after_bind, hr]
    cases hp : l.rootContribution with
    | error f => exact ⟨rfl, ha⟩
    | ok props =>
      have hkeep (s : Session) (hs : s.Agrees l) :
          Session.Agrees l { s with rootProps? := some props } := by
        refine ⟨fun props' h' => ?_, hs.artifacts⟩
        rw [hread.fresh_eq, hp, Option.some.inj h']
      exact ⟨rfl, hkeep _ ha⟩

/-- The properties of a type as those that extend it have them. -/
def marked (typeName : String) (props : List Property) : List Property :=
  props.map fun p => p.inheritedFrom typeName

/-- The root type contributes and is the last one. -/
theorem gives_linkOf_root {typeName : String}
    (hr : typeName = l.config.inheritance.rootType) :
    Gives l ((fun k => (k.props, k.next?)) <$> l.linkOf typeName)
      (l.rootContribution.map fun props => (marked typeName props, none)) := by
  unfold Library.linkOf
  dsimp only
  rw [if_pos (by simpa using hr), map_bind]
  cases hp : l.rootContribution with
  | error f => exact ((gives_rootProperties l).of_eq hp).bind_error
  | ok props => exact ((gives_rootProperties l).of_eq hp).bind (Gives.pure _).map

/-- Any other type contributes what it declares, and nothing if the chain ends at it. -/
theorem gives_linkOf {typeName : String} (hr : typeName ≠ l.config.inheritance.rootType) :
    Gives l ((fun k => (k.props, k.next?)) <$> l.linkOf typeName)
      (Library.settle ([], none) (fun bag => (marked typeName bag.props, bag.base?))
        (l.declarationOf typeName)) := by
  have hfind := gives_findArtifact l typeName
  unfold Library.linkOf Library.declarationOf
  dsimp only
  rw [if_neg (by simpa using hr), map_bind]
  rcases hart : l.searchFor typeName with f | artifact?
  · rw [hart] at hfind
    refine hfind.attempt.bind ?_
    dsimp only
    rw [message?_eq_none_of_searchFor l hart]
    exact (Gives.throw f).bind_error
  · cases artifact? with
    | none =>
      rw [hart] at hfind
      refine hfind.attempt.bind ?_
      exact (Gives.note_pure _ ({} : Library.Link l)).map
    | some artifact =>
      rw [hart] at hfind
      refine hfind.attempt.bind ?_
      dsimp only
      rw [map_bind]
      refine gives_bagIn_bind l (fun found => (Gives.pure _).map) ?_ (Gives.pure _).map
      exact (Gives.note_pure _ ({} : Library.Link l)).map

end Steps

/-! ## The whole walk -/

/-- The properties that the types of a chain contribute, nearest first. -/
def contributed (links : List (String × List Property)) : List Property :=
  links.flatMap fun link => marked link.1 link.2

/-- What a chain that ends in a given way amounts to. -/
def ChainEnd.answer (e : ChainEnd) (links : List (String × List Property)) :
    Except Fault (List Property) :=
  match e with
  | .failed f => .error f
  | _ => .ok (contributed links)

/-- A chain with one more type in front fails if it failed without. -/
theorem ChainEnd.answer_cons (e : ChainEnd) (link : String × List Property)
    (links : List (String × List Property)) :
    e.answer (link :: links) = (e.answer links).map (marked link.1 link.2 ++ ·) := by
  cases e <;> rfl

section Walk

variable {l : Library}

/-- One step of the walk: at a type that is new, its link is made, and the walk ends or
goes on as the link says. -/
theorem inheritedFrom_step {start typeName : String} {visited : List String}
    (h : typeName ∈ start :: l.disk.bases) (hne : typeName ≠ "") (hv : typeName ∉ visited) :
    ∃ goOn : Library.Link l → Catalog (List Property),
      l.inheritedFrom start visited typeName h = l.linkOf typeName >>= goOn
      ∧ (∀ link, link.next? = none → goOn link = pure link.props)
      ∧ ∀ link next (hn : link.next? = some next), goOn link
        = l.inheritedFrom start (typeName :: visited) next
            (List.mem_cons_of_mem _ (link.next_mem next hn)) >>= fun rest =>
              pure (link.props ++ rest) := by
  refine ⟨_, by
    rw [Library.inheritedFrom, if_neg (by simpa using hne), dif_neg (by simpa using hv)],
    fun link hnone => ?_, fun link next hn => ?_⟩
  · split
    · rfl
    · next hsome => rw [hnone] at hsome; cases hsome
  · split
    · next hnone => rw [hn] at hnone; cases hnone
    · next next' hsome =>
      have heq : next' = next := Option.some.inj (hsome.symm.trans hn)
      subst heq
      rfl

/-- A walk that meets nothing to go on with answers with what the last type
contributes. -/
theorem gives_inheritedFrom_of_last {start typeName : String} {visited : List String}
    (h : typeName ∈ start :: l.disk.bases) (hne : typeName ≠ "") (hv : typeName ∉ visited)
    {props : List Property}
    (hlink : Gives l ((fun k => (k.props, k.next?)) <$> l.linkOf typeName) (.ok (props, none))) :
    Gives l (l.inheritedFrom start visited typeName h) (.ok props) := by
  obtain ⟨goOn, heq, hlast, -⟩ := inheritedFrom_step h hne hv
  rw [heq]
  refine hlink.bind_of_map fun k hk => ?_
  obtain ⟨hprops, hnext⟩ := Prod.mk.inj hk
  rw [hlast k hnext, hprops]
  exact .pure _

/-- A walk that cannot take a file in fails. -/
theorem gives_inheritedFrom_of_failed {start typeName : String} {visited : List String}
    (h : typeName ∈ start :: l.disk.bases) (hne : typeName ≠ "") (hv : typeName ∉ visited)
    {f : Fault}
    (hlink : Gives l ((fun k => (k.props, k.next?)) <$> l.linkOf typeName) (.error f)) :
    Gives l (l.inheritedFrom start visited typeName h) (.error f) := by
  obtain ⟨goOn, heq, -⟩ := inheritedFrom_step h hne hv
  rw [heq]
  exact hlink.bind_error_of_map

/-- **The walk follows the chain.** -/
theorem gives_inheritedFrom {start typeName : String} {visited : List String}
    {base? : Option String} {links : List (String × List Property)} {e : ChainEnd}
    (hc : Chain l visited base? links e) (hb : base? = some typeName)
    (h : typeName ∈ start :: l.disk.bases) :
    Gives l (l.inheritedFrom start visited typeName h) (e.answer links) := by
  induction hc generalizing typeName with
  | noBase hempty =>
    rw [Library.inheritedFrom, if_pos (by simpa using hempty typeName hb)]
    exact .pure _
  | repeated hne hv =>
    cases hb
    rw [Library.inheritedFrom, if_neg (by simpa using hne), dif_pos (by simpa using hv)]
    exact .note_pure _ _
  | root hne hv hr hp =>
    cases hb
    have hlink := gives_linkOf_root l hr
    rw [hp] at hlink
    refine (gives_inheritedFrom_of_last h hne hv hlink).of_eq ?_
    simp [ChainEnd.answer, contributed]
  | rootFailed hne hv hr hp =>
    cases hb
    have hlink := gives_linkOf_root l hr
    rw [hp] at hlink
    exact gives_inheritedFrom_of_failed h hne hv hlink
  | @ends _ _ e hne hv hr hd =>
    cases hb
    have hlink := gives_linkOf l hr
    rw [hd] at hlink
    cases e with
    | failed f => exact gives_inheritedFrom_of_failed h hne hv hlink
    | _ => exact gives_inheritedFrom_of_last h hne hv hlink
  | @next _ _ bag links e hne hv hr hd rest ih =>
    cases hb
    have hlink := gives_linkOf l hr
    rw [hd] at hlink
    obtain ⟨goOn, heq, hlast, hgoOn⟩ := inheritedFrom_step h hne hv
    rw [heq, ChainEnd.answer_cons]
    refine hlink.bind_of_map fun k hk => ?_
    obtain ⟨hprops, hnext⟩ := Prod.mk.inj hk
    cases hn : k.next? with
    | none =>
      -- the declaration extends nothing, so no type comes after this one
      rw [← hnext, hn] at rest
      obtain ⟨rfl, rfl⟩ := rest.of_none
      rw [hlast k hn, hprops]
      refine (Gives.pure _).of_eq ?_
      simp [ChainEnd.answer, contributed, Except.map]
    | some next =>
      rw [hgoOn k next hn, hprops]
      have hrest := ih (hnext.symm.trans hn) (List.mem_cons_of_mem _ (k.next_mem next hn))
      cases ha : e.answer links with
      | error f => exact (hrest.of_eq ha).bind_error
      | ok props => exact (hrest.of_eq ha).bind (.pure _)

/-- What is inherited is what the chain amounts to. -/
theorem gives_inheritedProperties {base? : Option String}
    {links : List (String × List Property)} {e : ChainEnd} (hc : Chain l [] base? links e) :
    Gives l (l.inheritedProperties base?) (e.answer links) := by
  cases base? with
  | none =>
    obtain ⟨rfl, rfl⟩ := hc.of_none
    exact .pure _
  | some base => exact gives_inheritedFrom hc rfl _

/-- The declaration of a type extends only what the files of the library extend. -/
theorem mem_bases_of_declarationAt {typeName base : String} {artifact : Path}
    {bag : PropertyBag} (hd : l.declarationAt typeName artifact = .ok bag)
    (hb : bag.base? = some base) : base ∈ l.disk.bases := by
  unfold Library.declarationAt at hd
  split at hd
  · cases hd
  · next source hcontent =>
    refine mem_bases_of_contentAt hcontent ?_
    unfold Library.bagOfSource at hd
    cases hs : source.toString? with
    | none => simp [hs] at hd
    | some text =>
      simp only [hs] at hd
      split at hd
      · cases hd
      · cases hd
      · next bag' hbag =>
        cases hd
        exact mem_basesOfSource hs (Except.ok.inj hbag) hb

/-- A type that is extended is named in some file. -/
theorem mem_bases_of_declarationOf {typeName base : String} {bag : PropertyBag}
    (hd : l.declarationOf typeName = .ok bag) (hb : bag.base? = some base) :
    base ∈ l.disk.bases := by
  unfold Library.declarationOf at hd
  split at hd
  · cases hd
  · cases hd
  · exact mem_bases_of_declarationAt hd hb

/-- **There is a chain from every type.** Each type that is added had not been visited,
and only the first one can be a type that the files of the library do not extend. -/
theorem exists_chain (start : String) (visited : List String) (base? : Option String)
    (h : ∀ base ∈ base?, base ∈ start :: l.disk.bases) :
    ∃ links e, Chain l visited base? links e := by
  by_cases hempty : ∀ typeName ∈ base?, typeName = ""
  · exact ⟨[], .noBase, .noBase hempty⟩
  obtain ⟨typeName, rfl, hne⟩ : ∃ typeName, base? = some typeName ∧ typeName ≠ "" := by
    cases base? with
    | none => simp at hempty
    | some typeName => exact ⟨typeName, rfl, by simpa using hempty⟩
  by_cases hv : typeName ∈ visited
  · exact ⟨[], .repeated, .repeated hne hv⟩
  by_cases hr : typeName = l.config.inheritance.rootType
  · cases hp : l.rootContribution with
    | ok props => exact ⟨_, _, .root hne hv hr hp⟩
    | error f => exact ⟨_, _, .rootFailed hne hv hr hp⟩
  cases hd : l.declarationOf typeName with
  | error e => exact ⟨[], e, .ends hne hv hr hd⟩
  | ok bag =>
    -- the type had not been visited, so fewer are left from here on
    obtain ⟨links, e, rest⟩ := exists_chain start (typeName :: visited) bag.base?
      fun base hb => List.mem_cons_of_mem _ (mem_bases_of_declarationOf hd hb)
    exact ⟨_, e, .next hne hv hr hd rest⟩
  termination_by (start :: l.disk.bases).countP fun n => !visited.contains n
  decreasing_by exact countP_unvisited_lt (h _ rfl) (by simpa using hv)

end Walk

/-! ## Properties of a component -/

/-- What the sources of a component declare about its own properties. -/
def Library.ownBag (l : Library) (sources : Sources) : Except Fault (Option PropertyBag) :=
  match sources.props.content? with
  | none => .ok none
  | some source =>
    bagOfSource (dialectOr .typescript sources.props.file?) (l.optionsFor none) source

section Component

variable {l : Library} {sources : Sources} {bag : PropertyBag}

/-- What a component declares itself comes from its source. -/
theorem exists_source_of_ownBag (h : l.ownBag sources = .ok (some bag)) :
    ∃ source, sources.props.content? = some source ∧
      Library.bagOfSource (Library.dialectOr .typescript sources.props.file?)
        (l.optionsFor none) source = .ok (some bag) := by
  unfold Library.ownBag at h
  split at h
  · cases h
  · next source hs => exact ⟨source, hs, h⟩

theorem exists_properties?_of_ownBag (h : l.ownBag sources = .ok (some bag)) :
    ∃ t : Tree, properties? t (l.optionsFor none) = some bag := by
  obtain ⟨source, -, hbag⟩ := exists_source_of_ownBag h
  unfold Library.bagOfSource at hbag
  split at hbag
  · cases hbag
  · exact ⟨_, Except.ok.inj hbag⟩

/-- The properties of a component are its own and those of its chain, each name
once. -/
theorem gives_componentProps {links : List (String × List Property)} {e : ChainEnd}
    (hbag : l.ownBag sources = .ok (some bag)) (hc : Chain l [] bag.base? links e) :
    Gives l (l.componentProps sources)
      ((e.answer links).map fun inherited =>
        (firstOfEachName Property.name [] (bag.props ++ inherited), bag.base?)) := by
  obtain ⟨source, hsource, hof⟩ := exists_source_of_ownBag hbag
  obtain ⟨hof', -⟩ | ⟨hof', -⟩ | ⟨t, found, -, hof', heq⟩ := declaredProperties_cases
    (Library.dialectOr .typescript sources.props.file?) (l.optionsFor none) source
  · cases hof.symm.trans hof'
  · cases hof.symm.trans hof'
  · cases hof.symm.trans hof'
    unfold Library.componentProps
    rw [hsource]
    dsimp only
    rw [heq]
    refine (Gives.pure _).bind ?_
    have hinherited := gives_inheritedProperties hc
    cases hans : e.answer links with
    | error f => exact (hinherited.of_eq hans).bind_error
    | ok inherited => exact (hinherited.of_eq hans).bind (.pure _)

/-- There is a chain from every type. -/
theorem exists_chain_from (l : Library) (base? : Option String) :
    ∃ links e, Chain l [] base? links e :=
  exists_chain (base?.getD "") [] base? fun base hb => by
    rw [Option.mem_def.1 hb]
    exact List.mem_cons_self

/-- What is inherited does not depend on the session. -/
theorem steady_inheritedProperties (l : Library) (base? : Option String) :
    Steady l (l.inheritedProperties base?) := by
  obtain ⟨links, e, hc⟩ := exists_chain_from l base?
  exact (gives_inheritedProperties hc).steady

theorem steady_componentProps (l : Library) (sources : Sources) :
    Steady l (l.componentProps sources) := by
  unfold Library.componentProps
  split
  · exact .pure _
  · refine .bind (steady_declaredProperties l _ _ _) fun bag? => ?_
    cases bag? with
    | none => exact .after_note _ (.pure _)
    | some bag => exact .bind (steady_inheritedProperties l bag.1.base?) fun _ => .pure _

/-- The properties that a component shows: its own and then those of the types on its
chain, of each name the first. -/
def nearest (own : List Property) (links : List (String × List Property)) : List Property :=
  (own ++ contributed links).eraseDupsBy fun p q => p.name == q.name

theorem firstOfEachName_eq_nearest (own : List Property)
    (links : List (String × List Property)) :
    firstOfEachName Property.name [] (own ++ contributed links) = nearest own links :=
  firstOfEachName_eq_eraseDupsBy Property.name _

/-- What a component declares itself stays in front. -/
theorem nearest_eq_append {own : List Property} (links : List (String × List Property))
    (hown : (own.map Property.name).Nodup) :
    ∃ inherited, nearest own links = own ++ inherited
      ∧ inherited.Sublist (contributed links) := by
  rw [← firstOfEachName_eq_nearest,
    firstOfEachName_append Property.name _ hown fun _ _ => List.not_mem_nil]
  exact ⟨_, rfl, firstOfEachName_sublist Property.name _ _⟩

/-- Every name stands for its nearest declaration. -/
theorem find?_nearest (own : List Property) (links : List (String × List Property))
    (name : String) :
    (nearest own links).find? (fun p => p.name == name)
      = (own ++ contributed links).find? (fun p => p.name == name) := by
  rw [← firstOfEachName_eq_nearest]
  exact find?_firstOfEachName Property.name List.not_mem_nil _

/-- **Nearest scope wins.** Whatever the files of a library are like, the types that a
component extends form exactly one chain, on which no type stands twice, and unless a
file on it cannot be taken in, the properties of the component are its own and those
of the chain, each type's marked with its name, of which every name keeps the first:
its own all come first, and every name stands for its nearest declaration. -/
theorem componentProps_eq_nearest_scope (l : Library) (sources : Sources) (bag : PropertyBag)
    (hbag : l.ownBag sources = .ok (some bag)) (s : Session) (hs : s.Agrees l) :
    ∃ links e, Chain l [] bag.base? links e
      ∧ (∀ links' e', Chain l [] bag.base? links' e' → links' = links ∧ e' = e)
      ∧ (links.map Prod.fst).Nodup
      ∧ (l.componentProps sources).result s
          = (match e with
            | .failed f => .error f
            | _ => .ok (nearest bag.props links, bag.base?))
      ∧ ((l.componentProps sources).after s).Agrees l
      ∧ (∃ inherited, nearest bag.props links = bag.props ++ inherited
          ∧ inherited.Sublist (contributed links))
      ∧ ∀ name, (nearest bag.props links).find? (fun p => p.name == name)
          = (bag.props ++ contributed links).find? (fun p => p.name == name) := by
  obtain ⟨links, e, hc⟩ := exists_chain_from l bag.base?
  obtain ⟨hresult, hafter⟩ := gives_componentProps hbag hc s hs
  obtain ⟨t, ht⟩ := exists_properties?_of_ownBag hbag
  refine ⟨links, e, hc, fun _ _ h' => hc.unique h', hc.nodup, ?_, hafter,
    nearest_eq_append links (nodup_name_of_properties? ht), find?_nearest bag.props links⟩
  rw [hresult, ← firstOfEachName_eq_nearest]
  cases e <;> rfl

end Component

/-! ## Two small libraries -/

/-- A source map that holds one source, given as it stands between quotes. -/
def sourceMapFile (source : String) : FileTree :=
  .file (Text.encode ("\x7b\"sourcesContent\":[\"" ++ source ++ "\"]\x7d"))

/-- A library in the top directory, with the given entries in its components
directory. -/
def smallLibrary (components : List (String × FileTree)) (config : Config) : Library where
  disk :=
    { tree := .directory [("components", .directory components)], cwd := ⟨"/", []⟩,
      home := ⟨"/", []⟩ }
  path := ⟨"", []⟩
  config := config

/-- Two types that extend each other, each under a search root of its own. -/
def entangled : Library :=
  smallLibrary
    [("x", .directory
      [("a.props.js.map", sourceMapFile "class AProps extends BProps\x7bb;c\x7d")]),
    ("y", .directory
      [("b.props.js.map", sourceMapFile "class BProps extends AProps\x7bc;d\x7d")])]
    { inheritance := { searchRoots := ["components/x", "components/y"] } }

/-- A type whose source is no text. -/
def unreadable : Library :=
  smallLibrary [("a.props.js.map", sourceMapFile "\\ud800")] {}

/-- A component that extends the type `AProps`. -/
def extendingSources : Sources :=
  { props := { content? := some (Wide.ofString "class PanelProps extends AProps\x7ba;b\x7d") } }

/-- What such a component declares itself. -/
def extendingBag : PropertyBag :=
  { className := "PanelProps"
    props := [{ name := "a", type := "any" }, { name := "b", type := "any" }]
    base? := some "AProps" }

/-- What the two types declare. -/
def entangledLinks : List (String × List Property) :=
  [("AProps", [{ name := "b", type := "any" }, { name := "c", type := "any" }]),
    ("BProps", [{ name := "c", type := "any" }, { name := "d", type := "any" }])]

/-- The chain goes through both types and ends where it comes back to the first. -/
theorem chain_entangled : Chain entangled [] (some "AProps") entangledLinks .repeated := by
  have hfirst : entangled.declarationOf "AProps" = .ok
      { className := "AProps", props := [{ name := "b", type := "any" },
        { name := "c", type := "any" }], base? := some "BProps" } := by decide +kernel
  have hsecond : entangled.declarationOf "BProps" = .ok
      { className := "BProps", props := [{ name := "c", type := "any" },
        { name := "d", type := "any" }], base? := some "AProps" } := by decide +kernel
  exact .next (by decide) (by decide) (by decide) hfirst
    (.next (by decide) (by decide) (by decide) hsecond (.repeated (by decide) (by decide)))

theorem componentProps_entangled :
    entangled.ownBag extendingSources = .ok (some extendingBag) ∧ Session.Agrees entangled {}
      ∧ Chain entangled [] (some "AProps") entangledLinks .repeated
      ∧ (∀ links e, Chain entangled [] (some "AProps") links e →
        links = entangledLinks ∧ e = .repeated)
      ∧ (entangled.componentProps extendingSources).result {} =
        .ok (nearest extendingBag.props entangledLinks, some "AProps") := by
  have hbag : entangled.ownBag extendingSources = .ok (some extendingBag) := by decide +kernel
  have hs := Session.agrees_empty entangled
  obtain ⟨links, e, -, hunique, -, hresult, -⟩ :=
    componentProps_eq_nearest_scope entangled extendingSources extendingBag hbag {} hs
  obtain ⟨rfl, rfl⟩ := hunique _ _ chain_entangled
  exact ⟨hbag, hs, chain_entangled, hunique, hresult⟩

/-- A file that cannot be taken in does not end the chain before it: the component
loses the properties that it declares itself. -/
theorem componentProps_unreadable :
    unreadable.ownBag extendingSources = .ok (some extendingBag)
      ∧ unreadable.artifactFor? "AProps" ≠ none
      ∧ (unreadable.componentProps extendingSources).result {} = .error .unencodable := by
  decide +kernel

end ComponentCatalog
