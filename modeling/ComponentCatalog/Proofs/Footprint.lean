import ComponentCatalog.Proofs.Below
import ComponentCatalog.Proofs.Listing
import ComponentCatalog.Proofs.WalkOrder

/-!
# What a document depends on

Of all the files there are, making the document of a component uses few: those directly in
its directory and in the directories below it, the file of the root type, and for every type
that is met on a chain of types the files whose names fit that type. Which types are met is
only known once the files of the types before them have been read, so what matters is found
out while it is used (`Library.Meets`).

Two libraries that agree on all this have the same document for the component
(`componentDocument_footprint`), although all files under a search root are listed and looked
through on the way. There is one thing more to agree on. Whether a path can be looked up at
all may depend on directories that lead to nothing that is used: a name that is too long is a
fault if the directory before it exists, and is not even reached if it does not. In the same
way a search root fails for a directory below it whose path is too long, whatever it holds.
-/

namespace ComponentCatalog

open Text Syntax Extract

/-! ## Types on a chain -/

namespace Library

variable (l : Library)

/-- **A type that is met** on the chain from a type, and that is looked for among the files
under the search roots. -/
inductive Meets : Option String → String → Prop
  | here {typeName : String} (hne : typeName ≠ "")
      (hr : typeName ≠ l.config.inheritance.rootType) : Meets (some typeName) typeName
  | next {typeName typeName' : String} {bag : PropertyBag} (hne : typeName ≠ "")
      (hr : typeName ≠ l.config.inheritance.rootType)
      (hd : l.declarationOf typeName = .ok bag) (h : Meets bag.base? typeName') :
      Meets (some typeName) typeName'

/-- A type that is met on the chain of the component in a directory. -/
def MetAt (dir : Path) (typeName : String) : Prop :=
  ∃ sources bag, (sourcesOf l.disk dir).fresh = .ok sources ∧ l.ownBag sources = .ok (some bag)
    ∧ l.Meets bag.base? typeName

/-- The files under a search root whose names fit a type, in their order, with what stands in
them; none if the search root cannot be looked at. -/
def artifactsFor (typeName root : String) : List (String × Path × Option (List UInt8)) :=
  let names := (l.stemsFor typeName).map (· ++ propsSuffix)
  let index := (artifactIndex l.disk l.path root).toOption.getD []
  (index.filter fun e => names.contains e.1).map fun e =>
    (e.1, e.2, (l.disk.readFile e.2).toOption)

end Library

/-- Whether a path can be looked up, wherever it leads. -/
def Disk.admits (d : Disk) (p : Path) : Bool :=
  (d.directory? p).toOption.isSome

/-- Whether a search root can be looked through, wherever it leads. -/
def Disk.admitsSearch (d : Disk) (root : Path) : Bool :=
  (d.searchRoot? root).toOption.isSome

/-- A search root fails in one way only. -/
theorem Disk.searchRoot?_eq_error (d : Disk) {root : Path} {f : PathFault}
    (h : d.searchRoot? root = .error f) : f = .nameTooLong := by
  unfold Disk.searchRoot? at h
  split at h
  · split at h
    · cases h
    · exact (Except.error.inj h).symm
  · cases h
  · next f' hdir =>
    cases h
    exact d.directory?_eq_error hdir

section Search

variable {l : Library} {d : Disk}

/-- A search root can be listed exactly if it admits a search. -/
theorem exists_artifactIndex_iff (l : Library) (root : String) :
    (∃ index, artifactIndex l.disk l.path root = .ok index)
      ↔ l.disk.admitsSearch (l.path.child root) = true := by
  unfold artifactIndex Disk.admitsSearch
  dsimp only
  rcases l.disk.searchRoot? (l.path.child root) with f | t?
  · exact ⟨nofun, nofun⟩
  · cases t? with
    | none => exact ⟨fun _ => rfl, fun _ => ⟨_, rfl⟩⟩
    | some t => exact ⟨fun _ => rfl, fun _ => ⟨_, rfl⟩⟩

/-- A file for a type is found among those whose names fit it. -/
theorem lookup_artifactsFor {typeName root stem : String} {index : ArtifactIndex}
    (hindex : artifactIndex l.disk l.path root = .ok index) (hstem : stem ∈ l.stemsFor typeName) :
    (l.artifactsFor typeName root).lookup (stem ++ propsSuffix)
      = (index.lookup (stem ++ propsSuffix)).map fun p => (p, (l.disk.readFile p).toOption) := by
  have hname : ((l.stemsFor typeName).map (· ++ propsSuffix)).contains (stem ++ propsSuffix)
      = true := List.contains_iff_mem.2 (List.mem_map_of_mem hstem)
  have hkept := lookup_filter_of_keep
    (((l.stemsFor typeName).map (· ++ propsSuffix)).contains ·) index hname
  unfold Library.artifactsFor
  rw [hindex, ← hkept]
  exact lookup_map_snd (fun p => (p, (l.disk.readFile p).toOption)) _ _

theorem artifactIndex_of_not_admitsSearch {root : String}
    (h : l.disk.admitsSearch (l.path.child root) = false) :
    artifactIndex l.disk l.path root = .error (.badPath .nameTooLong) := by
  unfold Disk.admitsSearch at h
  rcases hdir : l.disk.searchRoot? (l.path.child root) with f | t?
  · unfold artifactIndex
    dsimp only
    rw [hdir, l.disk.searchRoot?_eq_error hdir]
  · rw [hdir] at h
    cases h

/-- Under a search root on which two libraries agree, the same file is found for a type. -/
theorem lookup_artifactIndex_congr {typeName root stem : String}
    (hadmits : d.admitsSearch (l.path.child root) = l.disk.admitsSearch (l.path.child root))
    (hfiles : (l.on d).artifactsFor typeName root = l.artifactsFor typeName root)
    (hstem : stem ∈ l.stemsFor typeName) :
    ((artifactIndex d l.path root).map fun index => index.lookup (stem ++ propsSuffix))
        = ((artifactIndex l.disk l.path root).map fun index => index.lookup (stem ++ propsSuffix))
      ∧ ∀ artifact, ((artifactIndex l.disk l.path root).map fun index =>
          index.lookup (stem ++ propsSuffix)) = .ok (some artifact) →
        (d.readFile artifact).toOption = (l.disk.readFile artifact).toOption := by
  cases hroot : l.disk.admitsSearch (l.path.child root) with
  | false =>
    have herror := artifactIndex_of_not_admitsSearch hroot
    have herror' : artifactIndex d l.path root = .error (.badPath .nameTooLong) :=
      artifactIndex_of_not_admitsSearch (l := l.on d) (hadmits.trans hroot)
    rw [herror, herror']
    exact ⟨rfl, nofun⟩
  | true =>
    obtain ⟨index, hindex⟩ := (exists_artifactIndex_iff l root).2 hroot
    obtain ⟨index', hindex'⟩ := (exists_artifactIndex_iff (l.on d) root).2 (hadmits.trans hroot)
    -- files for a type are compared together with what is read from them
    have hlookup := lookup_artifactsFor hindex hstem
    have hlookup' : ((l.on d).artifactsFor typeName root).lookup (stem ++ propsSuffix)
        = (index'.lookup (stem ++ propsSuffix)).map fun p => (p, (d.readFile p).toOption) :=
      lookup_artifactsFor hindex' hstem
    rw [hfiles, hlookup] at hlookup'
    have hindex' : artifactIndex d l.path root = .ok index' := hindex'
    rw [hindex, hindex']
    show Except.ok (index'.lookup (stem ++ propsSuffix))
        = Except.ok (index.lookup (stem ++ propsSuffix))
      ∧ ∀ artifact, Except.ok (index.lookup (stem ++ propsSuffix)) = Except.ok (some artifact) → _
    rcases hfound : index.lookup (stem ++ propsSuffix) with _ | artifact
    · rw [hfound] at hlookup'
      rw [Option.map_eq_none_iff.1 hlookup'.symm]
      exact ⟨rfl, nofun⟩
    · rw [hfound] at hlookup'
      obtain ⟨artifact', hfound', heq⟩ := Option.map_eq_some_iff.1 hlookup'.symm
      obtain ⟨rfl, hread⟩ := Prod.mk.inj heq
      rw [hfound']
      refine ⟨rfl, fun artifact'' h => ?_⟩
      cases h
      exact hread

/-- Searches that agree at each step agree. -/
theorem findSomeM?_congr {α β ε : Type} {f g : α → Except ε (Option β)} {as : List α}
    (h : ∀ a ∈ as, f a = g a) : as.findSomeM? f = as.findSomeM? g := by
  induction as with
  | nil => rfl
  | cons a as ih =>
    rw [List.findSomeM?, List.findSomeM?, h a List.mem_cons_self,
      ih fun b hb => h b (List.mem_cons_of_mem _ hb)]

/-- The same file is found for a type, and the same stands in it. -/
theorem searchFor_congr {typeName : String}
    (hadmits : ∀ root ∈ l.config.inheritance.searchRoots,
      d.admitsSearch (l.path.child root) = l.disk.admitsSearch (l.path.child root))
    (hfiles : ∀ root ∈ l.config.inheritance.searchRoots,
      (l.on d).artifactsFor typeName root = l.artifactsFor typeName root) :
    (l.on d).searchFor typeName = l.searchFor typeName
      ∧ ∀ artifact, l.searchFor typeName = .ok (some artifact) →
        (d.readFile artifact).toOption = (l.disk.readFile artifact).toOption := by
  have hroot := fun root hroot stem (hstem : stem ∈ l.stemsFor typeName) =>
    lookup_artifactIndex_congr (hadmits root hroot) (hfiles root hroot) hstem
  constructor
  · have hstems : (l.on d).stemsFor typeName = l.stemsFor typeName := rfl
    unfold Library.searchFor Library.fileOfStems
    rw [hstems]
    refine findSomeM?_congr fun stem hstem => ?_
    unfold Library.fileUnder
    exact findSomeM?_congr fun root hmem => (hroot root hmem stem hstem).1
  · intro artifact h
    obtain ⟨stem, hstem, hunder⟩ := exists_some_of_findSomeM? h
    obtain ⟨root, hmem, hfound⟩ := exists_some_of_findSomeM? hunder
    exact (hroot root hmem stem hstem).2 artifact hfound

end Search

/-! ## Chains in two libraries -/

section Chains

variable {l : Library} {d : Disk}

/-- What a file declares depends on its bytes. -/
theorem declarationAt_congr (hcwd : d.cwd = l.disk.cwd) {typeName : String} {artifact : Path}
    (h : (d.readFile artifact).toOption = (l.disk.readFile artifact).toOption) :
    (l.on d).declarationAt typeName artifact = l.declarationAt typeName artifact := by
  have hcontent : SourceMap.contentAt (l.on d).disk artifact 0
      = SourceMap.contentAt l.disk artifact 0 := contentAt_congr hcwd h 0
  have hname : SourceMap.nameAt (l.on d).disk artifact 0 = SourceMap.nameAt l.disk artifact 0 :=
    nameAt_congr hcwd h 0
  unfold Library.declarationAt
  rw [hcontent, hname]
  rfl

/-- What a type declares depends on the files that may declare it, and on whether the search roots
admit a search. -/
theorem declarationOf_congr (hcwd : d.cwd = l.disk.cwd) {typeName : String}
    (hadmits : ∀ root ∈ l.config.inheritance.searchRoots,
      d.admitsSearch (l.path.child root) = l.disk.admitsSearch (l.path.child root))
    (hfiles : ∀ root ∈ l.config.inheritance.searchRoots,
      (l.on d).artifactsFor typeName root = l.artifactsFor typeName root) :
    (l.on d).declarationOf typeName = l.declarationOf typeName := by
  obtain ⟨hsearch, hread⟩ := searchFor_congr hadmits hfiles
  unfold Library.declarationOf
  rw [hsearch]
  rcases hfound : l.searchFor typeName with f | artifact?
  · rfl
  · cases artifact? with
    | none => rfl
    | some artifact => exact declarationAt_congr hcwd (hread artifact hfound)

/-- What the root type contributes depends on its file. -/
theorem rootContribution_congr (hcwd : d.cwd = l.disk.cwd)
    (h : (d.readFile (l.path.child l.config.inheritance.rootArtifact)).toOption
      = (l.disk.readFile (l.path.child l.config.inheritance.rootArtifact)).toOption) :
    (l.on d).rootContribution = l.rootContribution := by
  have hpath : (l.on d).path = l.path := rfl
  have hconfig : (l.on d).config = l.config := rfl
  unfold Library.rootContribution
  dsimp only
  rw [hpath, hconfig, declarationAt_congr hcwd h]

/-- A chain is one in the other library too, if the types that are met on it are declared there
as they are here. -/
theorem Chain.on {visited : List String} {base? : Option String}
    {links : List (String × List Property)} {e : ChainEnd} (hc : Chain l visited base? links e)
    (hroot : (l.on d).rootContribution = l.rootContribution)
    (hmet : ∀ typeName, l.Meets base? typeName →
      (l.on d).declarationOf typeName = l.declarationOf typeName) :
    Chain (l.on d) visited base? links e := by
  induction hc with
  | noBase h => exact .noBase h
  | repeated hne hv => exact .repeated hne hv
  | root hne hv hr hp => exact .root hne hv hr (hroot.trans hp)
  | rootFailed hne hv hr hp => exact .rootFailed hne hv hr (hroot.trans hp)
  | ends hne hv hr hd => exact .ends hne hv hr ((hmet _ (.here hne hr)).trans hd)
  | next hne hv hr hd rest ih =>
    exact .next hne hv hr ((hmet _ (.here hne hr)).trans hd)
      (ih fun typeName h => hmet typeName (.next hne hr hd h))

/-- The properties are the same if the types on the chain are declared in the same way. -/
theorem propsIn_congr {sources : Sources}
    (hroot : (l.on d).rootContribution = l.rootContribution)
    (hmet : ∀ bag, l.ownBag sources = .ok (some bag) → ∀ typeName, l.Meets bag.base? typeName →
      (l.on d).declarationOf typeName = l.declarationOf typeName) :
    (l.on d).propsIn sources.props = l.propsIn sources.props := by
  have hown : (l.on d).ownBag sources = l.ownBag sources := rfl
  obtain ⟨hg, hin⟩ | ⟨hg, hnone, hin⟩ | ⟨hg, bag, links, e, hbag, hc, hin⟩ :=
    propsIn_cases l sources
  · obtain ⟨-, hin'⟩ | ⟨hg', -⟩ | ⟨hg', -⟩ := propsIn_cases (l.on d) sources
    · rw [hin, hin']
    · exact absurd hg hg'
    · exact absurd hg hg'
  · obtain ⟨hg', -⟩ | ⟨-, -, hin'⟩ | ⟨-, bag', _, _, hbag', -⟩ := propsIn_cases (l.on d) sources
    · exact absurd hg' hg
    · rw [hin, hin']
    · cases hbag'.symm.trans (hown.trans hnone)
  · obtain ⟨hg', -⟩ | ⟨-, hnone', -⟩ | ⟨-, bag', links', e', hbag', hc', hin'⟩ :=
      propsIn_cases (l.on d) sources
    · exact absurd hg' hg
    · cases hbag.symm.trans hnone'
    · cases hbag.symm.trans hbag'
      obtain ⟨rfl, rfl⟩ := (hc.on hroot (hmet bag hbag)).unique hc'
      rw [hin, hin']

end Chains

/-! ## Documents in two libraries -/

namespace Library

variable (l : Library)

/-- A component, under the name it is documented with, and the directories below it, each under
its own. -/
def Reaches (name : String) (dir : Path) (n : String) (x : Path) : Prop :=
  (n = name ∧ x = dir) ∨ (n = x.name ∧ l.Below name dir x)

/-- **The libraries agree on what a component refers to**: on what is in its directory and in
those below it, on which of the declared children exist, on the file of the root type, and on
the files that fit a type that is met on the chain of one of these components. -/
structure SameReferences (d : Disk) (name : String) (dir : Path) : Prop where
  contents : ∀ n x, l.Reaches name dir n x → d.contents x = l.disk.contents x
  existing : ∀ n x, l.Reaches name dir n x → ∀ entry ∈ l.declaredChildren n,
    d.isDirectory (x.child entry.2) = l.disk.isDirectory (x.child entry.2)
  root : (d.readFile (l.path.child l.config.inheritance.rootArtifact)).toOption
    = (l.disk.readFile (l.path.child l.config.inheritance.rootArtifact)).toOption
  artifacts : ∀ n x, l.Reaches name dir n x → ∀ typeName, l.MetAt x typeName →
    ∀ root ∈ l.config.inheritance.searchRoots,
      (l.on d).artifactsFor typeName root = l.artifactsFor typeName root

/-- **The libraries agree on what can be looked up** of the paths that the configuration gives:
those of declared children, and those of the search roots, with everything below these. -/
structure SameAdmitted (d : Disk) (name : String) (dir : Path) : Prop where
  children : ∀ n x, l.Reaches name dir n x → ∀ entry ∈ l.declaredChildren n,
    d.admits (x.child entry.2) = l.disk.admits (x.child entry.2)
  roots : ∀ root ∈ l.config.inheritance.searchRoots,
    d.admitsSearch (l.path.child root) = l.disk.admitsSearch (l.path.child root)

end Library

section Documents

variable {l : Library} {d : Disk} {name : String} {dir : Path}

/-- A declared child fails if its path is not admitted. -/
theorem childFault?_eq (l : Library) (dir : Path) (entry : String × String) :
    l.childFault? dir entry = if l.disk.admits (dir.child entry.2) then none
      else some (.badPath .nameTooLong) := by
  unfold Library.childFault? Disk.admits
  cases h : l.disk.directory? (dir.child entry.2) with
  | ok t? => rfl
  | error f =>
    rw [l.disk.directory?_eq_error h]
    rfl

/-- Agreeing on what a component refers to makes no difference at the component, and at those
below it. -/
theorem Library.SameReferences.sameAt (h : l.SameReferences d name dir)
    (hadmitted : l.SameAdmitted d name dir) (hcwd : d.cwd = l.disk.cwd)
    (hwell : l.disk.tree.isWellNamed = true) {n : String} {x : Path}
    (hreach : l.Reaches name dir n x) : l.SameAt d n x where
  sources := by rw [sourcesOf_eq_of_contents hcwd hwell (h.contents n x hreach)]
  props := fun sources hsources =>
    propsIn_congr (rootContribution_congr hcwd h.root) fun bag hbag typeName hmet =>
      declarationOf_congr hcwd hadmitted.roots
        (h.artifacts n x hreach typeName ⟨sources, bag, hsources, hbag, hmet⟩)
  isDirectory := h.existing n x hreach
  childFault? := fun entry hentry => by
    rw [childFault?_eq, childFault?_eq]
    show (if d.admits (x.child entry.2) then _ else _) = _
    rw [hadmitted.children n x hreach entry hentry]

end Documents

/-- **A document depends only on what its component refers to.** Two libraries of one place and
one configuration that agree on what is in the directory of the component and in those below
it, on which of the declared children exist, on the file of the root type, and on the files that
fit a type that is met, give the component the same document, or none in both, whatever else
there is on their disks and in whichever sessions it is made. They have to agree, too, on which
paths of the configuration can be looked up. -/
theorem componentDocument_footprint (l : Library) (d : Disk) (path category : String)
    (name? : Option String) (hcwd : d.cwd = l.disk.cwd) (hwell : l.disk.tree.isWellNamed = true)
    (hsame : l.SameReferences d (documentedName name? (.ofString path)) (.ofString path))
    (hadmitted : l.SameAdmitted d (documentedName name? (.ofString path)) (.ofString path))
    (s s' : Session) (hs : s.Agrees l) (hs' : s'.Agrees (l.on d)) :
    ∃ c?, (l.componentDocument path category name?).result s = .ok c?
      ∧ ((l.on d).componentDocument path category name?).result s' = .ok c? := by
  have hdocument := documentIn_congr hcwd category name?
    (hsame.sameAt hadmitted hcwd hwell (.inl ⟨rfl, rfl⟩))
    fun x hx => hsame.sameAt hadmitted hcwd hwell (.inr ⟨rfl, hx⟩)
  refine ⟨_, (gives_componentDocument_documentIn l path category name? s hs).1, ?_⟩
  rw [(gives_componentDocument_documentIn (l.on d) path category name? s' hs').1, hdocument]
  rfl

/-! ## Two small libraries -/

section Small

variable {l : Library} {name : String} {dir : Path}

theorem not_meets_none {typeName : String} : ¬ l.Meets none typeName := nofun

/-- A type whose declaration extends nothing is the only one that is met from there. -/
theorem eq_of_meets_last {base typeName : String}
    (hlast : (l.declarationOf base).toOption.bind PropertyBag.base? = none)
    (h : l.Meets (some base) typeName) : typeName = base := by
  cases h with
  | here _ _ => rfl
  | next _ _ hd h =>
    rw [hd] at hlast
    have hnone : PropertyBag.base? _ = none := hlast
    rw [hnone] at h
    exact absurd h not_meets_none

/-- The types that are met on the chain of a component are met from the one it extends. -/
theorem meets_of_metAt {typeName : String} (base? : Option String)
    (hbase : (((sourcesOf l.disk dir).fresh.toOption.bind fun sources =>
      (l.ownBag sources).toOption.join).map PropertyBag.base?) = some base?)
    (h : l.MetAt dir typeName) : l.Meets base? typeName := by
  obtain ⟨sources, bag, hsources, hbag, hmet⟩ := h
  rw [hsources] at hbase
  change ((l.ownBag sources).toOption.join).map PropertyBag.base? = some base? at hbase
  rw [hbag] at hbase
  rwa [← Option.some.inj hbase]

end Small

/-- A component with a child, and with a type that it extends among those of the search
root. -/
def referring (types : List (String × FileTree)) : Library where
  disk :=
    { tree := .directory
        [("components", .directory
          [("a", .directory
            [("a.props.js.map", sourceMapFile "class AProps extends BProps\x7bb\x7d")]),
          ("e", .directory [("e.props.js.map", sourceMapFile "f")])]),
        ("core", .directory types)]
      cwd := ⟨"/", []⟩
      home := ⟨"/", []⟩ }
  path := ⟨"", []⟩
  config :=
    { childComponents := [("a", [("e", "../e")])], inheritance := { searchRoots := ["core"] } }

/-- The file of the type that the component extends. -/
def referredType : String × FileTree :=
  ("b.props.js.map", sourceMapFile "class BProps\x7bc\x7d")

/-- The file of another type. -/
def unrelatedType : String × FileTree :=
  ("z.props.js.map", sourceMapFile "class ZProps\x7bd\x7d")

/-- From the component its child is reached, and nothing else. -/
theorem reaches_referring {n : String} {x : Path}
    (h : (referring [referredType]).Reaches "a" (.ofString "components/a") n x) :
    (n = "a" ∧ x = .ofString "components/a")
      ∨ (n = "e" ∧ x = (Path.ofString "components/a").child "../e") := by
  have ha : (referring [referredType]).declaredChildren "a" = [("e", "../e")] := by decide
  have he : (referring [referredType]).declaredChildren "e" = [] := by decide
  have hname : ((Path.ofString "components/a").child "../e").name = "e" := by decide
  rcases h with h | ⟨rfl, h⟩
  · exact .inl h
  obtain ⟨entry, hentry, -, hx⟩ := h.exists_entry
  rw [ha, List.mem_singleton] at hentry
  subst hentry
  rcases hx with rfl | hx
  · exact .inr ⟨hname, rfl⟩
  · obtain ⟨entry, hentry, -⟩ := hx.exists_entry
    rw [hname, he] at hentry
    cases hentry

/-- The files under the search root are listed in order. -/
theorem artifactIndex_referring :
    artifactIndex (referring [referredType, unrelatedType]).disk ⟨"", []⟩ "core"
      = .ok [("b.props.js.map", ⟨"", ["core", "b.props.js.map"]⟩),
        ("z.props.js.map", ⟨"", ["core", "z.props.js.map"]⟩)] := by
  have hdir : (referring [referredType, unrelatedType]).disk.searchRoot?
      (Path.child ⟨"", []⟩ "core")
        = .ok (some (.directory [referredType, unrelatedType])) := rfl
  have hparts : artifactParts (.directory [referredType, unrelatedType])
      = [["b.props.js.map"], ["z.props.js.map"]] := by
    unfold artifactParts
    exact List.mergeSort_of_pairwise (by decide)
  unfold artifactIndex
  dsimp only
  rw [hdir]
  dsimp only
  rw [hparts]
  decide

theorem artifactsFor_referring :
    (referring [referredType, unrelatedType]).artifactsFor "BProps" "core"
      = (referring [referredType]).artifactsFor "BProps" "core" := by
  have hpath : (referring [referredType, unrelatedType]).path = ⟨"", []⟩ := rfl
  have hfiles := Library.artifactsFor.eq_1 (referring [referredType, unrelatedType]) "BProps" "core"
  rw [hpath, artifactIndex_referring] at hfiles
  rw [hfiles]
  decide +kernel

/-- The added file is nothing that the component refers to. -/
theorem sameReferences_referring :
    (referring [referredType]).SameReferences (referring [referredType, unrelatedType]).disk "a"
      (.ofString "components/a") := by
  refine ⟨fun n x h => ?_, fun n x h => ?_, by decide, fun n x h typeName hmet => ?_⟩
  · obtain ⟨-, rfl⟩ | ⟨-, rfl⟩ := reaches_referring h
    · rfl
    · rfl
  · obtain ⟨rfl, rfl⟩ | ⟨rfl, rfl⟩ := reaches_referring h
    · decide
    · decide
  · obtain ⟨-, rfl⟩ | ⟨-, rfl⟩ := reaches_referring h
    · have hbase := meets_of_metAt (some "BProps") (by decide +kernel) hmet
      obtain rfl := eq_of_meets_last (by decide +kernel) hbase
      intro root hroot
      obtain rfl := List.mem_singleton.1 hroot
      exact artifactsFor_referring
    · obtain ⟨sources, bag, hsources, hbag, -⟩ := hmet
      have hnone : ((sourcesOf (referring [referredType]).disk
          ((Path.ofString "components/a").child "../e")).fresh.toOption.bind fun sources =>
            ((referring [referredType]).ownBag sources).toOption.join) = none := by
        decide +kernel
      rw [hsources] at hnone
      cases (congrArg (fun r => (Except.toOption r).join) hbag).symm.trans hnone

theorem sameAdmitted_referring :
    (referring [referredType]).SameAdmitted (referring [referredType, unrelatedType]).disk "a"
      (.ofString "components/a") := by
  refine ⟨fun n x h => ?_, by decide⟩
  obtain ⟨rfl, rfl⟩ | ⟨rfl, rfl⟩ := reaches_referring h
  · decide
  · decide

theorem componentDocument_footprint_referring :
    (referring [referredType]).disk.tree.isWellNamed = true
      ∧ (referring [referredType]).SameReferences (referring [referredType, unrelatedType]).disk
          "a" (.ofString "components/a")
      ∧ (referring [referredType]).SameAdmitted (referring [referredType, unrelatedType]).disk
          "a" (.ofString "components/a")
      ∧ ∃ c, ((referring [referredType]).componentDocument "components/a" "g" none).result {}
            = .ok (some c)
          ∧ ((referring [referredType, unrelatedType]).componentDocument "components/a" "g"
              none).result {} = .ok (some c)
          ∧ c.props.map Property.name = ["b", "c"] ∧ c.children.map Component.name = ["e"] := by
  have hwell : (referring [referredType]).disk.tree.isWellNamed = true := by decide
  have hshape : (((referring [referredType]).componentDocument "components/a" "g" none).result
      {}).toOption.join.map (fun c => (c.props.map Property.name, c.children.map Component.name))
        = some (["b", "c"], ["e"]) := by
    decide +kernel
  have hname : documentedName none (.ofString "components/a") = "a" := by decide
  have hon : (referring [referredType]).on (referring [referredType, unrelatedType]).disk
      = referring [referredType, unrelatedType] := rfl
  obtain ⟨c?, hc, hc'⟩ := componentDocument_footprint (referring [referredType])
    (referring [referredType, unrelatedType]).disk "components/a" "g" none rfl hwell
    (hname ▸ sameReferences_referring) (hname ▸ sameAdmitted_referring) {} {}
    (Session.agrees_empty _) (Session.agrees_empty _)
  rw [hon] at hc'
  rw [hc] at hshape
  obtain ⟨c, hsome, hparts⟩ := Option.map_eq_some_iff.1 hshape
  have heq : c? = some c := hsome
  obtain ⟨hprops, hchildren⟩ := Prod.mk.inj hparts
  exact ⟨hwell, sameReferences_referring, sameAdmitted_referring, c, heq ▸ hc, heq ▸ hc', hprops,
    hchildren⟩

/-- A component whose child is declared with a name that is longer than names may be. -/
def overlongChild (others : List (String × FileTree)) : Library :=
  smallLibrary
    (("a", .directory [("a.props.js.map", sourceMapFile "class AProps\x7bb\x7d")]) :: others)
    { childComponents := [("a", [("c", "../x/" ++ nameOfLength 256)])] }

/-- The path of that child. -/
def overlongPath : Path :=
  ⟨"", ["components", "a", "..", "x", nameOfLength 256]⟩

theorem child_overlong :
    (Path.ofString "components/a").child ("../x/" ++ nameOfLength 256) = overlongPath := by
  have hne (s : String) (hs : s.utf8ByteSize ≠ 256) : nameOfLength 256 ≠ s := fun h =>
    hs (h ▸ utf8ByteSize_nameOfLength 256)
  have hplain : Path.Plain ⟨"", ["..", "x", nameOfLength 256]⟩ := by
    refine ⟨.inl rfl, List.forall_mem_cons.2 ⟨by decide, List.forall_mem_cons.2 ⟨by decide, ?_⟩⟩⟩
    rw [List.forall_mem_singleton]
    exact ⟨hne _ (by decide), hne _ (by decide), not_mem_nameOfLength (by decide) 256⟩
  have htext : Path.toString ⟨"", ["..", "x", nameOfLength 256]⟩ = "../x/" ++ nameOfLength 256 := by
    have hup : ".." ++ "/" ++ "x" ++ "/" = "../x/" := by decide
    rw [Path.toString, if_neg (by simp)]
    show "" ++ (".." ++ "/" ++ "x" ++ "/" ++ nameOfLength 256) = _
    rw [hup, String.empty_append]
  have hread := hplain.ofString_toString
  rw [htext] at hread
  have hdir : Path.ofString "components/a" = ⟨"", ["components", "a"]⟩ := by decide
  rw [Path.child, hread, hdir]
  rfl

theorem find_overlongPath (others : List (String × FileTree)) {f : PathFault}
    (h : overlongPath.parts.foldlM (Disk.step (overlongChild others).disk.tree) [] = .error f) :
    (overlongChild others).disk.find overlongPath = .error f := by
  have hparts : (overlongChild others).disk.fullParts overlongPath = overlongPath.parts := rfl
  have hzero : Disk.hasZero overlongPath.parts = false := by
    have hname := not_mem_nameOfLength (c := '\x00') (by decide) 256
    simp [Disk.hasZero, overlongPath, hname]
  have hshort : (overlongChild others).disk.isTooLong overlongPath = false := by
    have htext : overlongPath.toString = "components/a/../x/" ++ nameOfLength 256 := by
      have hdir : "components" ++ "/" ++ "a" ++ "/" ++ ".." ++ "/" ++ "x" ++ "/"
          = "components/a/../x/" := by decide
      rw [Path.toString, overlongPath, if_neg (by simp)]
      show "" ++ ("components" ++ "/" ++ "a" ++ "/" ++ ".." ++ "/" ++ "x" ++ "/"
        ++ nameOfLength 256) = _
      rw [hdir, String.empty_append]
    have hsize : overlongPath.toString.utf8ByteSize ≤ Disk.pathLimit := by
      rw [htext, String.utf8ByteSize_append, utf8ByteSize_nameOfLength]
      decide
    rw [Disk.isTooLong, decide_eq_false (Nat.not_lt.2 hsize), Bool.false_and]
  rw [Disk.find, if_neg (by simp [hshort]), Disk.follow, hparts, if_neg (by simp [hzero]), h]
  rfl

theorem declaredChildren_overlongChild (others : List (String × FileTree)) :
    (overlongChild others).declaredChildren "a" = [("c", "../x/" ++ nameOfLength 256)] := rfl

/-- Nothing is found there without the directory before the last name, and with it the name is
too long to be looked for. -/
theorem find_overlong :
    (overlongChild []).disk.find overlongPath = .error .missing
      ∧ (overlongChild [("x", .directory [])]).disk.find overlongPath = .error .nameTooLong := by
  refine ⟨find_overlongPath _ rfl, find_overlongPath _ ?_⟩
  have hparts : overlongPath.parts = ["components", "a", "..", "x"] ++ [nameOfLength 256] := rfl
  have hfold (name : String) : (["components", "a", "..", "x"] ++ [name]).foldlM
      (Disk.step (overlongChild [("x", .directory [])]).disk.tree) []
        = Disk.step (overlongChild [("x", .directory [])]).disk.tree ["components", "x"] name := by
    rw [List.foldlM_append]
    exact bind_pure (Disk.step _ ["components", "x"] name)
  have hat : (overlongChild [("x", .directory [])]).disk.tree.at? ["components", "x"]
      = some (.directory []) := rfl
  have hup : nameOfLength 256 ≠ ".." := fun h =>
    not_mem_nameOfLength (c := '.') (by decide) 256 (h ▸ by decide)
  have hlong : Disk.nameLimit < (nameOfLength 256).utf8ByteSize := by
    rw [utf8ByteSize_nameOfLength]
    decide
  have hlast : Disk.step (overlongChild [("x", .directory [])]).disk.tree ["components", "x"]
      (nameOfLength 256) = .error .nameTooLong := by
    rw [Disk.step, hat]
    simp only [beq_false_of_ne hup, Bool.false_eq_true, if_false, if_pos hlong]
  rw [hparts, hfold, hlast]

theorem isDirectory_overlong :
    (overlongChild []).disk.isDirectory overlongPath = false
      ∧ (overlongChild [("x", .directory [])]).disk.isDirectory overlongPath = false :=
  ⟨Disk.isDirectory_of_error find_overlong.1, Disk.isDirectory_of_error find_overlong.2⟩

/-- Nothing is reached but the component itself. -/
theorem reaches_overlongChild {n : String} {x : Path}
    (h : (overlongChild []).Reaches "a" (.ofString "components/a") n x) :
    n = "a" ∧ x = .ofString "components/a" := by
  rcases h with h | ⟨-, h⟩
  · exact h
  obtain ⟨entry, hentry, hdir, -⟩ := h.exists_entry
  rw [declaredChildren_overlongChild, List.mem_singleton] at hentry
  rw [hentry, child_overlong, isDirectory_overlong.1] at hdir
  cases hdir

theorem sameReferences_overlongChild :
    (overlongChild []).SameReferences (overlongChild [("x", .directory [])]).disk "a"
      (.ofString "components/a") := by
  refine ⟨fun n x h => ?_, fun n x h => ?_, by decide, fun n x h typeName hmet => ?_⟩
  · obtain ⟨-, rfl⟩ := reaches_overlongChild h
    rfl
  · obtain ⟨rfl, rfl⟩ := reaches_overlongChild h
    rw [declaredChildren_overlongChild, List.forall_mem_singleton, child_overlong,
      isDirectory_overlong.1, isDirectory_overlong.2]
  · obtain ⟨-, rfl⟩ := reaches_overlongChild h
    exact absurd (meets_of_metAt none (by decide +kernel) hmet) not_meets_none

/-- Its sources give facets, whatever there is beside it. -/
theorem exists_facetsIn_overlongChild :
    ∃ sources facets,
      (sourcesOf (overlongChild []).disk (.ofString "components/a")).fresh = .ok sources
        ∧ (sourcesOf (overlongChild [("x", .directory [])]).disk (.ofString "components/a")).fresh
          = .ok sources
        ∧ sources.isEmpty = false ∧ (overlongChild []).facetsIn sources = .ok facets := by
  have hread : sourcesOf (overlongChild [("x", .directory [])]).disk (.ofString "components/a")
      = sourcesOf (overlongChild []).disk (.ofString "components/a") :=
    sourcesOf_eq_of_contents rfl (by decide) rfl
  have hfacets : ((sourcesOf (overlongChild []).disk (.ofString "components/a")).fresh.toOption.map
      fun sources => (sources.isEmpty, ((overlongChild []).facetsIn sources).toOption.isSome))
        = some (false, true) := by
    decide +kernel
  obtain ⟨sources, hsources, hparts⟩ := Option.map_eq_some_iff.1 hfacets
  obtain ⟨hne, hsome⟩ := Prod.mk.inj hparts
  obtain ⟨facets, hfacets⟩ := Option.isSome_iff_exists.1 hsome
  have hsources := toOption_eq_some_iff.1 hsources
  exact ⟨sources, facets, hsources, (congrArg Catalog.fresh hread).trans hsources, hne,
    toOption_eq_some_iff.1 hfacets⟩

/-- A directory to which the component does not refer decides whether it has a document: it
stands in the path of a child that exists neither with it nor without it. -/
theorem componentDocument_overlongChild :
    (overlongChild []).SameReferences (overlongChild [("x", .directory [])]).disk "a"
        (.ofString "components/a")
      ∧ (∃ c, ((overlongChild []).componentDocument "components/a" "g" none).result {}
          = .ok (some c))
      ∧ ((overlongChild [("x", .directory [])]).componentDocument "components/a" "g" none).result {}
          = .ok none := by
  obtain ⟨sources, facets, hsources, hsources', hne, hfacets⟩ := exists_facetsIn_overlongChild
  have hname : documentedName none (.ofString "components/a") = "a" := by decide
  refine ⟨sameReferences_overlongChild, ?_, ?_⟩
  · have hresult := (gives_componentDocument_documentIn (overlongChild []) "components/a" "g" none
      {} (Session.agrees_empty _)).1
    obtain ⟨c, hc⟩ : ∃ c, (overlongChild []).documentIn "g" none [] (.ofString "components/a")
        = some c := by
      refine (exists_built_iff _ hsources hne).2 ?_
      rw [← exists_parts_iff _ (fun _ => none) [], hname, exists_childrenIn_iff,
        declaredChildren_overlongChild, List.forall_mem_singleton, child_overlong]
      refine ⟨⟨facets, hfacets⟩, fun f => ?_⟩
      rw [Disk.directory?, find_overlong.1]
      nofun
    rw [hc] at hresult
    exact ⟨_, hresult⟩
  · have hresult := (gives_componentDocument_documentIn (overlongChild [("x", .directory [])])
      "components/a" "g" none {} (Session.agrees_empty _)).1
    have hnone : (overlongChild [("x", .directory [])]).documentIn "g" none []
        (.ofString "components/a") = none := by
      refine Option.eq_none_iff_forall_ne_some.2 fun c hc => ?_
      refine (exists_built_iff _ hsources' hne).1 ⟨c, hc⟩ ?_
      rw [hname]
      have hfault : (overlongChild [("x", .directory [])]).disk.directory?
          ((Path.ofString "components/a").child ("../x/" ++ nameOfLength 256))
            = .error .nameTooLong := by
        rw [child_overlong, Disk.directory?, find_overlong.2]
      have hentry : ("c", "../x/" ++ nameOfLength 256)
          ∈ (overlongChild [("x", .directory [])]).declaredChildren "a" := by
        rw [declaredChildren_overlongChild]
        exact List.mem_singleton_self _
      exact .child hentry hfault
    rw [hresult, hnone]
    rfl

end ComponentCatalog
