import ComponentCatalog.Proofs.Locality
import ComponentCatalog.Proofs.Nesting

/-!
# What lies below a component

Making the document of a component reads its own directory, and then those of its declared
children, of their declared children, and so on. These are the directories `Below` it. What
is declared for a directory below is looked up by the last name of its path, so the set is
known from the declarations and from which paths lead to directories, and nothing else that
is on the disk plays a part in it.

Two things may differ between two ways of making a document: the files there are, and the
lineage under which it is made. `built_congr` says that neither shows as long as it makes no
difference at the component and at the directories below it. For the files this is `SameAt`;
for the lineage it means that nothing below is on the part of it that differs. So a child of
a component gets the document that it would get on its own, unless something below it leads
back to the component (`componentDocument_children_alone`).
-/

namespace ComponentCatalog

theorem documentedName_some_name (dir : Path) : documentedName (some dir.name) dir = dir.name := by
  unfold documentedName
  rw [Option.filter_some]
  split
  · rfl
  · rfl

namespace Library

variable (l : Library)

/-- The library with other files. -/
def on (d : Disk) : Library :=
  { l with disk := d }

/-- **The directories below a component** that is documented under a name: those of its
declared children, as far as they exist, and those below them. -/
inductive Below : String → Path → Path → Prop
  | child {name : String} {dir : Path} {entry : String × String}
      (hentry : entry ∈ l.declaredChildren name)
      (hdir : l.disk.isDirectory (dir.child entry.2) = true) : Below name dir (dir.child entry.2)
  | deeper {name : String} {dir x : Path} {entry : String × String}
      (hentry : entry ∈ l.declaredChildren name)
      (hdir : l.disk.isDirectory (dir.child entry.2) = true)
      (h : Below (dir.child entry.2).name (dir.child entry.2) x) : Below name dir x

/-- What is below a directory is a declared child of it or below one. -/
theorem Below.exists_entry {l : Library} {name : String} {dir x : Path} (h : l.Below name dir x) :
    ∃ entry ∈ l.declaredChildren name, l.disk.isDirectory (dir.child entry.2) = true
      ∧ (x = dir.child entry.2 ∨ l.Below (dir.child entry.2).name (dir.child entry.2) x) := by
  cases h with
  | child hentry hdir => exact ⟨_, hentry, hdir, .inl rfl⟩
  | deeper hentry hdir h => exact ⟨_, hentry, hdir, .inr h⟩

/-- **Other files make no difference at a component**: its sources are the same, its
properties come to the same, and its declared children exist or not as before. -/
structure SameAt (d : Disk) (name : String) (dir : Path) : Prop where
  sources : (sourcesOf d dir).fresh = (sourcesOf l.disk dir).fresh
  props : ∀ sources, (sourcesOf l.disk dir).fresh = .ok sources →
    (l.on d).propsIn sources.props = l.propsIn sources.props
  isDirectory : ∀ entry ∈ l.declaredChildren name,
    d.isDirectory (dir.child entry.2) = l.disk.isDirectory (dir.child entry.2)
  childFault? : ∀ entry ∈ l.declaredChildren name,
    (l.on d).childFault? dir entry = l.childFault? dir entry

end Library

section Congr

variable {l : Library} {d : Disk}

theorem resolve_eq_of_cwd (hcwd : d.cwd = l.disk.cwd) (p : Path) :
    d.resolve p = l.disk.resolve p := by
  rw [Disk.resolve, Disk.resolve, hcwd]

/-- The facets of a directory depend on what its types are read from, and nothing else. -/
theorem facetsIn_congr {name : String} {dir : Path} (hsame : l.SameAt d name dir)
    {sources : Sources} (hsources : (sourcesOf l.disk dir).fresh = .ok sources) :
    (l.on d).facetsIn sources = l.facetsIn sources := by
  unfold Library.facetsIn
  rw [hsame.props sources hsources]
  rfl

/-- The children are the same if the documents that are made for them are, and if none of
them is on the part of the lineage that differs. -/
theorem childrenIn_congr (hcwd : d.cwd = l.disk.cwd) {name : String} {dir : Path}
    (hsame : l.SameAt d name dir) (extra lineage : List Path)
    {made made' : Path → Option Component}
    (hmade : ∀ entry ∈ l.declaredChildren name, l.disk.isDirectory (dir.child entry.2) = true →
      l.disk.resolve (dir.child entry.2) ∉ extra
        ∧ made' (dir.child entry.2) = made (dir.child entry.2)) :
    (l.on d).childrenIn made' lineage dir (l.declaredChildren name)
      = l.childrenIn made (extra ++ lineage) dir (l.declaredChildren name) := by
  have hfault : (l.declaredChildren name).findSome? ((l.on d).childFault? dir)
      = (l.declaredChildren name).findSome? (l.childFault? dir) := by
    rw [← List.head?_filterMap, ← List.head?_filterMap, List.filterMap_congr hsame.childFault?]
  have hchild : ∀ entry ∈ l.declaredChildren name, (l.on d).childIn? made' lineage dir entry
      = l.childIn? made (extra ++ lineage) dir entry := by
    intro entry hentry
    unfold Library.childIn?
    show (if d.isDirectory (dir.child entry.2) = true ∧ d.resolve (dir.child entry.2) ∉ lineage
      then _ else _) = _
    rw [hsame.isDirectory entry hentry, resolve_eq_of_cwd hcwd]
    by_cases hdir : l.disk.isDirectory (dir.child entry.2) = true
    · obtain ⟨hextra, heq⟩ := hmade entry hentry hdir
      simp only [heq, List.mem_append, not_or, hextra, not_false_eq_true, true_and]
    · simp only [hdir, Bool.false_eq_true, false_and, if_false]
  unfold Library.childrenIn
  rw [hfault, List.filterMap_congr hchild]

/-- A document that is put together depends on its directory and on the documents of its children.
-/
theorem assembled_congr (hcwd : d.cwd = l.disk.cwd)
    {made made' : List Path → Path → Option Component} {dir : Path} {category : String}
    {name? : Option String} {ancestry ancestry' : List Path}
    (hsame : l.SameAt d (documentedName name? dir) dir)
    (hchildren : (l.on d).childrenIn (made' (ancestry' ++ [l.disk.resolve dir]))
        (ancestry' ++ [l.disk.resolve dir]) dir (l.declaredChildren (documentedName name? dir))
      = l.childrenIn (made (ancestry ++ [l.disk.resolve dir]))
        (ancestry ++ [l.disk.resolve dir]) dir (l.declaredChildren (documentedName name? dir))) :
    (l.on d).assembled made' dir category name? ancestry'
      = l.assembled made dir category name? ancestry := by
  have hread : (sourcesOf (l.on d).disk dir).fresh = (sourcesOf l.disk dir).fresh := hsame.sources
  have hresolve : (l.on d).disk.resolve dir = l.disk.resolve dir := resolve_eq_of_cwd hcwd dir
  have hdeclared : (l.on d).declaredChildren = l.declaredChildren := rfl
  unfold Library.assembled
  rw [hread, hresolve, hdeclared]
  cases hsources : (sourcesOf l.disk dir).fresh with
  | error f => rfl
  | ok sources =>
    simp only [bind, Except.bind, facetsIn_congr hsame hsources, hchildren]

/-- **A document is the same** with other files and under a shorter lineage, if that makes
no difference at the component and at what lies below it. -/
theorem built_congr (hcwd : d.cwd = l.disk.cwd) (category : String) (limit : Nat)
    (name? : Option String) (extra ancestry : List Path) (dir : Path)
    (hsame : l.SameAt d (documentedName name? dir) dir)
    (hbelow : ∀ x, l.Below (documentedName name? dir) dir x →
      l.SameAt d x.name x ∧ l.disk.resolve x ∉ extra) :
    (l.on d).built category limit name? ancestry dir
      = l.built category limit name? (extra ++ ancestry) dir := by
  induction limit generalizing name? ancestry dir with
  | zero => rfl
  | succ limit ih =>
    rw [built_succ, built_succ]
    refine congrArg (fun r => (Except.toOption r).join) (assembled_congr hcwd hsame ?_)
    rw [List.append_assoc]
    refine childrenIn_congr hcwd hsame extra _ fun entry hentry hdir => ?_
    obtain ⟨hchild, hextra⟩ := hbelow _ (.child hentry hdir)
    refine ⟨hextra, ih _ _ _ (by rwa [documentedName_some_name]) fun x hx => ?_⟩
    rw [documentedName_some_name] at hx
    exact hbelow x (.deeper hentry hdir hx)

/-- From no lineage, any limit above the number of directories gives the document. -/
theorem documentIn_eq_built (l : Library) (category : String) (name? : Option String) (dir : Path)
    {limit : Nat} (hlimit : l.disk.tree.directoryCount < limit) :
    l.documentIn category name? [] dir = l.built category limit name? [] dir := by
  unfold Library.documentIn Library.built
  rw [build_limit l (.nil _) List.not_mem_nil (Nat.lt_succ_self _) hlimit]

/-- A document depends on its own directory and on those below it only. -/
theorem documentIn_congr (hcwd : d.cwd = l.disk.cwd) (category : String) (name? : Option String)
    {dir : Path} (hsame : l.SameAt d (documentedName name? dir) dir)
    (hbelow : ∀ x, l.Below (documentedName name? dir) dir x → l.SameAt d x.name x) :
    (l.on d).documentIn category name? [] dir = l.documentIn category name? [] dir := by
  -- the disks need not have equally many directories, but one limit is enough for both
  let limit := l.disk.tree.directoryCount + d.tree.directoryCount + 1
  have hlimit : l.disk.tree.directoryCount < limit := by omega
  have hlimit' : (l.on d).disk.tree.directoryCount < limit :=
    show d.tree.directoryCount < limit by omega
  rw [documentIn_eq_built l category name? dir hlimit,
    documentIn_eq_built (l.on d) category name? dir hlimit']
  exact built_congr hcwd category limit name? [] [] dir hsame fun x hx =>
    ⟨hbelow x hx, List.not_mem_nil⟩

end Congr

/-! ## Children on their own -/

section Alone

variable {l : Library}

theorem Library.SameAt.refl (name : String) (dir : Path) : l.SameAt l.disk name dir :=
  ⟨rfl, fun _ _ => rfl, fun _ _ => rfl, fun _ _ => rfl⟩

/-- A document has the path of the directory that it was made for. -/
theorem ofString_path_of_documentIn {category : String} {name? : Option String} {path : String}
    {c : Component} (h : l.documentIn category name? [] (.ofString path) = some c) :
    Path.ofString c.path = .ofString path := by
  rw [documentIn_eq l (.nil _) List.not_mem_nil, toOption_join_eq_some_iff,
    assembled_eq_some_iff] at h
  obtain ⟨_, _, _, -, -, -, -, rfl⟩ := h
  exact (Path.plain_ofString path).ofString_toString

/-- Below a lineage a document is what it is by itself, if nothing below it leads back to
the lineage. -/
theorem documentIn_eq_alone (category : String) {dir : Path} {lineage : List Path}
    (h : ∀ x, l.Below dir.name dir x → l.disk.resolve x ∉ lineage) :
    l.documentIn category (some dir.name) lineage dir
      = l.documentIn category (some dir.name) [] dir := by
  have hname : documentedName (some dir.name) dir = dir.name := documentedName_some_name dir
  have heq := built_congr (d := l.disk) rfl category (l.disk.tree.directoryCount + 1)
    (some dir.name) lineage [] dir (.refl _ dir) fun x hx => ⟨.refl x.name x, h x (hname ▸ hx)⟩
  rw [List.append_nil] at heq
  exact heq.symm

end Alone

/-- **The children of a document are those that the child components have on their own.**
If nothing below a component leads back to its directory, the children in its document are
those of the declared children whose paths lead to directories, in the order in which they
are declared: each the document that is made for that directory by itself, in whichever
session, and nothing where none is made. -/
theorem componentDocument_children_alone (l : Library) (path category : String)
    (name? : Option String) (s s' : Session) (hs : s.Agrees l) (hs' : s'.Agrees l) :
    ∃ (c? : Option Component) (alone : String → String → Option Component),
      (l.componentDocument path category name?).result s = .ok c?
      ∧ (∀ path' name,
          (l.componentDocument path' category (some name)).result s' = .ok (alone path' name))
      ∧ ∀ c ∈ c?,
          (∀ x, l.Below c.name (.ofString path) x →
            l.disk.resolve x ≠ l.disk.resolve (.ofString path)) →
          c.children = (l.declaredChildren c.name).filterMap fun entry =>
            let child := (Path.ofString path).child entry.2
            if l.disk.isDirectory child then alone child.toString child.name else none := by
  refine ⟨_, fun path' name =>
      (l.documentIn category (some name) [] (.ofString path')).map l.config.policy.applyTo,
    (gives_componentDocument_documentIn l path category name? s hs).1,
    fun path' name => (gives_componentDocument_documentIn l path' category _ s' hs').1, ?_⟩
  intro c hc hback
  obtain ⟨c', hc', rfl⟩ := Option.map_eq_some_iff.1 hc
  have hgrown : l.Grown category [] c' :=
    ⟨_, _, Path.plain_ofString path, .nil _, List.not_mem_nil, hc'⟩
  have hpath : Path.ofString c'.path = .ofString path := ofString_path_of_documentIn hc'
  obtain ⟨-, hchildren⟩ := hgrown.children_eq
  rw [Policy.children_applyTo, hchildren, List.map_filterMap, Policy.name_applyTo,
    Library.placeOf, hpath]
  refine List.filterMap_congr fun entry hentry => ?_
  rw [Policy.name_applyTo] at hback
  have hplain := (Path.plain_ofString path).child entry.2
  rw [map_childIn?, Library.childIn?]
  dsimp only [List.nil_append]
  rw [hplain.ofString_toString]
  by_cases hdir : l.disk.isDirectory ((Path.ofString path).child entry.2) = true
  · rw [if_pos hdir, if_pos ⟨hdir, by simpa using hback _ (.child hentry hdir)⟩,
      documentIn_eq_alone category fun x hx => by simpa using hback x (.deeper hentry hdir hx)]
  · rw [if_neg hdir, if_neg fun h => hdir h.1]

/-- A component with a child that has a child, and one that is no component. -/
def descending : Library :=
  smallLibrary
    [("a", .directory [("a.props.js.map", sourceMapFile "class AProps\x7bb\x7d")]),
      ("b", .directory [("b.props.js.map", sourceMapFile "class BProps\x7bc\x7d")]),
      ("c", .directory [("c.props.js.map", sourceMapFile "class CProps\x7bd\x7d")])]
    { childComponents := [("a", [("e", "../e"), ("b", "../b")]), ("b", [("c", "../c")])] }

/-- Below the first component are its child and the child of that, and neither is the
component again. -/
theorem resolve_ne_of_below_descending {x : Path}
    (h : descending.Below "a" (.ofString "components/a") x) :
    descending.disk.resolve x ≠ descending.disk.resolve (.ofString "components/a") := by
  have ha : descending.declaredChildren "a" = [("e", "../e"), ("b", "../b")] := by decide
  have hb : descending.declaredChildren "b" = [("c", "../c")] := by decide
  have hc : descending.declaredChildren "c" = [] := by decide
  obtain ⟨entry, hentry, hdir, hx⟩ := h.exists_entry
  rw [ha, List.mem_pair] at hentry
  rcases hentry with rfl | rfl
  · exact absurd hdir (by decide)
  rcases hx with rfl | hx
  · decide
  obtain ⟨entry, hentry, -, hx⟩ := hx.exists_entry
  rw [show ((Path.ofString "components/a").child "../b").name = "b" by decide, hb,
    List.mem_singleton] at hentry
  subst hentry
  rcases hx with rfl | hx
  · decide
  obtain ⟨entry, hentry, -⟩ := hx.exists_entry
  rw [show (((Path.ofString "components/a").child "../b").child "../c").name = "c" by
    decide, hc] at hentry
  cases hentry

theorem componentDocument_children_alone_descending :
    Session.Agrees descending {}
      ∧ ∃ c b, (descending.componentDocument "components/a" "g" none).result {} = .ok (some c)
        ∧ (descending.componentDocument "components/a/../b" "g" (some "b")).result {}
            = .ok (some b)
        ∧ c.children = [b] ∧ b.children.map Component.name = ["c"] := by
  have hs := Session.agrees_empty descending
  obtain ⟨c?, alone, hc, halone, hchildren⟩ :=
    componentDocument_children_alone descending "components/a" "g" none {} {} hs hs
  have hname : ((descending.componentDocument "components/a" "g" none).result {}).toOption.join.map
      Component.name = some "a" := by decide +kernel
  have hdeep : ((descending.componentDocument "components/a/../b" "g" (some "b")).result
      {}).toOption.join.map (fun b => b.children.map Component.name) = some ["c"] := by
    decide +kernel
  have hb := halone "components/a/../b" "b"
  rw [hc] at hname
  rw [hb] at hdeep
  obtain ⟨c, hsome, hname⟩ := Option.map_eq_some_iff.1 hname
  obtain ⟨b, hb', hdeep⟩ := Option.map_eq_some_iff.1 hdeep
  have hc' : c? = some c := hsome
  have hb'' : alone "components/a/../b" "b" = some b := hb'
  refine ⟨hs, c, b, hc' ▸ hc, hb'' ▸ hb, ?_, hdeep⟩
  rw [hchildren c hc' (hname ▸ fun x => resolve_ne_of_below_descending), hname,
    show descending.declaredChildren "a" = [("e", "../e"), ("b", "../b")] by decide]
  have he : descending.disk.isDirectory ((Path.ofString "components/a").child "../e") = false := by
    decide
  have hdir : descending.disk.isDirectory ((Path.ofString "components/a").child "../b") = true := by
    decide
  have htext : ((Path.ofString "components/a").child "../b").toString = "components/a/../b" := by
    decide
  have hlast : ((Path.ofString "components/a").child "../b").name = "b" := by decide
  simp [he, hdir, htext, hlast, hb'']

end ComponentCatalog
