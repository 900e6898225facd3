import ComponentCatalog.Proofs.Assembly
import ComponentCatalog.Proofs.Places

/-!
# How deep documents nest

The document of a component holds those of its declared children, and these hold those of
theirs. What is declared for a component is looked up by the name of its directory, and a
declared path may lead anywhere, also back up the tree, so nothing in the declarations
themselves keeps the nesting from going on for ever. It ends because a directory is never
entered again below itself: the directories from the top document down are a *lineage*,
distinct directories of the disk, and of these there are only so many (`IsLineage`).

Documents are made with a limit on the number of levels. Once the limit is as large as
the number of directories it plays no part: a larger one gives the same computation
(`build_limit`), so the limit stands for no limit at all. Without it, a document is what
is put together from the documents of its children, made in the same way
(`documentIn_eq`), and this equation holds at every place of a document, however deep
(`Grown`).
-/

namespace ComponentCatalog

/-! ## Lineages -/

/-- Distinct directories of the disk, as they are on the way down to a document. -/
structure IsLineage (d : Disk) (ancestry : List Path) : Prop where
  nodup : ancestry.Nodup
  directories : ∀ p ∈ ancestry, p ∈ d.directories

namespace IsLineage

variable {d : Disk} {ancestry : List Path}

theorem nil (d : Disk) : IsLineage d [] :=
  ⟨List.nodup_nil, nofun⟩

/-- A lineage is no longer than there are directories. -/
theorem length_le (h : IsLineage d ancestry) : ancestry.length ≤ d.tree.directoryCount :=
  d.length_le_directoryCount h.nodup h.directories

/-- A directory that is not on a lineage makes it longer by one. -/
theorem snoc (h : IsLineage d ancestry) {dir : Path} (hdir : d.isDirectory dir = true)
    (hnot : d.resolve dir ∉ ancestry) : IsLineage d (ancestry ++ [d.resolve dir]) := by
  obtain ⟨t, hfind, ht⟩ := Disk.isDirectory_iff.1 hdir
  have hmem : d.resolve dir ∈ d.directories := Disk.resolve_mem_directories hfind ht
  refine ⟨List.nodup_append.2 ⟨h.nodup, List.nodup_singleton _, ?_⟩, fun p hp => ?_⟩
  · intro p hp q hq heq
    rw [heq, List.mem_singleton.1 hq] at hp
    exact hnot hp
  · rcases List.mem_append.1 hp with hp | hp
    · exact h.directories p hp
    · rw [List.mem_singleton.1 hp]
      exact hmem

end IsLineage

/-! ## The limit plays no part -/

section Limit

variable (l : Library)

/-- Children that are made are made from directories that are not on the lineage, so it
is only there that two ways of making them have to agree. -/
theorem childDocuments_congr {make make' : Path → Catalog (Option Component)}
    {parent : String} {lineage : List Path} {children : List (String × Except Fault Path)}
    (h : ∀ child path, (child, .ok path) ∈ children → l.disk.resolve path ∉ lineage →
      make path = make' path) :
    l.childDocuments make parent lineage children
      = l.childDocuments make' parent lineage children := by
  induction children with
  | nil => rfl
  | cons e rest ih =>
    have hrest := ih fun child path hmem => h child path (List.mem_cons_of_mem _ hmem)
    obtain ⟨child, f | path⟩ := e
    · rw [Library.childDocuments, Library.childDocuments, hrest]
    · rw [Library.childDocuments, Library.childDocuments, hrest]
      by_cases hin : l.disk.resolve path ∈ lineage
      · rw [if_pos (by simpa using hin), if_pos (by simpa using hin)]
      · rw [h child path List.mem_cons_self hin]

/-- Without a directory to read there is nothing to put together, and no child is
made. -/
theorem assemble_of_not_directory {make make' : List Path → Path → Catalog (Option Component)}
    {dir : Path} (hdir : l.disk.isDirectory dir = false) (category : String)
    (name? : Option String) (ancestry : List Path) :
    l.assemble make dir category name? ancestry
      = l.assemble make' dir category name? ancestry := by
  have hthrow : ∀ (f : Fault) (g : Sources → Catalog (Option Component)),
      ((throw f : Catalog Sources) >>= g) = throw f := fun _ _ => rfl
  have hread : ∀ t, l.disk.listing dir ≠ .ok t := by
    intro t ht
    rw [Disk.isDirectory_iff_readDirectory.2 ⟨t, Disk.readDirectory_of_listing ht⟩] at hdir
    cases hdir
  unfold Library.assemble sourcesOf
  split
  · rw [hthrow, hthrow]
  · rw [bind_assoc, bind_assoc]
    have hempty : Sources.isEmpty {} = true := rfl
    simp only [pure_bind, hempty, if_true]
  · next t ht => exact absurd ht (hread t)

/-- Two ways of making children give one document if they agree on the directories that
are not on the lineage. -/
theorem assemble_congr {make make' : List Path → Path → Catalog (Option Component)}
    {dir : Path} (category : String) (name? : Option String) (ancestry : List Path)
    (h : l.disk.isDirectory dir = true → ∀ path, l.disk.isDirectory path = true →
      l.disk.resolve path ∉ ancestry ++ [l.disk.resolve dir] →
      make (ancestry ++ [l.disk.resolve dir]) path
        = make' (ancestry ++ [l.disk.resolve dir]) path) :
    l.assemble make dir category name? ancestry
      = l.assemble make' dir category name? ancestry := by
  cases hdir : l.disk.isDirectory dir with
  | false => exact assemble_of_not_directory l hdir category name? ancestry
  | true =>
    have hchildren : ∀ name, l.childDocuments (make (ancestry ++ [l.disk.resolve dir])) name
          (ancestry ++ [l.disk.resolve dir]) (l.childPaths name dir)
        = l.childDocuments (make' (ancestry ++ [l.disk.resolve dir])) name
          (ancestry ++ [l.disk.resolve dir]) (l.childPaths name dir) := by
      intro name
      refine childDocuments_congr l fun child path hmem hnot => h hdir path ?_ hnot
      obtain ⟨⟨child', relative⟩, -, heq⟩ := List.mem_map.1 hmem
      obtain ⟨rfl, hpath⟩ := Prod.mk.inj heq
      -- a declared child has a path only if that leads to a directory
      obtain ⟨hchild, hok, -⟩ | ⟨-, herror, -⟩ | ⟨f, herror, -⟩ :=
        childPath_cases l name dir child' relative
      · rw [hok] at hpath
        cases hpath
        exact hchild
      · rw [herror] at hpath
        cases hpath
      · rw [herror] at hpath
        cases hpath
    unfold Library.assemble
    simp only [hchildren]

/-- **One level more makes no difference** once the levels and the lineage together are
more than the directories there are. -/
theorem build_succ_eq {category : String} {limit : Nat} {name? : Option String}
    {ancestry : List Path} {dir : Path} (hl : IsLineage l.disk ancestry)
    (hnot : l.disk.resolve dir ∉ ancestry)
    (hlimit : l.disk.tree.directoryCount < limit + ancestry.length) :
    l.build category (limit + 1) name? ancestry dir
      = l.build category limit name? ancestry dir := by
  -- the levels that are left shrink as the lineage grows, so their sum stays too large
  induction limit generalizing name? ancestry dir with
  | zero =>
    have hle := hl.length_le
    omega
  | succ limit ih =>
    rw [Library.build, Library.build]
    have hassemble : l.assemble
          (fun lineage path => l.build category (limit + 1) (some path.name) lineage path)
          dir category name? ancestry
        = l.assemble (fun lineage path => l.build category limit (some path.name) lineage path)
          dir category name? ancestry := by
      refine assemble_congr l category name? ancestry fun hdir path _ hpath => ?_
      refine ih (hl.snoc hdir hnot) hpath ?_
      rw [List.length_append, List.length_singleton]
      omega
    simp only [hassemble]

/-- A limit that is enough may be raised. -/
theorem build_add_eq {category : String} {limit : Nat} {name? : Option String}
    {ancestry : List Path} {dir : Path} (hl : IsLineage l.disk ancestry)
    (hnot : l.disk.resolve dir ∉ ancestry)
    (hlimit : l.disk.tree.directoryCount < limit + ancestry.length) (k : Nat) :
    l.build category (limit + k) name? ancestry dir
      = l.build category limit name? ancestry dir := by
  induction k with
  | zero => rfl
  | succ k ih =>
    rw [← ih, ← Nat.add_assoc]
    exact build_succ_eq l hl hnot (by omega)

/-- **The limit plays no part** if it is larger than the number of directories. -/
theorem build_limit {category : String} {limit limit' : Nat} {name? : Option String}
    {ancestry : List Path} {dir : Path} (hl : IsLineage l.disk ancestry)
    (hnot : l.disk.resolve dir ∉ ancestry) (hlimit : l.disk.tree.directoryCount < limit)
    (hlimit' : l.disk.tree.directoryCount < limit') :
    l.build category limit name? ancestry dir = l.build category limit' name? ancestry dir := by
  rw [← build_add_eq l hl hnot (Nat.lt_add_right _ hlimit) limit', Nat.add_comm,
    build_add_eq l hl hnot (Nat.lt_add_right _ hlimit')]

end Limit

/-! ## Documents without a limit -/

namespace Library

variable (l : Library)

/-- The document of a directory below a lineage, with as many levels as it has. -/
def documentIn (category : String) (name? : Option String) (ancestry : List Path)
    (dir : Path) : Option Component :=
  l.built category (l.disk.tree.directoryCount + 1) name? ancestry dir

/-- The place of a document: the directory it was made from. -/
def placeOf (c : Component) : Path :=
  l.disk.resolve (.ofString c.path)

/-- A document that was made below a lineage. -/
def Grown (category : String) (ancestry : List Path) (c : Component) : Prop :=
  ∃ dir name?, dir.Plain ∧ IsLineage l.disk ancestry ∧ l.disk.resolve dir ∉ ancestry
    ∧ l.documentIn category name? ancestry dir = some c

end Library

section Grown

variable (l : Library)

/-- **A document is put together from those of its children**, which are made in the same
way. -/
theorem documentIn_eq {category : String} {name? : Option String} {ancestry : List Path}
    {dir : Path} (hl : IsLineage l.disk ancestry) (hnot : l.disk.resolve dir ∉ ancestry) :
    l.documentIn category name? ancestry dir
      = (l.assembled (fun lineage path => l.documentIn category (some path.name) lineage path)
          dir category name? ancestry).toOption.join := by
  have hlimit : l.build category (l.disk.tree.directoryCount + 1) name? ancestry dir
      = l.build category (l.disk.tree.directoryCount + 1 + 1) name? ancestry dir :=
    build_limit l hl hnot (by omega) (by omega)
  calc l.documentIn category name? ancestry dir
      = l.built category (l.disk.tree.directoryCount + 1 + 1) name? ancestry dir := by
        rw [Library.documentIn, Library.built, hlimit]
        rfl
    _ = _ := built_succ l category _ name? ancestry dir

/-- Making the document of a component gives the one that grows from no lineage, as the
policy leaves it. -/
theorem gives_componentDocument_documentIn (path category : String) (name? : Option String) :
    Gives l (l.componentDocument path category name?)
      (.ok ((l.documentIn category name? [] (.ofString path)).map l.config.policy.applyTo)) :=
  (gives_build l category _ name? [] _).bind (.pure _)

/-- Where there are sources there is a directory. -/
theorem isDirectory_of_sourcesOf {dir : Path} {sources : Sources}
    (h : (sourcesOf l.disk dir).fresh = .ok sources) (hne : sources.isEmpty = false) :
    l.disk.isDirectory dir = true := by
  unfold sourcesOf at h
  split at h
  · cases h
  · cases h
    cases hne
  · next t ht =>
    exact Disk.isDirectory_iff_readDirectory.2 ⟨t, Disk.readDirectory_of_listing ht⟩

variable {l} in
/-- **What a grown document is**: it lies in a directory that is not on the lineage, and
its children are those that are declared for it, as far as they can be made. -/
theorem Library.Grown.children_eq {category : String} {ancestry : List Path} {c : Component}
    (h : l.Grown category ancestry c) :
    IsLineage l.disk (ancestry ++ [l.placeOf c])
      ∧ c.children = (l.declaredChildren c.name).filterMap
          (l.childIn? (fun path => l.documentIn category (some path.name)
            (ancestry ++ [l.placeOf c]) path) (ancestry ++ [l.placeOf c]) (.ofString c.path)) := by
  obtain ⟨dir, name?, hplain, hl, hnot, hdocument⟩ := h
  rw [documentIn_eq l hl hnot, toOption_join_eq_some_iff, assembled_eq_some_iff] at hdocument
  obtain ⟨sources, facets, children, hsources, hne, -, hchildren, rfl⟩ := hdocument
  have hdir : l.disk.isDirectory dir = true := isDirectory_of_sourcesOf l hsources hne
  -- the document keeps its path as a text, and that reads back as the path
  have hpath : Path.ofString (facets.document (documentedName name? dir) dir category
      children).path = dir := hplain.ofString_toString
  rw [Library.placeOf, hpath]
  refine ⟨hl.snoc hdir hnot, ?_⟩
  unfold Library.childrenIn at hchildren
  split at hchildren
  · cases hchildren
  · exact (Except.ok.inj hchildren).symm

variable {l} in
/-- The children of a grown document have grown below it. -/
theorem Library.Grown.of_mem_children {category : String} {ancestry : List Path}
    {c d : Component} (h : l.Grown category ancestry c) (hd : d ∈ c.children) :
    l.Grown category (ancestry ++ [l.placeOf c]) d := by
  obtain ⟨hl, hchildren⟩ := h.children_eq
  rw [hchildren] at hd
  obtain ⟨⟨child, relative⟩, -, hmade⟩ := List.mem_filterMap.1 hd
  unfold Library.childIn? at hmade
  dsimp only at hmade
  split_ifs at hmade with hwhere
  exact ⟨_, _, (Path.plain_ofString _).child relative, hl, hwhere.2, hmade⟩

end Grown

/-! ## The way down to a document -/

/-- The document `n` lies in the document `c`, and `above` are those it lies in, from the
outermost on. -/
inductive Component.Descent (c : Component) : List Component → Component → Prop
  | here : Descent c [] c
  | down {above : List Component} {n d : Component} (h : Descent c above n)
      (hd : d ∈ n.children) : Descent c (above ++ [n]) d

/-- What has grown has grown at every place of it. -/
theorem Library.Grown.descent {l : Library} {category : String} {c n : Component}
    {above : List Component} (h : l.Grown category [] c) (hdown : c.Descent above n) :
    l.Grown category (above.map l.placeOf) n := by
  induction hdown with
  | here => exact h
  | down hdown hd ih =>
    rw [List.map_append]
    exact ih.of_mem_children hd

namespace Policy

variable (p : Policy)

theorem applyToAll_eq_map (cs : List Component) : p.applyToAll cs = cs.map p.applyTo := by
  induction cs with
  | nil => rfl
  | cons c cs ih => rw [applyToAll, ih, List.map_cons]

theorem name_applyTo (c : Component) : (p.applyTo c).name = c.name := by
  cases c
  rfl

theorem path_applyTo (c : Component) : (p.applyTo c).path = c.path := by
  cases c
  rfl

theorem children_applyTo (c : Component) :
    (p.applyTo c).children = c.children.map p.applyTo := by
  cases c
  exact applyToAll_eq_map p _

/-- The way down to a document is the same after the policy has been applied. -/
theorem exists_descent_of_applyTo {c n : Component} {above : List Component}
    (h : (p.applyTo c).Descent above n) :
    ∃ above' n', c.Descent above' n' ∧ above = above'.map p.applyTo ∧ n = p.applyTo n' := by
  induction h with
  | here => exact ⟨[], c, .here, rfl, rfl⟩
  | down _ hd ih =>
    obtain ⟨above', n', hdown, rfl, rfl⟩ := ih
    rw [children_applyTo] at hd
    obtain ⟨d', hd', rfl⟩ := List.mem_map.1 hd
    exact ⟨above' ++ [n'], d', hdown.down hd', by simp, rfl⟩

end Policy

/-- The policy is applied to the documents of children after they have been chosen. -/
theorem map_childIn? (l : Library) (made : Path → Option Component) (lineage : List Path)
    (dir : Path) (entry : String × String) (g : Component → Component) :
    (l.childIn? made lineage dir entry).map g
      = l.childIn? (fun path => (made path).map g) lineage dir entry := by
  unfold Library.childIn?
  dsimp only
  split_ifs <;> rfl

/-- **How documents nest.** Whatever children are declared, and wherever their paths lead,
making a document comes to an end: with more levels allowed than there are directories it
is the same computation. In what it makes, the places of the documents on the way from the
outermost document down to any one inside it are distinct, so that there are never more of
these than directories; and the children of each document are the declared ones, in the
order in which they are declared, whose paths lead to directories that are not on that way
and for which a document can be made below it. -/
theorem componentDocument_nesting (l : Library) (path category : String)
    (name? : Option String) (s : Session) (hs : s.Agrees l) :
    (∀ limit, l.disk.tree.directoryCount < limit →
        l.componentDocument path category name?
          = Option.map l.config.policy.applyTo
              <$> l.build category limit name? [] (.ofString path))
      ∧ ∃ c?, (l.componentDocument path category name?).result s = .ok c?
        ∧ c? = (l.documentIn category name? [] (.ofString path)).map l.config.policy.applyTo
        ∧ ∀ c ∈ c?, ∀ above n, c.Descent above n →
          let lineage := (above ++ [n]).map l.placeOf
          lineage.Nodup ∧ above.length < l.disk.tree.directoryCount
            ∧ n.children = (l.declaredChildren n.name).filterMap
                (l.childIn? (fun child => (l.documentIn category (some child.name) lineage
                  child).map l.config.policy.applyTo) lineage (.ofString n.path)) := by
  have hlimit : ∀ limit, l.disk.tree.directoryCount < limit →
      l.build category (l.disk.tree.directoryCount + 1) name? [] (.ofString path)
        = l.build category limit name? [] (.ofString path) := fun limit h =>
    build_limit l (.nil _) List.not_mem_nil (Nat.lt_succ_self _) h
  refine ⟨fun limit h => ?_, _,
    (gives_componentDocument_documentIn l path category name? s hs).1, rfl, ?_⟩
  · rw [← hlimit limit h]
    rfl
  intro c hc above n hdown
  obtain ⟨c', hc', rfl⟩ := Option.map_eq_some_iff.1 hc
  obtain ⟨above', n', hdown', rfl, rfl⟩ :=
    l.config.policy.exists_descent_of_applyTo hdown
  have hgrown : l.Grown category [] c' :=
    ⟨_, _, Path.plain_ofString path, .nil _, List.not_mem_nil, hc'⟩
  obtain ⟨hl, hchildren⟩ := (hgrown.descent hdown').children_eq
  have hplaces : ((above'.map l.config.policy.applyTo ++ [l.config.policy.applyTo n']).map
      l.placeOf) = above'.map l.placeOf ++ [l.placeOf n'] := by
    simp [Library.placeOf, Policy.path_applyTo]
  have hlength := hl.length_le
  rw [List.length_append, List.length_map, List.length_singleton] at hlength
  rw [hplaces, List.length_map]
  refine ⟨hl.nodup, hlength, ?_⟩
  rw [Policy.children_applyTo, hchildren, List.map_filterMap, Policy.name_applyTo,
    Policy.path_applyTo]
  simp only [map_childIn?]

/-- Two components that are children of each other, one of them also of itself. -/
def crossed : Library :=
  smallLibrary
    [("a", .directory [("a.props.js.map", sourceMapFile "class AProps\x7bb\x7d")]),
      ("b", .directory [("b.props.js.map", sourceMapFile "class BProps\x7bc\x7d")])]
    { childComponents := [("a", [("b", "../b")]), ("b", [("a", "../a"), ("b", "../a/../b")])] }

theorem componentDocument_nesting_crossed :
    Session.Agrees crossed {}
      ∧ ∃ c?, (crossed.componentDocument "components/a" "g" none).result {} = .ok c?
        ∧ (c?.toList.flatMap Component.nested).map Component.name = ["a", "b"]
        ∧ ∀ c ∈ c?, ∀ above n, c.Descent above n →
          ((above ++ [n]).map crossed.placeOf).Nodup := by
  have hs := Session.agrees_empty crossed
  have hnames : ((((crossed.componentDocument "components/a" "g" none).result {}).toOption.join
      ).toList.flatMap Component.nested).map Component.name = ["a", "b"] := by
    decide +kernel
  obtain ⟨-, c?, hresult, -, hdown⟩ :=
    componentDocument_nesting crossed "components/a" "g" none {} hs
  rw [hresult] at hnames
  exact ⟨hs, c?, hresult, hnames, fun c hc above n h => (hdown c hc above n h).1⟩

end ComponentCatalog
