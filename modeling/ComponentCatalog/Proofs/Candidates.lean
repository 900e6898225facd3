import ComponentCatalog.Proofs.WalkOrder

/-!
# The list of candidates

Finding the components of a library succeeds if nothing ends the search for them, and
what it finds keeps to three rules: names are distinct, components come before aliases,
and an alias lies where the candidate lies whose name it stands for. The last is what an
alias is made by, so the rules are shown for the list without aliases, and then to survive
one more alias.
-/

namespace ComponentCatalog

/-- **The rules for a list of candidates.** -/
structure Catalogued (cs : List Candidate) : Prop where
  nodup : (cs.map Candidate.name).Nodup
  /-- Components come before aliases. -/
  concrete_first : cs.Pairwise fun c d => d.aliasOf? = none → c.aliasOf? = none
  /-- An alias lies where what it stands for lies. -/
  alias_lies : ∀ c ∈ cs, ∀ source ∈ c.aliasOf?,
    ∃ d ∈ cs, d.name = source ∧ d.path = c.path ∧ d.category = c.category

namespace Catalogued

/-- A list of components, without aliases, only has to have distinct names. -/
theorem of_concrete {cs : List Candidate} (hn : (cs.map Candidate.name).Nodup)
    (hc : ∀ c ∈ cs, c.aliasOf? = none) : Catalogued cs where
  nodup := hn
  concrete_first := List.pairwise_of_forall_mem_list fun c hm _ _ _ => hc c hm
  alias_lies c hm source hs := by
    rw [hc c hm] at hs
    cases hs

/-- **One more alias** keeps the rules, if it stands for a candidate and its name is
free. -/
theorem append_alias {cs : List Candidate} (h : Catalogued cs) {name source : String}
    {c : Candidate} (hsource : Library.named? cs source = some c)
    (hfree : Library.named? cs name = none) :
    Catalogued (cs ++
      [{ name := name, path := c.path, category := c.category, aliasOf? := some source }]) where
  nodup := by
    rw [List.map_append]
    refine h.nodup.append (List.nodup_singleton _) ?_
    simpa using named?_eq_none_iff.1 hfree
  concrete_first := by
    refine List.pairwise_append.2 ⟨h.concrete_first, List.pairwise_singleton _ _, ?_⟩
    intro _ _ d hd hnone
    cases List.mem_singleton.1 hd
    cases hnone
  alias_lies d hd source' hs' := by
    obtain ⟨hmem, hname⟩ := mem_of_named? hsource
    rcases List.mem_append.1 hd with hd | hd
    · obtain ⟨e, he, hrest⟩ := h.alias_lies d hd source' hs'
      exact ⟨e, List.mem_append_left _ he, hrest⟩
    · cases List.mem_singleton.1 hd
      cases hs'
      exact ⟨c, List.mem_append_left _ hmem, hname, rfl, rfl⟩

end Catalogued

/-- The way through the groups gives candidates of distinct names, none of them an alias. -/
theorem succeeds_walkCandidates {l : Library} (h : l.Searchable) :
    Succeeds (fun cs => (cs.map Candidate.name).Nodup ∧ ∀ c ∈ cs, c.aliasOf? = none)
      l.walkCandidates := by
  intro s
  refine ⟨_, Library.result_walkCandidates h s, nodup_map_firstOfEachName _ _ _, fun c hc => ?_⟩
  obtain ⟨v, -, rfl⟩ := List.mem_map.1 (mem_of_mem_firstOfEachName _ hc)
  rfl

/-- What one more alias keeps, whenever it stands for a candidate and its name is free, the
whole table of aliases keeps. -/
theorem succeeds_withAliases_of {P : List Candidate → Prop}
    (hstep : ∀ (cs : List Candidate) (name source : String) (c : Candidate), P cs →
      Library.named? cs source = some c → Library.named? cs name = none → P (cs ++
        [{ name := name, path := c.path, category := c.category, aliasOf? := some source }]))
    (aliases : List (String × String)) {cs : List Candidate} (h : P cs) :
    Succeeds P (Library.withAliases cs aliases) := by
  induction aliases generalizing cs with
  | nil => exact .pure h
  | cons a rest ih =>
    obtain ⟨name, source⟩ := a
    rw [Library.withAliases]
    cases hsource : Library.named? cs source with
    | none => exact .note_bind _ (ih h)
    | some c =>
      dsimp only
      cases hname : Library.named? cs name with
      | some taken => exact .note_bind _ (ih h)
      | none => exact ih (hstep cs name source c h hsource hname)

/-- The rules survive the whole table of aliases. -/
theorem succeeds_withAliases (aliases : List (String × String)) {cs : List Candidate}
    (h : Catalogued cs) : Succeeds Catalogued (Library.withAliases cs aliases) :=
  succeeds_withAliases_of (fun _ _ _ _ h hsource hname => h.append_alias hsource hname) aliases h

/-- **Finding components succeeds**, with a list that keeps to the rules, if nothing ends
the search for them. -/
theorem succeeds_findComponents {l : Library} (h : l.Searchable) :
    Succeeds Catalogued l.findComponents := by
  refine (succeeds_walkCandidates h).bind fun cs hcs => succeeds_withAliases _ ?_
  refine .of_concrete (hcs.1.sublist (List.filter_sublist.map _)) fun c hc => ?_
  exact hcs.2 c (List.mem_of_mem_filter hc)

/-- A directory with an overlong path ends the search with a fault. -/
theorem result_findComponents_of_not_searchable {l : Library} (h : ¬l.Searchable)
    (s : Session) : l.findComponents.result s = .error (.badPath .nameTooLong) := by
  unfold Library.findComponents
  rw [Catalog.result_bind, Library.result_walkCandidates_of_not_searchable h]
  rfl

end ComponentCatalog
