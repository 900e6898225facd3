import ComponentCatalog.Proofs.InheritanceChain
import Mathlib.Data.List.Perm.Subperm

/-!
# How long the walk along a chain is

The properties that a component inherits are gathered in a loop: while there is a type to
go on with, it is put on the list of those that have been visited, its file is looked for
and read, and the type that its declaration extends comes next. Nothing bounds the names
of types, and many names lead to one file, so the number of files does not bound the
number of turns. What bounds it are the names that can come up at all: the one that the
loop begins with, and those that some declaration in some file under the search roots
extends (`Library.declaredBases`).

`Library.turn` is one turn of that loop and `Turns` is a number of them. What every turn
keeps is `Walk.Bounded`; that the loop ends, and with the answer of
`Library.inheritedProperties`, is `exists_turns`.
-/

namespace ComponentCatalog

open Text Syntax Extract

/-! ## The names that can come up -/

namespace Library

variable (l : Library)

/-- The types that the declarations in a file extend. -/
def basesAt (artifact : Path) : List String :=
  match SourceMap.contentAt l.disk artifact 0 with
  | .error _ => []
  | .ok source =>
    match source.toString? with
    | none => []
    | some text =>
      basesOf (parse (dialectOf (SourceMap.nameAt l.disk artifact 0).toOption) text)

/-- The files under the search roots that may declare a type. -/
def artifacts : List Path :=
  l.config.inheritance.searchRoots.flatMap fun root =>
    match artifactIndex l.disk l.path root with
    | .error _ => []
    | .ok index => index.map Prod.snd

/-- The types that the declarations in the files under the search roots extend. -/
def declaredBases : List String :=
  l.artifacts.flatMap l.basesAt

end Library

section Names

variable {l : Library}

/-- A file that is found for a type is one of those under the search roots. -/
theorem mem_artifacts_of_searchFor {typeName : String} {artifact : Path}
    (h : l.searchFor typeName = .ok (some artifact)) : artifact ∈ l.artifacts := by
  obtain ⟨stem, -, hstem⟩ := exists_some_of_findSomeM? h
  obtain ⟨root, hroot, hfile⟩ := exists_some_of_findSomeM? hstem
  refine List.mem_flatMap.2 ⟨root, hroot, ?_⟩
  cases hindex : artifactIndex l.disk l.path root with
  | error f =>
    rw [hindex] at hfile
    cases hfile
  | ok index =>
    rw [hindex] at hfile
    have hlookup : index.lookup (stem ++ propsSuffix) = some artifact := Except.ok.inj hfile
    obtain ⟨before, after, rfl, -⟩ := List.lookup_eq_some_iff.1 hlookup
    simp

/-- What a declaration in a file extends is one of the types that the file extends. -/
theorem mem_basesAt_of_declarationAt {typeName base : String} {artifact : Path}
    {bag : PropertyBag} (h : l.declarationAt typeName artifact = .ok bag)
    (hb : bag.base? = some base) : base ∈ l.basesAt artifact := by
  unfold Library.declarationAt at h
  unfold Library.basesAt
  cases hsource : SourceMap.contentAt l.disk artifact 0 with
  | error short =>
    rw [hsource] at h
    cases h
  | ok source =>
    rw [hsource] at h
    dsimp only at h ⊢
    unfold Library.bagOfSource at h
    cases htext : source.toString? with
    | none =>
      rw [htext] at h
      cases h
    | some text =>
      rw [htext] at h
      dsimp only at h ⊢
      cases hbag : properties? (parse (Library.dialectOf
          (SourceMap.nameAt l.disk artifact 0).toOption) text) (l.optionsFor (some typeName)) with
      | none =>
        rw [hbag] at h
        cases h
      | some found =>
        rw [hbag] at h
        cases h
        exact mem_basesOf_of_properties? hbag hb

/-- What the declaration of a type extends is one of the names that can come up. -/
theorem mem_declaredBases_of_declarationOf {typeName base : String} {bag : PropertyBag}
    (h : l.declarationOf typeName = .ok bag) (hb : bag.base? = some base) :
    base ∈ l.declaredBases := by
  unfold Library.declarationOf at h
  split at h
  · cases h
  · cases h
  · next artifact hsearch =>
    refine List.mem_flatMap.2 ⟨artifact, mem_artifacts_of_searchFor hsearch, ?_⟩
    exact mem_basesAt_of_declarationAt h hb

/-- The type that comes after another is one of the names that can come up. -/
theorem mem_declaredBases_of_linkOf {typeName base : String} {s : Session} (hs : s.Agrees l)
    {link : Library.Link l} (h : (l.linkOf typeName).result s = .ok link)
    (hb : link.next? = some base) : base ∈ l.declaredBases := by
  -- nothing comes after the root type
  by_cases hr : typeName = l.config.inheritance.rootType
  · have hlink := (gives_linkOf_root l hr s hs).1
    rw [Catalog.result_map, h] at hlink
    cases hp : l.rootContribution with
    | error f =>
      rw [hp] at hlink
      cases hlink
    | ok props =>
      rw [hp] at hlink
      cases hb.symm.trans (Prod.mk.inj (Except.ok.inj hlink)).2
  · have hlink := (gives_linkOf l hr s hs).1
    rw [Catalog.result_map, h] at hlink
    cases hd : l.declarationOf typeName with
    | ok bag =>
      rw [hd] at hlink
      have hnext : link.next? = bag.base? := (Prod.mk.inj (Except.ok.inj hlink)).2
      exact mem_declaredBases_of_declarationOf hd (hnext.symm.trans hb)
    | error e =>
      rw [hd] at hlink
      cases e with
      | failed f => cases hlink
      | _ => cases hb.symm.trans (Prod.mk.inj (Except.ok.inj hlink)).2

/-- Looking at a type leaves the session in agreement. -/
theorem agrees_after_linkOf {s : Session} (hs : s.Agrees l) (typeName : String) :
    ((l.linkOf typeName).after s).Agrees l := by
  rw [← Catalog.after_map fun k : Library.Link l => (k.props, k.next?)]
  by_cases hr : typeName = l.config.inheritance.rootType
  · exact (gives_linkOf_root l hr s hs).2
  · exact (gives_linkOf l hr s hs).2

end Names

/-! ## The loop -/

/-- Where the loop stands before a turn. -/
structure Walk where
  /-- The properties so far. -/
  gathered : List Property := []
  /-- The types so far, latest first. -/
  visited : List String := []
  /-- The type that is to be looked at. -/
  next? : Option String

/-- Whether there is nothing to go on with. -/
def Walk.Ended (w : Walk) : Prop :=
  ∀ typeName ∈ w.next?, typeName = ""

theorem Walk.Ended.of_none {w : Walk} (h : w.next? = none) : w.Ended := by
  intro typeName hnext
  rw [h] at hnext
  cases hnext

/-- One turn of the loop. -/
def Library.turn (l : Library) (w : Walk) : Catalog Walk :=
  match w.next? with
  | none => return w
  | some typeName =>
    if typeName ∈ w.visited then do
      Catalog.note (Log.warning "inheritance"
        ("Inheritance cycle at " ++ typeName ++ "; chain truncated"))
      return { w with next? := none }
    else do
      let link ← l.linkOf typeName
      return {
        gathered := w.gathered ++ link.props
        visited := typeName :: w.visited
        next? := link.next? }

/-- A number of turns of the loop, each begun because it has not ended. -/
inductive Turns (l : Library) : Session → Walk → Nat → Session → Walk → Prop
  | none {s : Session} {w : Walk} : Turns l s w 0 s w
  | more {s s' : Session} {w next w' : Walk} {n : Nat} (hw : ¬ w.Ended)
      (hturn : (l.turn w).result s = .ok next)
      (rest : Turns l ((l.turn w).after s) next n s' w') : Turns l s w (n + 1) s' w'

/-- How the loop comes to an end: with nothing to go on with, or by a turn that fails. -/
inductive Walk.Ends (l : Library) (s : Session) (w : Walk) : Except Fault (List Property) → Prop
  | done {r : Except Fault (List Property)} (h : w.Ended) (hr : r = .ok w.gathered) :
      Ends l s w r
  | failed {f : Fault} (h : ¬ w.Ended) (hturn : (l.turn w).result s = .error f) :
      Ends l s w (.error f)

theorem Walk.Ends.of_eq {l : Library} {s : Session} {w : Walk}
    {r r' : Except Fault (List Property)} (h : w.Ends l s r) (heq : r = r') : w.Ends l s r' :=
  heq ▸ h

section Turn

variable {l : Library} {w : Walk} {typeName : String} {s : Session}

/-- A turn at a type that has been visited is the last one. -/
theorem turn_of_mem (hn : w.next? = some typeName) (hv : typeName ∈ w.visited) :
    l.turn w = Catalog.note (Log.warning "inheritance"
      ("Inheritance cycle at " ++ typeName ++ "; chain truncated")) >>= fun _ =>
        pure { w with next? := none } := by
  unfold Library.turn
  rw [hn]
  exact if_pos hv

/-- A turn at a type that is new takes in what that type contributes. -/
theorem turn_of_not_mem (hn : w.next? = some typeName) (hv : typeName ∉ w.visited) :
    l.turn w = l.linkOf typeName >>= fun link =>
      pure ⟨w.gathered ++ link.props, typeName :: w.visited, link.next?⟩ := by
  unfold Library.turn
  rw [hn]
  exact if_neg hv

/-- A turn that finds a link adds what it gives and goes on with what it extends. -/
theorem turn_of_link (hn : w.next? = some typeName) (hv : typeName ∉ w.visited)
    {link : Library.Link l} (hlink : (l.linkOf typeName).result s = .ok link) :
    (l.turn w).result s = .ok ⟨w.gathered ++ link.props, typeName :: w.visited, link.next?⟩
      ∧ (l.turn w).after s = (l.linkOf typeName).after s := by
  rw [turn_of_not_mem hn hv, Catalog.result_bind, Catalog.after_bind, hlink]
  exact ⟨rfl, rfl⟩

/-- **What a turn does.** -/
theorem turn_cases {next : Walk} (hn : w.next? = some typeName)
    (h : (l.turn w).result s = .ok next) :
    (typeName ∈ w.visited ∧ next = { w with next? := none })
      ∨ typeName ∉ w.visited ∧ ∃ link, (l.linkOf typeName).result s = .ok link
        ∧ next = ⟨w.gathered ++ link.props, typeName :: w.visited, link.next?⟩ := by
  by_cases hv : typeName ∈ w.visited
  · rw [turn_of_mem hn hv] at h
    exact .inl ⟨hv, (Except.ok.inj h).symm⟩
  · rw [turn_of_not_mem hn hv, Catalog.result_bind] at h
    cases hlink : (l.linkOf typeName).result s with
    | error f =>
      rw [hlink] at h
      cases h
    | ok link =>
      rw [hlink] at h
      exact .inr ⟨hv, link, rfl, (Except.ok.inj h).symm⟩

/-- A turn leaves a session that agrees. -/
theorem agrees_after_turn (hs : s.Agrees l) (w : Walk) : ((l.turn w).after s).Agrees l := by
  unfold Library.turn
  split
  · exact hs
  · next typeName hn =>
    split_ifs with hv
    · exact ((Gives.note_pure _ _) s hs).2
    · rw [Catalog.after_bind]
      have hlink := agrees_after_linkOf hs typeName
      cases (l.linkOf typeName).result s with
      | error f => exact hlink
      | ok link => exact hlink

end Turn

/-- **What every turn keeps**: no type is visited twice, the types that are visited and the
one that comes next are among the given ones, and there have been as many turns as types,
or one more if the last turn came upon a type again. -/
structure Walk.Bounded (names : List String) (turns : Nat) (w : Walk) : Prop where
  nodup : w.visited.Nodup
  visited_mem : ∀ typeName ∈ w.visited, typeName ∈ names
  next_mem : ∀ typeName ∈ w.next?, typeName ∈ names
  turns_eq : turns = w.visited.length ∨ w.next? = none ∧ turns = w.visited.length + 1

namespace Walk.Bounded

variable {l : Library} {names : List String} {k : Nat} {w : Walk} {s : Session}

/-- One turn. -/
theorem turn (h : w.Bounded names k) (hnames : ∀ base ∈ l.declaredBases, base ∈ names)
    (hs : s.Agrees l) (hw : ¬ w.Ended) {next : Walk}
    (hturn : (l.turn w).result s = .ok next) : next.Bounded names (k + 1) := by
  obtain ⟨typeName, hn⟩ : ∃ typeName, w.next? = some typeName := by
    cases hn : w.next? with
    | none => exact absurd (fun t ht => by rw [hn] at ht; cases ht) hw
    | some typeName => exact ⟨typeName, rfl⟩
  have hk : k = w.visited.length := by
    rcases h.turns_eq with hk | ⟨hnone, -⟩
    · exact hk
    · cases hn.symm.trans hnone
  obtain ⟨-, rfl⟩ | ⟨hv, link, hlink, rfl⟩ := turn_cases hn hturn
  · exact ⟨h.nodup, h.visited_mem, nofun, .inr ⟨rfl, congrArg (· + 1) hk⟩⟩
  · refine ⟨List.nodup_cons.2 ⟨hv, h.nodup⟩, ?_, ?_, .inl (congrArg (· + 1) hk)⟩
    · exact List.forall_mem_cons.2 ⟨h.next_mem typeName hn, h.visited_mem⟩
    · exact fun base hb => hnames base (mem_declaredBases_of_linkOf hs hlink hb)

/-- Any number of turns. -/
theorem turns (h : w.Bounded names k) (hnames : ∀ base ∈ l.declaredBases, base ∈ names)
    (hs : s.Agrees l) {n : Nat} {s' : Session} {w' : Walk} (hturns : Turns l s w n s' w') :
    w'.Bounded names (k + n) := by
  induction hturns generalizing k with
  | none => exact h
  | @more _ _ _ _ _ n hw hturn rest ih =>
    have hnext := ih (h.turn hnames hs hw hturn) (agrees_after_turn hs _)
    rwa [Nat.add_assoc, Nat.add_comm 1] at hnext

/-- The number of turns is bounded by the number of names, and once it is larger the loop
has ended. -/
theorem le_length (h : w.Bounded names k) :
    k ≤ names.eraseDups.length + 1 ∧ (k = names.eraseDups.length + 1 → w.Ended) := by
  have hle : w.visited.length ≤ names.eraseDups.length :=
    h.nodup.length_le_of_subset fun t ht => List.mem_eraseDups.2 (h.visited_mem t ht)
  rcases h.turns_eq with hk | ⟨hnone, hk⟩
  · exact ⟨by omega, fun _ => by omega⟩
  · refine ⟨by omega, fun _ t ht => ?_⟩
    rw [hnone] at ht
    cases ht

end Walk.Bounded

/-! ## The loop and the recursion -/

/-- **The loop ends with the answer of the recursion**, added to what was gathered before,
in any session. -/
theorem exists_turns {l : Library} (start : String) (visited : List String)
    (typeName : String) (h : typeName ∈ start :: l.disk.bases) (gathered : List Property)
    (s : Session) :
    ∃ n s' w, Turns l s ⟨gathered, visited, some typeName⟩ n s' w
      ∧ w.Ends l s' (((l.inheritedFrom start visited typeName h).result s).map
          (gathered ++ ·)) := by
  by_cases hne : typeName = ""
  · refine ⟨0, s, _, .none, .done (fun t ht => (Option.some.inj ht).symm.trans hne) ?_⟩
    rw [Library.inheritedFrom, if_pos (by simpa using hne)]
    exact congrArg Except.ok (List.append_nil gathered)
  have hw : ¬ Walk.Ended ⟨gathered, visited, some typeName⟩ := fun hended =>
    hne (hended typeName rfl)
  by_cases hv : typeName ∈ visited
  · refine ⟨1, _, ⟨gathered, visited, none⟩, .more hw ?_ .none, .done (.of_none rfl) ?_⟩
    · rw [turn_of_mem rfl hv]
      rfl
    · rw [Library.inheritedFrom, if_neg (by simpa using hne), dif_pos (by simpa using hv)]
      exact congrArg Except.ok (List.append_nil gathered)
  -- both look at the same link: the loop adds its properties at once, the recursion puts
  -- them in front of what comes after
  obtain ⟨goOn, heq, hlast, hgoOn⟩ := inheritedFrom_step h hne hv
  rw [heq, Catalog.result_bind]
  cases hlink : (l.linkOf typeName).result s with
  | error f =>
    refine ⟨0, s, _, .none, .failed hw ?_⟩
    rw [turn_of_not_mem rfl hv, Catalog.result_bind, hlink]
    rfl
  | ok link =>
    obtain ⟨hresult, hafter⟩ := turn_of_link (w := ⟨gathered, visited, some typeName⟩) rfl hv hlink
    cases hn : link.next? with
    | none =>
      rw [hn] at hresult
      refine ⟨1, _, _, .more hw hresult .none, .done (.of_none rfl) ?_⟩
      show ((goOn link).result ((l.linkOf typeName).after s)).map _ = _
      rw [hlast link hn]
      rfl
    | some next =>
      rw [hn] at hresult
      obtain ⟨n, s', w, hturns, hends⟩ := exists_turns start (typeName :: visited) next
        (List.mem_cons_of_mem _ (link.next_mem next hn)) (gathered ++ link.props)
        ((l.linkOf typeName).after s)
      rw [← hafter] at hturns
      refine ⟨n + 1, s', w, .more hw hresult hturns, ?_⟩
      show w.Ends l s' (((goOn link).result ((l.linkOf typeName).after s)).map _)
      rw [hgoOn link next hn, Catalog.result_bind]
      cases hrest : (l.inheritedFrom start (typeName :: visited) next _).result _ with
      | error f =>
        rw [hrest] at hends
        exact hends
      | ok rest =>
        rw [hrest] at hends
        refine hends.of_eq (congrArg Except.ok ?_)
        exact List.append_assoc gathered link.props rest
  termination_by (start :: l.disk.bases).countP fun n => !visited.contains n
  decreasing_by exact countP_unvisited_lt h (by simpa using hv)

/-- **The walk is bounded by the names that can come up.** From whichever type the loop
begins, it visits only that type and types that some declaration in some file under the
search roots extends, none of them twice. So there is at most one turn more than there are
such names, after which the loop has ended; and it does end, with the inherited properties
or with the fault that there is instead. -/
theorem inheritedProperties_turns (l : Library) (base : String) (s : Session)
    (hs : s.Agrees l) :
    (∀ n s' w, Turns l s { next? := some base } n s' w →
        w.visited.Nodup
          ∧ (∀ typeName ∈ w.visited ++ w.next?.toList, typeName ∈ base :: l.declaredBases)
          ∧ n ≤ (base :: l.declaredBases).eraseDups.length + 1
          ∧ (n = (base :: l.declaredBases).eraseDups.length + 1 → w.Ended))
      ∧ ∃ n s' w, Turns l s { next? := some base } n s' w
        ∧ w.Ends l s' ((l.inheritedProperties (some base)).result s) := by
  constructor
  · intro n s' w hturns
    have hstart : Walk.Bounded (base :: l.declaredBases) 0 { next? := some base } :=
      ⟨List.nodup_nil, nofun, fun t ht => by cases ht; exact List.mem_cons_self, .inl rfl⟩
    have hw := hstart.turns (fun t ht => List.mem_cons_of_mem base ht) hs hturns
    rw [Nat.zero_add] at hw
    refine ⟨hw.nodup, fun t ht => ?_, hw.le_length⟩
    rcases List.mem_append.1 ht with ht | ht
    · exact hw.visited_mem t ht
    · exact hw.next_mem t (Option.mem_toList.1 ht)
  · obtain ⟨n, s', w, hturns, hends⟩ := exists_turns base [] base List.mem_cons_self [] s
    refine ⟨n, s', w, hturns, hends.of_eq ?_⟩
    show _ = (l.inheritedFrom base [] base List.mem_cons_self).result s
    cases (l.inheritedFrom base [] base List.mem_cons_self).result s with
    | error f => rfl
    | ok props => rfl

/-- A type that extends itself. -/
def looped : Library :=
  smallLibrary [("a.props.js.map", sourceMapFile "class AProps extends AProps\x7bb\x7d")] {}

theorem inheritedProperties_turns_looped :
    Session.Agrees looped {} ∧ ("AProps" :: looped.declaredBases).eraseDups = ["AProps"]
      ∧ ∃ n s' w, Turns looped {} { next? := some "AProps" } n s' w ∧ n ≤ 2
        ∧ w.Ends looped s' ((looped.inheritedProperties (some "AProps")).result {}) := by
  have hs := Session.agrees_empty looped
  have hnames : ("AProps" :: looped.declaredBases).eraseDups = ["AProps"] := by decide +kernel
  obtain ⟨hbound, n, s', w, hturns, hends⟩ := inheritedProperties_turns looped "AProps" {} hs
  have hle := (hbound n s' w hturns).2.2.1
  rw [hnames] at hle
  exact ⟨hs, hnames, n, s', w, hturns, hle, hends⟩

end ComponentCatalog
