import ComponentCatalog.Proofs.Handlers

/-!
# Events of properties and calls, merged by name

Three rules meet where the two lists of events are merged, and they pull in different
directions. Among the properties the first of a name counts, among the calls the last, and the
place of a name in the result is where it occurs first in either list, even if what stands
there comes from the last call.

Places and contents are therefore looked at apart. The names of the result are those of both
lists without repetition (`map_name_mergeEvents`), and what stands under a name is found by one
lookup (`find?_mergeEvents`). A list of events whose names are distinct is given by these two
(`eq_of_map_name_eq`), which is why merging the calls in once more changes nothing.
-/

namespace ComponentCatalog.Extract

/-- The first event of its name in a list. -/
def FirstOfName (e : Event) (events : List Event) : Prop :=
  ∃ before after, events = before ++ e :: after ∧ ∀ x ∈ before, x.name ≠ e.name

/-- The last event of its name in a list. -/
def LastOfName (e : Event) (events : List Event) : Prop :=
  ∃ before after, events = before ++ e :: after ∧ ∀ x ∈ after, x.name ≠ e.name

/-! ## Names -/

theorem map_name_firstOfEachName {α : Type} (name : α → String) (seen : List String)
    (as : List α) :
    (firstOfEachName name seen as).map name = firstOfEachName id seen (as.map name) :=
  map_firstOfEachName (fun a => id_eq (name a)) seen as

theorem firstOfEachName_id_eq_eraseDups (ns : List String) :
    firstOfEachName id [] ns = ns.eraseDups :=
  firstOfEachName_eq_eraseDupsBy id ns

/-- Without repetitions nothing is erased. -/
theorem eraseDups_of_nodup {ns : List String} (h : ns.Nodup) : ns.eraseDups = ns := by
  have hkeep : firstOfEachName id [] (ns ++ []) = ns ++ [] :=
    firstOfEachName_append id [] (by simpa using h) fun _ _ => List.not_mem_nil
  rwa [List.append_nil, firstOfEachName_id_eq_eraseDups] at hkeep

/-- A name at the end is erased if it is there before. -/
theorem eraseDups_concat (ns : List String) (n : String) :
    (ns ++ [n]).eraseDups = if n ∈ ns then ns.eraseDups else ns.eraseDups ++ [n] := by
  rw [List.eraseDups_append]
  by_cases h : n ∈ ns <;> simp [List.removeAll, List.eraseDups_cons, h]

/-- One call after the other, a name that is new comes last and any other stays where it
is. -/
theorem map_name_foldl_putEvent {merged : List Event} {ns : List String}
    (h : merged.map Event.name = ns.eraseDups) (calls : List Event) :
    (calls.foldl (fun merged e => putEvent e merged) merged).map Event.name
      = (ns ++ calls.map Event.name).eraseDups := by
  induction calls generalizing merged ns with
  | nil => simpa using h
  | cons e calls ih =>
    have hput : (putEvent e merged).map Event.name = (ns ++ [e.name]).eraseDups := by
      simp only [map_name_putEvent, h, eraseDups_concat, List.mem_eraseDups]
    rw [List.foldl_cons, ih hput, List.map_cons, List.append_assoc, List.singleton_append]

/-- **The names of the merged events** are those of both lists, each where it occurs first. -/
theorem map_name_mergeEvents (ofProperties ofCalls : List Event) :
    (mergeEvents ofProperties ofCalls).map Event.name
      = ((ofProperties ++ ofCalls).map Event.name).eraseDups := by
  have hstart : (firstOfEachName Event.name [] ofProperties).map Event.name
      = (ofProperties.map Event.name).eraseDups := by
    rw [map_name_firstOfEachName, firstOfEachName_id_eq_eraseDups]
  rw [mergeEvents, map_name_foldl_putEvent hstart, List.map_append]

/-! ## What stands under a name -/

/-- Events of distinct names are given by their names and by what is found under each. -/
theorem eq_of_map_name_eq {as bs : List Event} (hnodup : (as.map Event.name).Nodup)
    (hnames : as.map Event.name = bs.map Event.name)
    (hfind : ∀ n, as.find? (fun x => x.name == n) = bs.find? fun x => x.name == n) : as = bs := by
  induction as generalizing bs with
  | nil => exact (List.map_eq_nil_iff.1 hnames.symm).symm
  | cons a as ih =>
    cases bs with
    | nil => cases hnames
    | cons b bs =>
      rw [List.map_cons, List.map_cons, List.cons.injEq] at hnames
      obtain ⟨hhead, htail⟩ := hnames
      rw [List.map_cons, List.nodup_cons] at hnodup
      have hab : a = b := by
        have h := hfind a.name
        rw [List.find?_cons, List.find?_cons, beq_self_eq_true, beq_iff_eq.2 hhead.symm] at h
        exact Option.some.inj h
      subst hab
      have hrest : ∀ n, as.find? (fun x => x.name == n) = bs.find? fun x => x.name == n := by
        intro n
        by_cases hn : a.name = n
        · -- Below the head its name does not occur again, in either list.
          have hnone : ∀ es : List Event, a.name ∉ es.map Event.name →
              es.find? (fun x => x.name == n) = none := by
            intro es hes
            rw [List.find?_eq_none]
            intro x hx hxn
            exact hes (List.mem_map.2 ⟨x, hx, (eq_of_beq hxn).trans hn.symm⟩)
          rw [hnone as hnodup.1, hnone bs (htail ▸ hnodup.1)]
        · have h := hfind n
          rw [List.find?_cons_of_neg (by simpa using hn),
            List.find?_cons_of_neg (by simpa using hn)] at h
          exact h
      rw [ih hnodup.2 htail hrest]

/-- Where names are distinct, an event is found by its name. -/
theorem find?_name_eq_some_of_mem {events : List Event} (hnodup : (events.map Event.name).Nodup)
    {e : Event} (he : e ∈ events) : events.find? (fun x => x.name == e.name) = some e := by
  cases hfind : events.find? fun x => x.name == e.name with
  | none => simpa using List.find?_eq_none.1 hfind e he
  | some x =>
    have hname : x.name = e.name := by simpa using List.find?_some hfind
    rw [List.inj_on_of_nodup_map hnodup (List.mem_of_find?_eq_some hfind) he hname]

/-- What is found by a name is the first event of it. -/
theorem firstOfName_of_find? {events : List Event} {e : Event} {n : String}
    (h : events.find? (fun x => x.name == n) = some e) : FirstOfName e events := by
  obtain ⟨hname, before, after, hsplit, hbefore⟩ := List.find?_eq_some_iff_append.1 h
  refine ⟨before, after, hsplit, fun x hx => ?_⟩
  rw [eq_of_beq hname]
  simpa using hbefore x hx

/-- What is found by a name from the end is the last event of it. -/
theorem lastOfName_of_find?_reverse {events : List Event} {e : Event} {n : String}
    (h : events.reverse.find? (fun x => x.name == n) = some e) : LastOfName e events := by
  obtain ⟨before, after, hsplit, hbefore⟩ := firstOfName_of_find? h
  refine ⟨after.reverse, before.reverse, ?_, fun x hx => hbefore x (List.mem_reverse.1 hx)⟩
  rw [← List.reverse_reverse events, hsplit]
  simp

/-- What is merged is the last call of its name, or else the first property of it. -/
theorem last_or_first_of_mem_mergeEvents {ofProperties ofCalls : List Event} {e : Event}
    (he : e ∈ mergeEvents ofProperties ofCalls) :
    LastOfName e ofCalls
      ∨ (∀ x ∈ ofCalls, x.name ≠ e.name) ∧ FirstOfName e ofProperties := by
  have hfind := find?_name_eq_some_of_mem (nodup_name_mergeEvents ofProperties ofCalls) he
  rw [find?_mergeEvents] at hfind
  cases hcall : ofCalls.reverse.find? fun x => x.name == e.name with
  | some c =>
    rw [hcall, Option.some_or, Option.some.injEq] at hfind
    exact .inl (lastOfName_of_find?_reverse (hfind ▸ hcall))
  | none =>
    rw [hcall, Option.none_or] at hfind
    refine .inr ⟨fun x hx => ?_, firstOfName_of_find? hfind⟩
    simpa using List.find?_eq_none.1 hcall x (List.mem_reverse.2 hx)

/-- Merging the calls in again changes nothing. -/
theorem mergeEvents_mergeEvents (ofProperties ofCalls : List Event) :
    mergeEvents (mergeEvents ofProperties ofCalls) ofCalls = mergeEvents ofProperties ofCalls := by
  have hnames : (mergeEvents (mergeEvents ofProperties ofCalls) ofCalls).map Event.name
      = (mergeEvents ofProperties ofCalls).map Event.name := by
    have hknown : (ofCalls.map Event.name).removeAll
        ((mergeEvents ofProperties ofCalls).map Event.name) = [] := by
      rw [map_name_mergeEvents, List.removeAll, List.filter_eq_nil_iff]
      intro n hn
      simpa using fun _ => List.mem_map.1 hn
    rw [map_name_mergeEvents _ ofCalls, List.map_append, List.eraseDups_append, hknown,
      eraseDups_of_nodup (nodup_name_mergeEvents _ _), List.eraseDups_nil, List.append_nil]
  refine eq_of_map_name_eq (nodup_name_mergeEvents _ _) hnames fun n => ?_
  rw [find?_mergeEvents, find?_mergeEvents]
  cases ofCalls.reverse.find? fun x => x.name == n <;> rfl

/-- **Merging by name.** There is one event for each name that occurs in either list, in the
order in which the names occur first. It is the last call of the name, and the first property
of the name only if there is no call of it. Merging the same calls in again changes nothing. -/
theorem mergeEvents_by_name (ofProperties ofCalls : List Event) :
    ((mergeEvents ofProperties ofCalls).map Event.name).Nodup
      ∧ (mergeEvents ofProperties ofCalls).map Event.name
        = ((ofProperties ++ ofCalls).map Event.name).eraseDups
      ∧ (∀ e ∈ mergeEvents ofProperties ofCalls, LastOfName e ofCalls
        ∨ (∀ x ∈ ofCalls, x.name ≠ e.name) ∧ FirstOfName e ofProperties)
      ∧ mergeEvents (mergeEvents ofProperties ofCalls) ofCalls
        = mergeEvents ofProperties ofCalls :=
  ⟨nodup_name_mergeEvents _ _, map_name_mergeEvents _ _,
    fun _ he => last_or_first_of_mem_mergeEvents he, mergeEvents_mergeEvents _ _⟩

end ComponentCatalog.Extract
