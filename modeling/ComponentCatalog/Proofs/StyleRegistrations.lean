import ComponentCatalog.Proofs.Constants
import ComponentCatalog.Proofs.Facets

/-!
# The styles of a source, call by call

`styleClasses` goes through the calls of a source with a memory of the constants it has
worked out, and `stylesOf` drops the classes it has listed already. This module says what
comes out without either: a call *registers* a class when it invokes a registrar and its
first argument has the class for its value (`Registers`), and the styles are the default
class and then the other registered classes, each at the call that registers it first.

The memory is the lesser difficulty. From a faithful one, every argument is answered with the
value that can be derived for it, so the answers are those of an empty memory
(`registeredClasses_eq`), and a list of classes remains that depends on each call alone
(`exists_registeredClass?`). The first of each name are then picked out of the calls, the
name of the default class having been met before.

A comment between the opening bracket and the first argument takes its place, and a comment
has no value: such a call registers nothing (`styles_behind_comment`).
-/

namespace ComponentCatalog.Extract

open Syntax

/-- **The name of the function that a call invokes**: a plain name stands for itself, and a
function that is reached through an object for its property. -/
inductive Calls (t : Tree) (call : Node) : String → Prop
  | plain {f : Node} : call.inRole? .function = some f → f.kind = .identifier →
    Calls t call (t.text f)
  | member {f p : Node} : call.inRole? .function = some f → f.kind = .memberExpression →
    f.inRole? .property = some p → Calls t call (t.text p)

/-- **A call that registers a class**: it invokes a registrar, and its first argument has the
class for its value. What counts as the first argument is the first node between the brackets,
be it a comment. -/
structure Registers (t : Tree) (registrars : List String) (call : Node) (c : String) : Prop where
  isCall : call.kind = .callExpression
  registrar : ∃ f ∈ registrars, Calls t call f
  argument : ∃ args a, call.inRole? .arguments = some args
    ∧ args.namedChildren.head? = some a ∧ Evaluates t a c

/-- What a call calls by name. -/
theorem calleeName?_eq_some_iff {t : Tree} {call : Node} {name : String} :
    t.calleeName? call = some name ↔ Calls t call name := by
  unfold Tree.calleeName?
  constructor
  · intro h
    obtain ⟨f, hf, h⟩ := Option.bind_eq_some_iff.1 h
    split at h
    · next hk =>
      obtain rfl := Option.some.inj h
      exact .plain hf hk
    · next hk =>
      obtain ⟨p, hp, rfl⟩ := Option.map_eq_some_iff.1 h
      exact .member hf hk hp
    · cases h
  · intro h
    cases h with
    | plain hf hk => simp [hf, hk]
    | member hf hk hp => simp [hf, hk, hp]

/-! ## Answers from an empty memory -/

/-- What an expression is worth when nothing is remembered. -/
def freshValue? (t : Tree) (a : Node) : Option String :=
  ((expressionValue t a).run []).1

theorem freshValue?_eq_some_iff {t : Tree} {a : Node} {c : String} :
    freshValue? t a = some c ↔ Evaluates t a c :=
  (Query.ask_answers t (.expression a) [] (Faithful.nil t)).1 c

/-- The memory that is carried from one registration to the next changes no class. -/
theorem registeredClasses_eq (t : Tree) (arguments : List Node) {known : Known}
    (hk : Faithful t known) :
    ((registeredClasses t arguments).run known).1.1 = arguments.filterMap (freshValue? t) := by
  induction arguments generalizing known with
  | nil => rw [registeredClasses]; rfl
  | cons a rest ih =>
    obtain ⟨hv, hk'⟩ := Query.ask_answers t (.expression a) known hk
    have hvalue : ((expressionValue t a).run known).1 = freshValue? t a :=
      Option.ext fun c => (hv c).trans freshValue?_eq_some_iff.symm
    rw [registeredClasses, StateT.run_bind, List.filterMap_cons, ← hvalue]
    change Faithful t ((expressionValue t a).run known).2 at hk'
    generalize (expressionValue t a).run known = answer at hk' ⊢
    obtain ⟨v, known'⟩ := answer
    cases v with
    | none => exact ih hk'
    | some c => exact congrArg (c :: ·) (ih hk')

/-- The classes that a source registers, call by call in document order. -/
theorem exists_registeredClass? (t : Tree) (registrars : List String) :
    ∃ class? : Node → Option String,
      (registrations t registrars).filterMap (freshValue? t) = t.root.preorder.filterMap class?
      ∧ ∀ call c, class? call = some c ↔ Registers t registrars call c := by
  unfold registrations
  rw [Tree.filterMap_ofKind t rfl, List.filterMap_filterMap]
  refine ⟨_, rfl, fun call c => ?_⟩
  rw [Option.bind_eq_some_iff]
  constructor
  · rintro ⟨a, ha, hc⟩
    split at ha
    · next hk =>
      split at ha
      · next f hf =>
        split at ha
        · next hmem =>
          obtain ⟨args, hargs, ha⟩ := Option.bind_eq_some_iff.1 ha
          exact ⟨hk, ⟨f, by simpa using hmem, calleeName?_eq_some_iff.1 hf⟩,
            ⟨args, a, hargs, ha, freshValue?_eq_some_iff.1 hc⟩⟩
        · cases ha
      · cases ha
    · cases ha
  · rintro ⟨hk, ⟨f, hmem, hf⟩, args, a, hargs, ha, hc⟩
    refine ⟨a, ?_, freshValue?_eq_some_iff.2 hc⟩
    rw [if_pos hk, calleeName?_eq_some_iff.2 hf]
    simp only [List.contains_iff_mem.2 hmem, if_true, hargs, Option.bind_some, ha]

/-- The classes of a source, in terms of values that are worked out one by one. -/
theorem styleClasses_fst (t : Tree) (o : StyleOptions) :
    (styleClasses t o).1 = (((constant t o.defaultConstant).run []).1.filter (!·.isEmpty)).map
      fun d => ⟨d, (registrations t o.registrars).filterMap (freshValue? t)⟩ := by
  have hk := (Query.ask_answers t (.constant o.defaultConstant) [] (Faithful.nil t)).2
  change Faithful t ((constant t o.defaultConstant).run []).2 at hk
  unfold styleClasses
  generalize (constant t o.defaultConstant).run [] = answer at hk ⊢
  obtain ⟨value?, known⟩ := answer
  dsimp only
  cases value?.filter (!·.isEmpty) with
  | none => rfl
  | some d =>
    rw [Option.map_some, ← registeredClasses_eq t _ hk]
    rfl

/-! ## The styles -/

/-- The default class is the value of its constant, unless that is empty. -/
theorem defaultClass_eq_some_iff {t : Tree} {name d : String} :
    ((constant t name).run []).1.filter (!·.isEmpty) = some d ↔ HasValue t name d ∧ d ≠ "" := by
  have hvalue : ((constant t name).run []).1 = some d ↔ HasValue t name d :=
    (Query.ask_answers t (.constant name) [] (Faithful.nil t)).1 d
  rw [Option.filter_eq_some_iff, hvalue]
  simp

/-- Every class is the default one or among the others. -/
theorem mem_cons_firstOfEachName {c d : String} {cs : List String} (hc : c ∈ cs) :
    c ∈ d :: firstOfEachName id [d] cs := by
  by_cases hcd : c = d
  · exact hcd ▸ List.mem_cons_self
  · have hnew : id c ∉ [d] := by simpa using hcd
    obtain ⟨c', hc', rfl⟩ := exists_mem_firstOfEachName id hc hnew
    exact List.mem_cons_of_mem d hc'

/-- **The styles of a source are its default class and then the other classes it registers,
each where it is registered first.** A source whose default class has no value, or an empty
one, has none. -/
theorem styles_by_registration (t : Tree) (o : StyleOptions) :
    ((∀ v, HasValue t o.defaultConstant v → v = "") →
        ((styleClasses t o).1.map stylesOf).getD [] = [])
      ∧ ∀ d, HasValue t o.defaultConstant d → d ≠ "" → ∃ (others : List String) (places : List Nat),
          ((styleClasses t o).1.map stylesOf).getD []
            = { className := d, description? := some defaultStyleDescription }
                :: others.map (fun c => { className := c })
          ∧ PicksFirst (fun call c => Registers t o.registrars call c ∧ c ≠ d) id
              t.root.preorder places others
          ∧ (d :: others).Nodup
          ∧ ∀ call ∈ t.root.preorder, ∀ c, Registers t o.registrars call c → c ∈ d :: others := by
  rw [styleClasses_fst]
  constructor
  · intro hempty
    have hnone : ((constant t o.defaultConstant).run []).1.filter (!·.isEmpty) = none := by
      refine Option.eq_none_iff_forall_ne_some.2 fun v hv => ?_
      obtain ⟨hvalue, hne⟩ := defaultClass_eq_some_iff.1 hv
      exact hne (hempty v hvalue)
    rw [hnone]
    rfl
  · intro d hvalue hne
    rw [defaultClass_eq_some_iff.2 ⟨hvalue, hne⟩]
    obtain ⟨class?, hclasses, hclass⟩ := exists_registeredClass? t o.registrars
    obtain ⟨places, hplaces⟩ := exists_picksFirst id class? [d] t.root.preorder
    have hgives : (fun call c => class? call = some c ∧ id c ∉ [d])
        = fun call c => Registers t o.registrars call c ∧ c ≠ d := by
      funext call c
      simp [hclass]
    rw [hgives, ← hclasses] at hplaces
    refine ⟨_, places, rfl, hplaces, ?_, fun call hcall c hc => mem_cons_firstOfEachName ?_⟩
    · have hnodup := nodup_className_stylesOf
        ⟨d, (registrations t o.registrars).filterMap (freshValue? t)⟩
      simpa [stylesOf, Function.comp_def] using hnodup
    · rw [hclasses]
      exact List.mem_filterMap.2 ⟨call, hcall, (hclass call c).2 hc⟩

/-- A source that registers a class inside an argument, and its default class. -/
def entangledStyles : Tree :=
  parse .typescript "addStyle(D,o.addStyle('b'));addStyle('b');addStyle(D+'a');var D='d'"

theorem styles_by_registration_entangled :
    HasValue entangledStyles "D" "d"
      ∧ ∃ (others : List String) (places : List Nat),
          ((styleClasses entangledStyles { defaultConstant := "D" }).1.map stylesOf).getD []
            = { className := "d", description? := some defaultStyleDescription }
                :: others.map (fun c => { className := c })
          ∧ PicksFirst (fun call c => Registers entangledStyles ["addStyle"] call c ∧ c ≠ "d") id
              entangledStyles.root.preorder places others
          ∧ others = ["b", "da"] := by
  have hrun : ((constant entangledStyles "D").run []).1 = some "d"
      ∧ (((styleClasses entangledStyles { defaultConstant := "D" }).1.map stylesOf).getD []).map
          Style.className = ["d", "b", "da"] := by decide +kernel
  have hd : HasValue entangledStyles "D" "d" :=
    ((Query.ask_answers entangledStyles (.constant "D") [] (Faithful.nil _)).1 "d").1 hrun.1
  obtain ⟨others, places, hstyles, hplaces, -, -⟩ :=
    (styles_by_registration entangledStyles { defaultConstant := "D" }).2 "d" hd (by decide)
  refine ⟨hd, others, places, hstyles, hplaces, ?_⟩
  have hnames := hrun.2
  rw [hstyles] at hnames
  simpa [Function.comp_def] using hnames

/-- **A comment before the first argument loses a class.** -/
theorem styles_behind_comment :
    (((styleClasses (parse .typescript "const DEFAULT_CLASS='d';addStyle(/**/'a')") {}).1.map
        stylesOf).getD []).map Style.className = ["d"]
      ∧ (((styleClasses (parse .typescript "const DEFAULT_CLASS='d';addStyle('a')") {}).1.map
        stylesOf).getD []).map Style.className = ["d", "a"] := by
  decide +kernel

end ComponentCatalog.Extract
