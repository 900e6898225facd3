import ComponentCatalog.Extract.Properties

/-!
# Constants of a source

Style classes are registered under names that are put together from string
literals and constants. A constant has a value when its initialiser comes down
to one: a string literal, another constant, a concatenation or a template of
such, possibly in brackets or behind a type assertion. A name that is declared
more than once stands for its first declaration with an initialiser, and a name
that is defined through itself has no value.

The answers that have been found are kept, so that a constant used in many places
is worked out once. While a name is being resolved it is on the list of opened
names, and asking for it again yields nothing. That answer is not kept: a value
is stored only for a name whose initialiser has been gone through.

Resolution comes to an end because there is less and less to go through. What is
left at any time is the expression in hand and the initialisers of the names that
have not been opened: a part of an expression is smaller than the expression, and
opening a name trades its initialiser for one of those.
-/

namespace ComponentCatalog.Extract

open Syntax

/-- The names of a source with their initialisers, in document order. A name
may occur more than once. -/
def bindings (t : Tree) : List (String × Node) :=
  (t.ofKinds [.variableDeclarator]).filterMap fun d =>
    match d.inRole? .name, d.inRole? .value with
    | some n, some v => if n.kind == .identifier then some (t.text n, v) else none
    | _, _ => none

/-- The kinds of expressions that only wrap another one. -/
def wrapperKinds : List Kind :=
  [.parenthesizedExpression, .asExpression, .satisfiesExpression]

/-- What is known about the constants of a source: names that have been resolved,
with their values. -/
abbrev Known := List (String × Option String)

/-- A computation that may add to what is known. -/
abbrev Resolving := StateM Known

/-! ## What is left to go through -/

/-- The number of nodes of the initialisers of the names that have not been
opened. -/
def unopened (declared : List (String × Node)) (opened : List String) : Nat :=
  Node.countAll ((declared.filter fun e => !opened.contains e.1).map Prod.snd)

/-- The number of nodes of a part of an expression that may be missing. -/
def partCount (m? : Option Node) : Nat :=
  (m?.map Node.count).getD 0

theorem unopened_cons_le (declared : List (String × Node)) (opened : List String)
    (name : String) : unopened declared (name :: opened) ≤ unopened declared opened := by
  induction declared with
  | nil => exact Nat.le_refl _
  | cons e declared ih =>
    unfold unopened at ih ⊢
    rw [List.filter_cons, List.filter_cons]
    by_cases he : (name :: opened).contains e.1
    · rw [if_neg (by simp_all)]
      split
      · exact Nat.le_trans ih (Nat.le_add_left _ _)
      · exact ih
    · rw [if_pos (by simp_all), if_pos (by simp_all)]
      exact Nat.add_le_add_left ih _

/-- Opening a name takes its initialiser off what is left. -/
theorem unopened_cons_add_count_le {declared : List (String × Node)} {opened : List String}
    {name : String} {n : Node} (hn : declared.lookup name = some n)
    (ho : opened.contains name = false) :
    unopened declared (name :: opened) + n.count ≤ unopened declared opened := by
  -- the first entry of the name goes, and of those behind it none is added (`unopened_cons_le`)
  induction declared with
  | nil => cases hn
  | cons e declared ih =>
    obtain ⟨k, m⟩ := e
    have mono := unopened_cons_le declared opened name
    rw [List.lookup_cons] at hn
    unfold unopened at ih mono ⊢
    rw [List.filter_cons, List.filter_cons]
    by_cases hk : name = k
    · subst hk
      simp only [beq_self_eq_true, Option.some.injEq] at hn
      subst hn
      rw [if_neg (by simp), if_pos (by simpa using ho)]
      simp only [List.map_cons, Node.countAll]
      omega
    · rw [beq_eq_false_iff_ne.2 hk] at hn
      have := ih hn
      by_cases hm : opened.contains k
      · rw [if_neg (by simp_all), if_neg (by simp_all)]
        exact this
      · rw [if_pos (by simp_all [eq_comm]), if_pos (by simp_all)]
        simp only [List.map_cons, Node.countAll]
        omega

theorem partCount_inRole?_lt (n : Node) (r : Role) : partCount (n.inRole? r) < n.count := by
  unfold partCount
  cases h : n.inRole? r with
  | none => exact n.count_pos
  | some m => exact Node.count_lt_of_mem_children (Node.mem_children_of_inRole? h)

theorem partCount_head?_lt (n : Node) : partCount n.namedChildren.head? < n.count := by
  unfold partCount
  cases h : n.namedChildren.head? with
  | none => exact n.count_pos
  | some m => exact Node.count_lt_of_mem_children (Node.mem_children_of_head?_namedChildren h)

/-- The substitutions of a template. -/
def substitutions (n : Node) : List Node :=
  n.children.filter fun c => c.kind == .templateSubstitution

theorem countAll_substitutions_lt (n : Node) : Node.countAll (substitutions n) < n.count :=
  Nat.lt_of_le_of_lt (Node.countAll_filter_le _ _) (Node.countAll_children_lt n)

/-! ## Values -/

set_option linter.unusedVariables false in
mutual

/-- The value of a name, given the names that are being resolved already. -/
def constantFrom (t : Tree) (declared : List (String × Node)) (opened : List String)
    (name : String) : Resolving (Option String) := do
  match (← get).lookup name with
  | some v => return v
  | none =>
    match hn : declared.lookup name with
    | none => return none
    | some n =>
      -- the name is asked for by itself, and nothing is kept
      if ho : opened.contains name then return none
      else
        let v ← valueFrom t declared (name :: opened) n
        modify ((name, v) :: ·)
        return v
  termination_by 2 * unopened declared opened + 1
  decreasing_by
    have := unopened_cons_add_count_le hn (by simpa using ho)
    omega

/-- The value of an expression, given the names that are being resolved already.
Both sides of a concatenation are resolved even if the first has no value. -/
def valueFrom (t : Tree) (declared : List (String × Node)) (opened : List String)
    (n : Node) : Resolving (Option String) := do
  if n.kind == .string then return t.stringValue? n
  else if n.kind == .identifier then constantFrom t declared opened (t.text n)
  else if wrapperKinds.contains n.kind then partFrom t declared opened n.namedChildren.head?
  else if n.kind == .binaryExpression then
    match n.inRole? .operator with
    | none => return none
    | some op =>
      if t.text op != "+" then return none
      else
        let left ← partFrom t declared opened (n.inRole? .left)
        let right ← partFrom t declared opened (n.inRole? .right)
        match left, right with
        | some l, some r => return some (l ++ r)
        | _, _ => return none
  else if n.kind == .templateString then
    piecesFrom t declared opened (n.start + 1) (n.stop - 1) "" (substitutions n)
  else return none
  termination_by 2 * (unopened declared opened + n.count)
  decreasing_by
    · have := n.count_pos
      omega
    · have := partCount_head?_lt n
      omega
    · have := partCount_inRole?_lt n .left
      omega
    · have := partCount_inRole?_lt n .right
      omega
    · have := countAll_substitutions_lt n
      omega

/-- The value of a part of an expression that may be missing. -/
def partFrom (t : Tree) (declared : List (String × Node)) (opened : List String) :
    Option Node → Resolving (Option String)
  | none => return none
  | some m => valueFrom t declared opened m
  termination_by m? => 2 * (unopened declared opened + partCount m?) + 1
  decreasing_by
    simp only [partCount, Option.map_some, Option.getD_some]
    omega

/-- The text of a template from a position on, after what has been put together
already: raw pieces and the values of substitutions in turn. -/
def piecesFrom (t : Tree) (declared : List (String × Node)) (opened : List String)
    (cursor stop : Nat) (done : String) : List Node → Resolving (Option String)
  | [] => return some (done ++ t.slice cursor stop)
  | s :: rest => do
    match ← partFrom t declared opened s.namedChildren.head? with
    | none => return none
    | some v =>
      piecesFrom t declared opened s.stop stop (done ++ t.slice cursor s.start ++ v) rest
  termination_by ns => 2 * (unopened declared opened + Node.countAll ns) + 1
  decreasing_by
    all_goals
      have := partCount_head?_lt s
      simp only [Node.countAll]
      omega

end

/-- The value of a name of a source, using and extending what is known. -/
def constant (t : Tree) (name : String) : Resolving (Option String) :=
  constantFrom t (bindings t) [] name

/-- The value of an expression of a source, using and extending what is known. -/
def expressionValue (t : Tree) (n : Node) : Resolving (Option String) :=
  valueFrom t (bindings t) [] n

/-- The values of several names, asked for in turn. -/
def constants (t : Tree) (names : List String) : List (Option String) :=
  ((names.mapM (constant t)).run []).1

end ComponentCatalog.Extract
