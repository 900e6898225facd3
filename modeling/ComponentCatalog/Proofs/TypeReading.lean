import ComponentCatalog.Syntax.Parse

/-!
# Types as they are read

A tree that is read from a source is not any tree. What the readers of types yield has a
shape: a function type begins with a bracket and has a parameter list, and unions and types in
brackets hold types of this shape again (`IsRead`). Whoever looks at a type from
outside, through brackets and unions, meets nothing else.

The readers of types call all others, since a type may contain expressions and these may
contain statements. But the shape of a type is decided by the readers of types alone, and of the
others only the beginnings of parameter lists matter. So the induction, on the depth of nesting,
carries a statement about five phrases (`ReadsTypes`) and is silent on the rest.
-/

namespace ComponentCatalog.Syntax

/-- **A type as it is read**, as far as it can be seen through brackets and unions. -/
inductive IsRead (chars : Array Char) : Node → Prop
  /-- A function type begins with its type parameters or its parameters. -/
  | functionType {n : Node} (kind : n.kind = .functionType)
      (start : chars[n.start]? = some '(' ∨ chars[n.start]? = some '<')
      (parameters : ∃ m ∈ n.children, m.role = some .parameters) : IsRead chars n
  | union {n : Node} (kind : n.kind = .unionType)
      (children : ∀ m ∈ n.children, IsRead chars m) : IsRead chars n
  | brackets {n : Node} (kind : n.kind = .parenthesizedType) (start : chars[n.start]? = some '(')
      (children : ∀ m ∈ n.children, IsRead chars m) : IsRead chars n
  | other {n : Node} (kind : n.kind ∉ [.functionType, .unionType, .parenthesizedType]) :
      IsRead chars n

@[simp] theorem Node.role_withRole (n : Node) (r : Role) : (n.withRole r).role = some r := by
  cases n
  rfl

namespace IsRead

variable {chars : Array Char} {n : Node}

/-- Function types and types in brackets begin with an opening bracket. -/
theorem opens (h : IsRead chars n)
    (hkind : n.kind = .functionType ∨ n.kind = .parenthesizedType) :
    chars[n.start]? = some '(' ∨ chars[n.start]? = some '<' := by
  cases h with
  | functionType _ start _ => exact start
  | union kind _ => simp [kind] at hkind
  | brackets _ start _ => exact .inl start
  | other kind => rcases hkind with h | h <;> simp [h] at kind

/-- A function type that has been read has parameters. -/
theorem parameters_of_functionType (h : IsRead chars n) (hkind : n.kind = .functionType) :
    ∃ m ∈ n.children, m.role = some .parameters := by
  cases h with
  | functionType _ _ parameters => exact parameters
  | union kind _ => simp [hkind] at kind
  | brackets kind _ _ => simp [hkind] at kind
  | other kind => simp [hkind] at kind

/-- The parts of a union and of brackets have been read. -/
theorem of_mem_children (h : IsRead chars n)
    (hkind : n.kind = .unionType ∨ n.kind = .parenthesizedType) {m : Node}
    (hm : m ∈ n.children) : IsRead chars m := by
  cases h with
  | functionType kind _ _ => simp [kind] at hkind
  | union _ children => exact children m hm
  | brackets _ _ children => exact children m hm
  | other kind => rcases hkind with h | h <;> simp [h] at kind

/-- The role of a type does not matter. -/
theorem withRole (h : IsRead chars n) (r : Role) : IsRead chars (n.withRole r) := by
  cases n with
  | mk k r' s e cs =>
    cases h with
    | functionType kind start parameters => exact .functionType kind start parameters
    | union kind children => exact .union kind children
    | brackets kind start children => exact .brackets kind start children
    | other kind => exact .other kind

end IsRead

namespace Parse

/-! ## Running readers -/

section Running

variable {α β : Type} {i : Input} {c d : Cursor} {x : Parse α}

/-- The second reader goes on where the first one has ended. -/
theorem bind_of_ok {f : α → Parse β} {a : α} (h : x i c = .ok a d) :
    (x >>= f) i c = f a i d := by
  simp [Bind.bind, ReaderT.bind, EStateM.bind, h]

/-- Where the first reader fails, both do. -/
theorem bind_of_error {f : α → Parse β} {u : Unit} (h : x i c = .error u d) :
    (x >>= f) i c = .error u d := by
  simp [Bind.bind, ReaderT.bind, EStateM.bind, h]

theorem tryCatch_of_ok {f : Unit → Parse α} {a : α} (h : x i c = .ok a d) :
    MonadExcept.tryCatch x f i c = .ok a d := by
  simp only [MonadExcept.tryCatch, tryCatchThe, MonadExceptOf.tryCatch]
  delta EStateM.tryCatch
  simp only [h]

/-- What is tried after a failure starts from the same place. -/
theorem tryCatch_of_error {f : Unit → Parse α} {u : Unit} (h : x i c = .error u d) :
    MonadExcept.tryCatch x f i c = f u i { d with pos := c.pos } := by
  simp only [MonadExcept.tryCatch, tryCatchThe, MonadExceptOf.tryCatch]
  delta EStateM.tryCatch
  simp only [h, EStateM.Backtrackable.restore, EStateM.Backtrackable.save]

end Running

/-! ## What readers yield -/

/-- **What a reader yields**, wherever in a source it succeeds. -/
def Yields {α : Type} (i : Input) (x : Parse α) (P : α → Prop) : Prop :=
  ∀ c a c', x i c = .ok a c' → P a

namespace Yields

variable {α β : Type} {i : Input} {x y : Parse α} {P : α → Prop} {Q : β → Prop}

theorem pure {a : α} (h : P a) : Yields i (Pure.pure a) P := by
  intro c b c' hb
  cases hb
  exact h

theorem fail : Yields i (Parse.fail : Parse α) P := by
  intro c a c' h
  cases h

/-- What is yielded may be described by less. -/
theorem mono {P' : α → Prop} (h : Yields i x P) (hP : ∀ a, P a → P' a) : Yields i x P' :=
  fun c a c' ha => hP a (h c a c' ha)

/-- A reader that is run after another one knows what that one has yielded. -/
theorem bind {f : α → Parse β} (hx : Yields i x P) (hf : ∀ a, P a → Yields i (f a) Q) :
    Yields i (x >>= f) Q := by
  intro c b c' h
  cases hread : x i c with
  | ok a d =>
    rw [bind_of_ok hread] at h
    exact hf a (hx c a d hread) d b c' h
  | error u d =>
    rw [bind_of_error hread] at h
    cases h

/-- Where it does not matter what was read before. -/
theorem after {f : α → Parse β} (hf : ∀ a, Yields i (f a) Q) : Yields i (x >>= f) Q :=
  bind (P := fun _ => True) (fun _ _ _ _ => trivial) fun a _ => hf a

theorem given {f : α → Parse β} {a : α} (h : Yields i (f a) Q) :
    Yields i (Pure.pure a >>= f) Q :=
  bind (P := (· = a)) (.pure rfl) fun _ hb => hb ▸ h

theorem ite {b : Prop} [Decidable b] (hx : Yields i x P) (hy : Yields i y P) :
    Yields i (if b then x else y) P := by
  split
  · exact hx
  · exact hy

/-- What is yielded by a reader or, where it fails, by another one. -/
theorem tryCatch {f : Unit → Parse α} (hx : Yields i x P) (hf : ∀ u, Yields i (f u) P) :
    Yields i (MonadExcept.tryCatch x f) P := by
  intro c a c' h
  cases hread : x i c with
  | ok b d =>
    rw [tryCatch_of_ok hread] at h
    cases h
    exact hx c a c' hread
  | error u d =>
    rw [tryCatch_of_error hread] at h
    exact hf u _ a c' h

theorem orElse (hx : Yields i x P) (hy : Yields i y P) : Yields i (x <|> y) P :=
  tryCatch hx fun _ => hy

/-- Speculating yields nothing else. -/
theorem speculate {t : Trial} (hx : Yields i x P) : Yields i (Parse.speculate t x) P := by
  unfold Parse.speculate
  refine .after fun start => .after fun c => .ite .fail ?_
  exact tryCatch hx fun _ => .after fun _ => .fail

end Yields

variable {i : Input}

theorem yields_read : Yields i read (· = i) := by
  intro c a c' h
  cases h
  rfl

theorem yields_guard (b : Bool) : Yields i (guard b) fun _ => b = true := by
  unfold guard
  split
  · next h => exact .pure h
  · exact .fail

theorem yields_leafFrom (kind : Kind) (start : Nat) :
    Yields i (leafFrom kind start) fun n => n.kind = kind ∧ n.role = none ∧ n.start = start :=
  .after fun _ => .pure ⟨rfl, rfl, rfl⟩

/-- A mark that is read is spelt where it starts. -/
theorem yields_mark (text : String) :
    Yields i (mark text) fun n =>
      n.kind = .token text ∧ n.role = none ∧ spells i.chars n.start text.toList = true := by
  unfold mark
  refine .after fun _ => .after fun start => .bind yields_read fun r hr => ?_
  subst hr
  refine .bind (yields_guard _) fun _ hspells => .after fun _ => ?_
  refine (yields_leafFrom _ start).mono fun n hn => ⟨hn.1, hn.2.1, ?_⟩
  rw [hn.2.2]
  exact hspells

theorem yields_name (kind : Kind) :
    Yields i (name kind) fun n => n.kind = kind ∧ n.role = none := by
  unfold name
  refine .after fun _ => .after fun start => .after fun _ => .after fun _ => .after fun _ => ?_
  exact (yields_leafFrom kind start).mono fun n hn => ⟨hn.1, hn.2.1⟩

theorem yields_word (w : String) :
    Yields i (word w) fun n => n.kind = .token w ∧ n.role = none :=
  .after fun _ => .after fun _ => yields_name _

theorem getElem?_of_spells {chars : Array Char} {p : Nat} {c : Char} {cs : List Char}
    (h : spells chars p (c :: cs) = true) : chars[p]? = some c := by
  rw [spells, Bool.and_eq_true] at h
  exact eq_of_beq h.1

end Parse

/-! ## The readers of types -/

/-- **A grammar reads types** if its readers for types and for what these begin with yield what
they should. -/
structure ReadsTypes (i : Input) (g : Grammar) : Prop where
  type : ∀ c, Parse.Yields i (g (.type c)) (IsRead i.chars)
  typeOperand : ∀ c, Parse.Yields i (g (.typeOperand c)) (IsRead i.chars)
  parameters : Parse.Yields i (g .parameters) fun n => i.chars[n.start]? = some '('
  typeParameters : Parse.Yields i (g .typeParameters) fun n =>
    i.chars[n.start]? = some '<' ∧ n.role = none
  interfaceBody : Parse.Yields i (g .interfaceBody) fun n => n.kind = .interfaceBody

namespace ReadsTypes

open Parse

variable {i : Input} {g : Grammar}

theorem isRead_of_token {chars : Array Char} {n : Node} {text : String}
    (h : n.kind = .token text) : IsRead chars n :=
  .other (by simp [h])

theorem isRead_typeExpression {chars : Array Char} (children : List Node) :
    IsRead chars (branch .typeExpression children) :=
  .other (by simp [branch, Node.kind])

theorem yields_typeExpression (children : List Node) :
    Yields i (pure (branch .typeExpression children)) (IsRead i.chars) :=
  .pure (isRead_typeExpression children)

/-- Parameters start with a bracket. -/
theorem yields_parametersRule :
    Yields i (parametersRule g) fun n => i.chars[n.start]? = some '(' := by
  unfold parametersRule
  refine .bind (yields_mark "(") fun l hl => .after fun ps => .after fun r => .pure ?_
  exact getElem?_of_spells hl.2.2

/-- Type parameters start with an angle bracket. -/
theorem yields_typeParametersRule :
    Yields i (typeParametersRule g) fun n => i.chars[n.start]? = some '<' ∧ n.role = none := by
  unfold typeParametersRule
  refine .bind (yields_mark "<") fun l hl => .after fun ps => .after fun comma =>
    .after fun r => .pure ⟨?_, rfl⟩
  exact getElem?_of_spells hl.2.2

theorem yields_interfaceBodyRule :
    Yields i (interfaceBodyRule g) fun n => n.kind = .interfaceBody :=
  .after fun _ => .after fun _ => .after fun _ => .after fun _ => .pure rfl

/-- Nodes that begin with a parameter list or with type parameters. -/
def Opens (chars : Array Char) (ns : List Node) : Prop :=
  ∃ n, ns.head? = some n ∧ (chars[n.start]? = some '(' ∨ chars[n.start]? = some '<')

/-- A function type starts with what it opens with and has parameters. -/
theorem isRead_functionType {chars : Array Char} {tps : List Node} {ps : Node}
    (h : Opens chars (tps ++ [ps])) (arrow : Node) (result : List Node) :
    IsRead chars (branch .functionType (tps ++ [ps.withRole .parameters, arrow] ++ result)) := by
  have hps : ps.withRole .parameters ∈ tps ++ [ps.withRole .parameters, arrow] ++ result := by
    simp
  refine .functionType rfl ?_ ⟨ps.withRole .parameters, hps, Node.role_withRole _ _⟩
  obtain ⟨n, hn, hstart⟩ := h
  cases tps with
  | nil =>
    cases Option.some.inj hn
    cases ps
    exact hstart
  | cons t tps =>
    cases Option.some.inj hn
    exact hstart

/-- Function types are read as such. -/
theorem yields_functionType (hg : ReadsTypes i g) (c : TypeContext) :
    Yields i (functionType g c) (IsRead i.chars) := by
  unfold functionType
  refine .bind (P := fun head => Opens i.chars (head.1 ++ [head.2.1])) (.speculate ?_)
    fun head hopens => .after fun result => .pure (isRead_functionType hopens _ result)
  refine .after fun b => .ite ?_ ?_
  · refine .bind hg.typeParameters fun t ht => .given <| .after fun ps => .after fun arrow => ?_
    exact .pure ⟨t, rfl, .inr ht.1⟩
  · refine .given <| .bind hg.parameters fun ps hps => .after fun arrow => ?_
    exact .pure ⟨ps, rfl, .inl hps⟩

/-- Types in brackets are read as such. -/
theorem yields_parenthesizedType (hg : ReadsTypes i g) :
    Yields i (parenthesizedType g) (IsRead i.chars) := by
  unfold parenthesizedType
  refine .bind (yields_mark "(") fun l hl => .bind (hg.type _) fun t ht =>
    .bind (yields_mark ")") fun r hr =>
      .pure (.brackets rfl (getElem?_of_spells hl.2.2) fun m hm => ?_)
  simp only [branch, Node.children, List.mem_cons, List.not_mem_nil, or_false] at hm
  rcases hm with rfl | rfl | rfl
  · exact isRead_of_token hl.1
  · exact ht
  · exact isRead_of_token hr.1

/-! ### Operators -/

section Operators

variable {c : TypeContext} {kind : Kind} {op : Char} {operand : Parse Node}

theorem isRead_operator {chars : Array Char} (hkind : kind = .unionType ∨ kind = .typeExpression)
    {children : List Node} (h : ∀ n ∈ children, IsRead chars n) :
    IsRead chars (branch kind children) := by
  rcases hkind with rfl | rfl
  · exact .union rfl h
  · exact isRead_typeExpression children

/-- The operands behind the first one are read. The induction is on the limit. -/
theorem yields_repeated (hg : ReadsTypes i g)
    (hkind : kind = .unionType ∨ kind = .typeExpression)
    (hoperand : Yields i operand (IsRead i.chars)) {m : Node} (hm : IsRead i.chars m)
    (limit : Nat) :
    Yields i (operatorType.repeated g c kind op operand m limit)
      fun ns => ∀ n ∈ ns, IsRead i.chars n := by
  induction limit generalizing m with
  | zero => exact .fail
  | succ limit ih =>
    have hpair {t : Node} (ht : IsRead i.chars t) : ∀ n ∈ [m, t], IsRead i.chars n := by
      simpa using ⟨hm, ht⟩
    unfold operatorType.repeated
    refine .after fun again => .ite ?_ (.after fun bar => .ite ?_ ?_)
    · exact .bind (yields_mark _) fun m' hm' => .bind (ih (isRead_of_token hm'.1))
        fun right hright => .pure (hpair (isRead_operator hkind hright))
    · exact .bind (hg.type c) fun t ht => .pure (hpair ht)
    · exact .bind hoperand fun t ht => .pure (hpair ht)

theorem yields_loop (hg : ReadsTypes i g)
    (hkind : kind = .unionType ∨ kind = .typeExpression)
    (hoperand : Yields i operand (IsRead i.chars)) {left : List Node}
    (hleft : ∀ n ∈ left, IsRead i.chars n) (limit : Nat) :
    Yields i (operatorType.loop g c kind op operand left limit)
      fun ns => ∀ n ∈ ns, IsRead i.chars n := by
  induction limit generalizing left with
  | zero => exact .pure hleft
  | succ limit ih =>
    unfold operatorType.loop
    refine .after fun ahead => .ite (.bind (yields_mark _) fun m hm => ?_) (.pure hleft)
    refine .bind (yields_repeated hg hkind hoperand (isRead_of_token hm.1) limit)
      fun right hright => ih ?_
    have hnode : IsRead i.chars (branch kind (left ++ right)) :=
      isRead_operator hkind fun n hn => (List.mem_append.1 hn).elim (hleft n) (hright n)
    simpa using hnode

/-- **Unions and other operators join types that have been read.** -/
theorem yields_operatorType (hg : ReadsTypes i g)
    (hkind : kind = .unionType ∨ kind = .typeExpression)
    (hoperand : Yields i operand (IsRead i.chars)) :
    Yields i (operatorType g c kind op operand) (IsRead i.chars) := by
  unfold operatorType
  refine .after fun ahead => .ite (.given ?_) (.bind hoperand fun t ht => .given ?_) <;>
    refine .after fun _ => .bind (yields_loop hg hkind hoperand ?_ _) fun ns hns => ?_
  · simp
  · split
    · exact .pure (hns _ List.mem_cons_self)
    · exact .fail
  · simpa using ht
  · split
    · exact .pure (hns _ List.mem_cons_self)
    · exact .fail

/-- The rule for types yields what it should, if the grammar it uses does. -/
theorem yields_typeRule (hg : ReadsTypes i g) (c : TypeContext) :
    Yields i (typeRule g c) (IsRead i.chars) := by
  unfold typeRule
  refine .bind (yields_operatorType hg (.inl rfl)
    (yields_operatorType hg (.inr rfl) (hg.typeOperand c))) fun t ht =>
      .after fun extending => .after fun lineEnd => .ite ?_ (.pure ht)
  exact .after fun _ => .after fun _ => .after fun _ => .after fun _ => .after fun _ =>
    .after fun _ => yields_typeExpression _

end Operators

/-! ### Operands -/

/-- What follows a type leaves it one that has been read. -/
theorem yields_typeSuffixes {c : TypeContext} {t : Node} (ht : IsRead i.chars t) (limit : Nat) :
    Yields i (typeSuffixes g c t limit) (IsRead i.chars) := by
  induction limit generalizing t with
  | zero => exact .pure ht
  | succ limit ih =>
    unfold typeSuffixes
    refine .after fun bracket => .after fun lineEnd => .ite (.after fun l => .after fun empty =>
      .ite ?_ ?_) (.pure ht)
    · exact .given <| .after fun r => ih (isRead_typeExpression _)
    · exact .after fun t => .given <| .after fun r => ih (isRead_typeExpression _)

theorem yields_suffixed {c : TypeContext} {x : Parse Node} (hx : Yields i x (IsRead i.chars)) :
    Yields i (typeOperandRule.suffixed g c x) (IsRead i.chars) :=
  .bind hx fun _ ht => .after fun _ => yields_typeSuffixes ht _

theorem isRead_genericType {chars : Array Char} (children : List Node) :
    IsRead chars (branch .genericType children) :=
  .other (by simp [branch, Node.kind])

/-- A type that is named by one word is read as that word. -/
theorem yields_namedType {first : Parse (List Node)}
    (hfirst : Yields i first fun ns => ∀ n, ns = [n] → IsRead i.chars n) :
    Yields i (namedType g first) (IsRead i.chars) := by
  unfold namedType
  refine .bind hfirst fun head hhead => .after fun path => ?_
  dsimp only
  split
  · have hx := hhead _ rfl
    refine .after fun _ => .ite (.after fun arguments => ?_) (.pure hx)
    split
    · exact .pure hx
    · exact .pure (isRead_genericType _)
  · have hpath : IsRead i.chars (branch .typeExpression (head ++ path)) := isRead_typeExpression _
    refine .after fun _ => .ite (.after fun arguments => ?_) (.pure hpath)
    split
    · exact .pure hpath
    · exact .pure (isRead_genericType _)

theorem yields_typeQuery : Yields i (typeQuery g) (IsRead i.chars) := by
  unfold typeQuery
  refine .after fun _ => .after fun _ => .ite (.after fun x => ?_) (.after fun x => .given ?_)
  all_goals
    refine .after fun path => .after fun _ => .ite (.after fun arguments => ?_) (.given ?_)
    all_goals exact yields_typeExpression _

theorem yields_constructorType (c : TypeContext) :
    Yields i (constructorType g c) (IsRead i.chars) := by
  unfold constructorType
  refine .after fun _ => .ite (.after fun _ => .given ?_) (.given ?_)
  all_goals
    refine .after fun new => .after fun _ => .ite (.after fun tps => .given ?_) (.given ?_)
    all_goals exact .after fun ps => .after fun arrow => .after fun t => yields_typeExpression _

theorem yields_wordType (c : TypeContext) (w : String) :
    Yields i (wordType g c w) (IsRead i.chars) := by
  unfold wordType
  split
  · exact yields_constructorType c
  · exact yields_constructorType c
  · exact .after fun _ => .after fun _ => yields_typeExpression _
  · exact .after fun _ => .after fun _ => yields_typeExpression _
  · exact .after fun _ => .after fun _ => yields_typeExpression _
  · exact .after fun _ => .after fun _ => .after fun _ => yields_typeExpression _
  · exact yields_typeQuery
  · refine yields_namedType <| .after fun _ => .after fun _ => .after fun _ => .after fun _ => ?_
    exact .pure (by simp)
  · refine .ite (.after fun _ => yields_typeExpression _) ?_
    refine yields_namedType <| .bind (yields_name _) fun x hx => .pure ?_
    intro n hn
    cases hn
    exact .other (by simp [hx.1])

/-- So does the rule for operands of types. -/
theorem yields_typeOperandRule (hg : ReadsTypes i g) (c : TypeContext) :
    Yields i (typeOperandRule g c) (IsRead i.chars) := by
  unfold typeOperandRule
  refine .after fun w => .ite ?_ (.after fun next => ?_)
  · refine .bind (yields_wordType c w) fun t ht => .ite (.pure ht) ?_
    exact .after fun _ => yields_typeSuffixes ht _
  · -- by the character that the operand begins with
    split
    · exact .fail
    · exact .orElse (yields_functionType hg c) (yields_suffixed (yields_parenthesizedType hg))
    · exact yields_functionType hg c
    · exact yields_suffixed <| .after fun _ => .after fun _ => .after fun _ =>
        yields_typeExpression _
    · refine yields_suffixed (hg.interfaceBody.mono fun n hn => .other ?_)
      simp [hn]
    · exact yields_suffixed <| .after fun _ => .after fun _ => .after fun _ =>
        yields_typeExpression _
    · exact yields_suffixed (.after fun _ => yields_typeExpression _)
    · exact yields_suffixed (.after fun _ => yields_typeExpression _)
    · exact .after fun _ => .after fun _ => yields_typeExpression _
    · exact yields_suffixed (.after fun _ => yields_typeExpression _)
    · exact .after fun _ => yields_suffixed (.after fun _ => yields_typeExpression _)
    · exact .after fun _ => yields_suffixed (.after fun _ => yields_typeExpression _)
    · exact yields_suffixed (.after fun _ => yields_typeExpression _)

/-! ### All readers together -/

/-- Readers of phrases inside which types are read as they should be read types as they
should. -/
theorem grammar (hg : ReadsTypes i g) : ReadsTypes i (grammar g) where
  type := yields_typeRule hg
  typeOperand := yields_typeOperandRule hg
  parameters := yields_parametersRule
  typeParameters := yields_typeParametersRule
  interfaceBody := yields_interfaceBodyRule

/-- **Types are read as they should be** at any depth of nesting. -/
theorem grammarUpTo (i : Input) (fuel : Nat) : ReadsTypes i (grammarUpTo fuel) := by
  induction fuel with
  | zero => exact ⟨fun _ => .fail, fun _ => .fail, .fail, .fail, .fail⟩
  | succ fuel ih => exact ih.grammar

/-- A declaration of a name for a type has the type as its value. -/
theorem yields_typeAlias (hg : ReadsTypes i g) :
    Yields i (typeAlias g) fun n => n.kind = .typeAliasDeclaration
      ∧ ∃ v, n.inRole? .value = some v ∧ IsRead i.chars v := by
  unfold typeAlias
  refine .bind (yields_word _) fun k hk => .bind (yields_name _) fun x hx => .after fun _ =>
    .ite (.bind hg.typeParameters fun t ht => .given ?_) (.given ?_)
  · refine .bind (yields_mark _) fun eq heq => .bind (hg.type _) fun v hv => .after fun last => ?_
    refine .pure ⟨rfl, v.withRole .value, ?_, hv.withRole _⟩
    simp [Node.inRole?, branch, Node.children, hk.2, ht.2, heq.2.1]
  · refine .bind (yields_mark _) fun eq heq => .bind (hg.type _) fun v hv => .after fun last => ?_
    refine .pure ⟨rfl, v.withRole .value, ?_, hv.withRole _⟩
    simp [Node.inRole?, branch, Node.children, hk.2, heq.2.1]

end ReadsTypes
end ComponentCatalog.Syntax
