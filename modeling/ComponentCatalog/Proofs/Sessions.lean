import ComponentCatalog.Inheritance.Chain

/-!
# What a session remembers makes no difference

A session keeps the properties of the root type and the files of the search roots
once it has worked them out, and it keeps the log. None of this shows in the answers:
a computation gives in any session the answer it gives in one that has just begun,
as long as the session has been used for the same library and the library has not
changed.

A session *agrees* with a library when what it remembers is what would be worked out
anew. `Gives l x r` says that the computation `x` answers `r` in every session that
agrees with `l`, and leaves a session behind that agrees. It is closed under the ways
of putting computations together, so one such statement for each function says what
the function answers, with nothing left in it about sessions. A computation is
`Steady` when it gives some answer in this sense, which is then the one in a session
that has just begun.

Two weaker statements are about any session: `Ensures` bounds the answers that a
computation can have, and `Succeeds` says besides that it has one.
-/

namespace ComponentCatalog

namespace Catalog

variable {α β : Type}

/-- The answer of a computation in a session. -/
def result (x : Catalog α) (s : Session) : Except Fault α :=
  (x.run.run s).1

/-- The session that a computation leaves behind. -/
def after (x : Catalog α) (s : Session) : Session :=
  (x.run.run s).2

/-- The answer of a computation in a session that has just begun. -/
def fresh (x : Catalog α) : Except Fault α :=
  x.result {}

/-- The second part goes on in the session that the first one leaves. -/
theorem result_bind (x : Catalog α) (f : α → Catalog β) (s : Session) :
    (x >>= f).result s
      = x.result s >>= fun a => (f a).result (x.after s) := by
  show (StateT.run (ExceptT.run (x >>= f)) s).1 = _
  rw [ExceptT.run_bind, StateT.run_bind]
  unfold result after
  rcases x.run.run s with ⟨_ | _, _⟩ <;> rfl

/-- The second part leaves the session, unless the first one fails. -/
theorem after_bind (x : Catalog α) (f : α → Catalog β) (s : Session) :
    (x >>= f).after s
      = match x.result s with
        | .ok a => (f a).after (x.after s)
        | .error _ => x.after s := by
  show (StateT.run (ExceptT.run (x >>= f)) s).2 = _
  rw [ExceptT.run_bind, StateT.run_bind]
  unfold result after
  rcases x.run.run s with ⟨_ | _, _⟩ <;> rfl

theorem result_map (g : α → β) (x : Catalog α) (s : Session) :
    (g <$> x).result s = (x.result s).map g := by
  show ((x >>= fun a => pure (g a)) : Catalog β).result s = _
  rw [result_bind]
  rcases x.result s <;> rfl

theorem after_map (g : α → β) (x : Catalog α) (s : Session) :
    (g <$> x).after s = x.after s := by
  show ((x >>= fun a => pure (g a)) : Catalog β).after s = _
  rw [after_bind]
  rcases x.result s <;> rfl

/-- A computation that looks at its session answers as the rest of it does there. -/
theorem result_get_bind (f : Session → Catalog β) (s : Session) :
    (get >>= f).result s = (f s).result s := rfl

theorem after_get_bind (f : Session → Catalog β) (s : Session) :
    (get >>= f).after s = (f s).after s := rfl

end Catalog

/-! ## What every answer satisfies -/

/-- A computation ensures what holds of its answer whenever it has one, in any
session. -/
def Ensures {α : Type} (P : α → Prop) (x : Catalog α) : Prop :=
  ∀ (s : Session) (a : α), x.result s = .ok a → P a

/-- A computation succeeds with what holds of its answer, in any session. -/
def Succeeds {α : Type} (P : α → Prop) (x : Catalog α) : Prop :=
  ∀ s : Session, ∃ a, x.result s = .ok a ∧ P a

namespace Ensures

variable {α β : Type} {P : α → Prop} {Q : β → Prop} {x : Catalog α} {f : α → Catalog β}

theorem pure {a : α} (h : P a) : Ensures P (Pure.pure a) := by
  intro s b hb
  cases hb
  exact h

theorem throw (e : Fault) : Ensures P (MonadExcept.throw e : Catalog α) :=
  nofun

theorem any (x : Catalog α) : Ensures (fun _ => True) x :=
  fun _ _ _ => trivial

/-- What the first part ensures may be used for the second. -/
theorem bind (hx : Ensures P x) (hf : ∀ a, P a → Ensures Q (f a)) : Ensures Q (x >>= f) := by
  intro s b hb
  rw [Catalog.result_bind] at hb
  cases h : x.result s with
  | error e => rw [h] at hb; cases hb
  | ok a =>
    rw [h] at hb
    exact hf a (hx s a h) _ b hb

/-- What comes after a computation of which nothing is known. -/
theorem then_of (hf : ∀ a, Ensures Q (f a)) : Ensures Q (x >>= f) :=
  (any x).bind fun a _ => hf a

/-- An attempt succeeds, and ensures what it attempts did. -/
theorem attempt (hx : Ensures P x) :
    Succeeds (fun r : Except Fault α => ∀ a, r = .ok a → P a) x.attempt :=
  fun s => ⟨x.result s, rfl, fun a ha => hx s a ha⟩

end Ensures

namespace Succeeds

variable {α β : Type} {P : α → Prop} {Q : β → Prop} {x : Catalog α} {f : α → Catalog β}

theorem pure {a : α} (h : P a) : Succeeds P (Pure.pure a) :=
  fun _ => ⟨a, rfl, h⟩

theorem note (r : Log.Record) : Succeeds (fun _ => True) (Catalog.note r) :=
  fun _ => ⟨(), rfl, trivial⟩

/-- Parts that succeed succeed together. -/
theorem bind (hx : Succeeds P x) (hf : ∀ a, P a → Succeeds Q (f a)) : Succeeds Q (x >>= f) := by
  intro s
  obtain ⟨a, ha, hp⟩ := hx s
  rw [Catalog.result_bind, ha]
  exact hf a hp (x.after s)

theorem mono {P' : α → Prop} (hx : Succeeds P x) (h : ∀ a, P a → P' a) : Succeeds P' x := by
  intro s
  obtain ⟨a, ha, hp⟩ := hx s
  exact ⟨a, ha, h a hp⟩

theorem note_bind {f : Unit → Catalog β} (r : Log.Record) (hf : Succeeds Q (f ())) :
    Succeeds Q (Catalog.note r >>= f) :=
  (note r).bind fun _ _ => hf

/-- What succeeds ensures the same. -/
theorem ensures (hx : Succeeds P x) : Ensures P x := by
  intro s a ha
  obtain ⟨b, hb, hp⟩ := hx s
  rw [ha] at hb
  cases hb
  exact hp

end Succeeds

/-! ## Sessions that agree with a library -/

/-- **A session agrees with a library** when everything it remembers is what would
be worked out anew. -/
structure Session.Agrees (l : Library) (s : Session) : Prop where
  rootProps : ∀ props, s.rootProps? = some props → l.readRootProperties.fresh = .ok props
  artifacts : ∀ root index, s.artifacts.lookup root = some index →
    artifactIndex l.disk l.path root = .ok index

/-- A session that has just begun remembers nothing. -/
theorem Session.agrees_empty (l : Library) : Session.Agrees l {} :=
  ⟨nofun, nofun⟩

/-- **A computation gives an answer** if that is its answer in every session that
agrees with the library, and such a session is left in agreement. -/
def Gives {α : Type} (l : Library) (x : Catalog α) (r : Except Fault α) : Prop :=
  ∀ s : Session, s.Agrees l → x.result s = r ∧ (x.after s).Agrees l

/-- A computation is steady if it gives the same answer in every session that
agrees. -/
def Steady {α : Type} (l : Library) (x : Catalog α) : Prop :=
  Gives l x x.fresh

namespace Gives

variable {α β : Type} {l : Library} {x : Catalog α} {r : Except Fault α} {a : α}
  {f : α → Catalog β} {q : Except Fault β}

theorem fresh_eq (hx : Gives l x r) : x.fresh = r :=
  (hx {} (Session.agrees_empty l)).1

/-- What gives an answer gives the same one in every session. -/
theorem steady (hx : Gives l x r) : Steady l x := by
  unfold Steady
  rw [hx.fresh_eq]
  exact hx

theorem of_eq {r' : Except Fault α} (hx : Gives l x r) (h : r = r') : Gives l x r' :=
  h ▸ hx

theorem pure (a : α) : Gives l (Pure.pure a) (.ok a) :=
  fun _ hs => ⟨rfl, hs⟩

theorem throw (e : Fault) : Gives l (MonadExcept.throw e : Catalog α) (.error e) :=
  fun _ hs => ⟨rfl, hs⟩

theorem note (r : Log.Record) : Gives l (Catalog.note r) (.ok ()) :=
  fun _ hs => ⟨rfl, ⟨hs.rootProps, hs.artifacts⟩⟩

theorem noteAll (rs : List Log.Record) : Gives l (Catalog.noteAll rs) (.ok ()) :=
  fun _ hs => ⟨rfl, ⟨hs.rootProps, hs.artifacts⟩⟩

theorem attempt (hx : Gives l x r) : Gives l x.attempt (.ok r) :=
  fun s hs => ⟨congrArg Except.ok (hx s hs).1, (hx s hs).2⟩

/-- What comes after a computation that succeeds decides the answer. -/
theorem bind (hx : Gives l x (.ok a)) (hf : Gives l (f a) q) : Gives l (x >>= f) q := by
  intro s hs
  obtain ⟨hr, ha⟩ := hx s hs
  rw [Catalog.result_bind, Catalog.after_bind, hr]
  exact hf _ ha

theorem note_pure (n : Log.Record) (a : α) :
    Gives l (Catalog.note n >>= fun _ => Pure.pure a) (.ok a) :=
  (note n).bind (pure a)

/-- Nothing comes after a computation that fails. -/
theorem bind_error {e : Fault} (hx : Gives l x (.error e)) : Gives l (x >>= f) (.error e) := by
  intro s hs
  obtain ⟨hr, ha⟩ := hx s hs
  rw [Catalog.result_bind, Catalog.after_bind, hr]
  exact ⟨rfl, ha⟩

theorem map {g : α → β} (hx : Gives l x (.ok a)) : Gives l (g <$> x) (.ok (g a)) :=
  hx.bind (.pure (g a))

/-- As `Gives.bind` when only a part of the first answer is known: the answers of
some computations carry proofs, and those are not looked at. -/
theorem bind_of_map {γ : Type} {g : α → γ} {c : γ} (hx : Gives l (g <$> x) (.ok c))
    (hf : ∀ a, g a = c → Gives l (f a) q) : Gives l (x >>= f) q := by
  intro s hs
  obtain ⟨hr, ha⟩ := hx s hs
  rw [Catalog.result_map] at hr
  rw [Catalog.after_map] at ha
  rw [Catalog.result_bind, Catalog.after_bind]
  cases h : x.result s with
  | error e => rw [h] at hr; cases hr
  | ok a =>
    rw [h] at hr
    exact hf a (Except.ok.inj hr) _ ha

/-- A fault stays one, whatever is made of the answer. -/
theorem bind_error_of_map {γ : Type} {g : α → γ} {e : Fault}
    (hx : Gives l (g <$> x) (.error e)) : Gives l (x >>= f) (.error e) := by
  intro s hs
  obtain ⟨hr, ha⟩ := hx s hs
  rw [Catalog.result_map] at hr
  rw [Catalog.after_map] at ha
  rw [Catalog.result_bind, Catalog.after_bind]
  cases h : x.result s with
  | ok a => rw [h] at hr; cases hr
  | error e' =>
    rw [h] at hr
    exact ⟨congrArg Except.error (Except.error.inj hr), ha⟩

end Gives

namespace Steady

variable {α β : Type} {l : Library} {x : Catalog α} {f : α → Catalog β}

/-- A computation that is put together from steady ones is steady. -/
theorem bind (hx : Steady l x) (hf : ∀ a, Steady l (f a)) : Steady l (x >>= f) := by
  unfold Steady at hx
  cases h : x.fresh with
  | ok a => exact ((h ▸ hx).bind (hf a)).steady
  | error e => exact (h ▸ hx).bind_error.steady

theorem pure (a : α) : Steady l (Pure.pure a) :=
  (Gives.pure a).steady

theorem throw (e : Fault) : Steady l (MonadExcept.throw e : Catalog α) :=
  (Gives.throw e).steady

theorem attempt (hx : Steady l x) : Steady l x.attempt :=
  (Gives.attempt hx).steady

/-- A note before a steady computation leaves it steady. -/
theorem after_note {y : Catalog β} (r : Log.Record) (hy : Steady l y) :
    Steady l (Catalog.note r >>= fun _ => y) :=
  (Gives.note r).steady.bind fun _ => hy

end Steady

/-! ## Reading files -/

section Files

variable (l : Library)

/-- A fault in a map is not noted but ends the computation. -/
theorem gives_orNote_fault {α : Type} {short : SourceMap.Shortfall} {f : Fault}
    (h : short.fault? = some f) :
    Gives l (SourceMap.orNote (.error short : Except _ α)) (.error f) := by
  unfold SourceMap.orNote
  simp only [h]
  exact .throw _

/-- A shortfall that is no fault is an answer without a text. -/
theorem gives_orNote {α : Type} {r : Except SourceMap.Shortfall α}
    (h : ∀ short, r = .error short → short.fault? = none) :
    Gives l (SourceMap.orNote r) (.ok r.toOption) := by
  cases r with
  | ok s => exact .pure _
  | error short =>
    unfold SourceMap.orNote
    simp only [h short rfl]
    cases short.message? with
    | some m => exact .note_pure _ _
    | none => exact .pure _

/-- Noting what is missing does not depend on the session. -/
theorem steady_orNote {α : Type} (r : Except SourceMap.Shortfall α) :
    Steady l (SourceMap.orNote r) := by
  cases r with
  | ok s => exact .pure _
  | error short =>
    cases h : short.fault? with
    | some f => exact (gives_orNote_fault l h).steady
    | none => exact (gives_orNote l fun _ heq => Except.error.inj heq ▸ h).steady

/-- The files of a search root are the same whether they are listed now or
remembered. Nothing is remembered of a search root that cannot be listed. -/
theorem gives_artifactsUnder (root : String) :
    Gives l (artifactsUnder l.disk l.path root) (artifactIndex l.disk l.path root) := by
  intro s hs
  unfold artifactsUnder
  rw [Catalog.result_get_bind, Catalog.after_get_bind]
  cases h : s.artifacts.lookup root with
  | some index => exact ⟨(hs.artifacts root index h).symm, hs⟩
  | none =>
    dsimp only
    cases hi : artifactIndex l.disk l.path root with
    | error f => exact ⟨rfl, hs⟩
    | ok index =>
      refine ⟨rfl, hs.rootProps, fun root' index' h' => ?_⟩
      change List.lookup root' ((root, index) :: s.artifacts) = some index' at h'
      rw [List.lookup_cons] at h'
      split at h'
      · next heq => rw [eq_of_beq heq, hi, Option.some.inj h']
      · exact hs.artifacts root' index' h'

end Files

end ComponentCatalog
