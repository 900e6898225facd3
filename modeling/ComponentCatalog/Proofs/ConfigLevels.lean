import Mathlib.Data.List.Forall2
import ComponentCatalog.Config.Load

/-!
# How deep a configuration looks

A YAML value may be part of itself, so that it has no end of levels, and only a number of them is
looked at. A configuration has fewer. Two values are alike to a number of levels (`AgreeTo`) if
they differ below it only. Those of one node are, whatever number of levels is looked at
(`agreeTo_ofObject`), and values that are alike to five levels spell the same configuration
(`Config.ofValue_congr`).
-/

namespace ComponentCatalog

namespace Yaml.Value

/-- **Two values of one kind**: collections of one kind, or the same. -/
inductive SameKind : Value → Value → Prop
  | same (v : Value) : SameKind v v
  | list (items items' : List Value) : SameKind (.list items) (.list items')
  | pair (key value key' value' : Value) : SameKind (.pair key value) (.pair key' value')
  | mapping (pairs pairs' : List (Value × Value)) : SameKind (.mapping pairs) (.mapping pairs')
  | set (members members' : List Value) : SameKind (.set members) (.set members')

/-- **Values whose parts are related.** -/
inductive Alike (R : Value → Value → Prop) : Value → Value → Prop
  | same (v : Value) : Alike R v v
  | list {items items' : List Value} (h : List.Forall₂ R items items') :
      Alike R (.list items) (.list items')
  | pair {key value key' value' : Value} (hkey : R key key') (hvalue : R value value') :
      Alike R (.pair key value) (.pair key' value')
  | mapping {pairs pairs' : List (Value × Value)}
      (h : List.Forall₂ (fun p q => R p.1 q.1 ∧ R p.2 q.2) pairs pairs') :
      Alike R (.mapping pairs) (.mapping pairs')
  | set {members members' : List Value} (h : List.Forall₂ R members members') :
      Alike R (.set members) (.set members')

/-- **Values that agree to a number of levels**; below them, they agree in their kind. -/
def AgreeTo : Nat → Value → Value → Prop
  | 0 => SameKind
  | n + 1 => Alike (AgreeTo n)

section Agreement

variable {n : Nat} {v w a a' b b' : Value}

theorem AgreeTo.refl (n : Nat) (v : Value) : AgreeTo n v v := by
  cases n with
  | zero => exact .same v
  | succ n => exact .same v

theorem AgreeTo.sameKind (h : AgreeTo n v w) : SameKind v w := by
  cases n with
  | zero => exact h
  | succ n =>
    cases h with
    | same => exact .same v
    | list => exact .list ..
    | pair => exact .pair ..
    | mapping => exact .mapping ..
    | set => exact .set ..

theorem Alike.imp {R S : Value → Value → Prop} (h : Alike R v w) (hRS : ∀ v w, R v w → S v w) :
    Alike S v w := by
  cases h with
  | same => exact .same v
  | list h => exact .list (h.imp hRS)
  | pair hkey hvalue => exact .pair (hRS _ _ hkey) (hRS _ _ hvalue)
  | mapping h => exact .mapping (h.imp fun _ _ hp => hp.imp (hRS _ _) (hRS _ _))
  | set h => exact .set (h.imp hRS)

/-- Values agree to fewer levels, too. -/
theorem AgreeTo.of_succ (h : AgreeTo (n + 1) v w) : AgreeTo n v w := by
  induction n generalizing v w with
  | zero => exact h.sameKind
  | succ n ih => exact Alike.imp h fun _ _ => ih

/-! ## Keys -/

/-- No collection is a key. -/
theorem sameKey_congr (ha : SameKind a a') (hb : SameKind b b') :
    a.sameKey b = a'.sameKey b' := by
  cases ha with
  | same => cases hb <;> cases a <;> rfl
  | list => cases hb <;> rfl
  | pair => cases hb <;> rfl
  | mapping => cases hb <;> rfl
  | set => cases hb <;> rfl

theorem plainText?_congr (h : SameKind v w) : v.plainText? = w.plainText? := by
  cases h <;> rfl

theorem keyText_congr (h : SameKind v w) : v.keyText = w.keyText := by
  cases h <;> rfl

/-- Pairs whose parts are related. -/
abbrev AlikePairs (R : Value → Value → Prop) : List (Value × Value) → List (Value × Value) → Prop :=
  List.Forall₂ fun p q => R p.1 q.1 ∧ R p.2 q.2

/-- A pair is put in the same place. -/
theorem putPair_congr {R : Value → Value → Prop} (hR : ∀ v w, R v w → SameKind v w)
    {ps qs : List (Value × Value)} (h : AlikePairs R ps qs) (ha : R a a') (hb : R b b') :
    AlikePairs R (putPair a b ps) (putPair a' b' qs) := by
  induction h with
  | nil => exact .cons ⟨ha, hb⟩ .nil
  | cons hp h ih =>
    unfold putPair
    rw [sameKey_congr (hR _ _ hp.1) (hR _ _ ha)]
    split
    · exact .cons ⟨hp.1, hb⟩ h
    · exact .cons hp ih

/-- **Mappings that are written alike are alike.** -/
theorem mappingOf_congr {R : Value → Value → Prop} (hR : ∀ v w, R v w → SameKind v w)
    {ps qs : List (Value × Value)} (h : AlikePairs R ps qs) :
    AlikePairs R (mappingOf ps) (mappingOf qs) :=
  List.rel_foldl (fun _ _ hacc _ _ hp => putPair_congr hR hacc hp.1 hp.2) .nil h

end Agreement

theorem forall₂_map_map {α β : Type} {R : β → β → Prop} {f g : α → β} (h : ∀ a, R (f a) (g a))
    (l : List α) : List.Forall₂ R (l.map f) (l.map g) := by
  rw [List.forall₂_map_left_iff, List.forall₂_map_right_iff, List.forall₂_same]
  exact fun a _ => h a

/-- **Values of one node agree as far as both are looked at.** -/
theorem agreeTo_ofObject (objects : Array (Option Object)) (n more i : Nat) :
    AgreeTo n (ofObject objects (n + 1) i) (ofObject objects (n + more + 1) i) := by
  induction n generalizing i with
  | zero =>
    rw [ofObject, ofObject]
    generalize (objects[i]?.join).getD .begun = o
    cases o with
    | begun => exact .same _
    | scalar v => exact .same v
    | list => exact .list ..
    | entries => exact .list ..
    | mapping => exact .mapping ..
    | set => exact .set ..
  | succ n ih =>
    rw [ofObject, ofObject, Nat.add_right_comm n 1 more]
    have hpairs (pairs : List (Nat × Nat)) : AlikePairs (AgreeTo n)
        (mappingOf (pairs.map fun e =>
          (ofObject objects (n + 1) e.1, ofObject objects (n + 1) e.2)))
        (mappingOf (pairs.map fun e =>
          (ofObject objects (n + more + 1) e.1, ofObject objects (n + more + 1) e.2))) := by
      exact mappingOf_congr (fun _ _ => AgreeTo.sameKind)
        (forall₂_map_map (fun e => ⟨ih e.1, ih e.2⟩) pairs)
    have hentry (e : Nat × Nat) : AgreeTo n
        (.pair (ofObject objects (n + 1) e.1) (ofObject objects (n + 1) e.2))
        (.pair (ofObject objects (n + more + 1) e.1) (ofObject objects (n + more + 1) e.2)) :=
      AgreeTo.of_succ (.pair (ih e.1) (ih e.2))
    generalize (objects[i]?.join).getD .begun = o
    cases o with
    | begun => exact .same _
    | scalar v => exact .same v
    | list items => exact .list (forall₂_map_map ih items)
    | entries pairs => exact .list (forall₂_map_map hentry pairs)
    | mapping pairs => exact .mapping (hpairs pairs)
    | set pairs =>
      refine .set ?_
      rw [List.forall₂_map_left_iff, List.forall₂_map_right_iff]
      exact (hpairs pairs).imp fun _ _ h => h.1

/-! ## Parts of values -/

section Parts

variable {n : Nat} {v w : Value}

/-- The pairs of values that agree agree one level below. -/
theorem pairs_congr (h : AgreeTo (n + 1) v w) : AlikePairs (AgreeTo n) v.pairs w.pairs := by
  cases h with
  | same => exact List.forall₂_same.2 fun p _ => ⟨.refl n p.1, .refl n p.2⟩
  | mapping h => exact h
  | list | pair | set => exact .nil

/-- The first pair of a key is found in the same place. -/
theorem find?_congr {ps qs : List (Value × Value)} (h : AlikePairs (AgreeTo n) ps qs)
    (key : Value) :
    Option.Rel (AgreeTo n) ((ps.find? fun p => p.1.sameKey key).map Prod.snd)
      ((qs.find? fun p => p.1.sameKey key).map Prod.snd) := by
  induction h with
  | nil => exact .none
  | cons hp _ ih =>
    rw [List.find?_cons, List.find?_cons, sameKey_congr hp.1.sameKind (.same key)]
    split
    · exact .some hp.2
    · exact ih

/-- So the values of a key agree one level below. -/
theorem get?_congr (h : AgreeTo (n + 1) v w) (key : String) :
    Option.Rel (AgreeTo n) (v.get? key) (w.get? key) :=
  find?_congr (pairs_congr h) _

theorem mapM_plainText?_congr {vs ws : List Value} (h : List.Forall₂ (AgreeTo n) vs ws) :
    vs.mapM plainText? = ws.mapM plainText? := by
  induction h with
  | nil => rfl
  | cons hab _ ih => rw [List.mapM_cons, List.mapM_cons, ih, plainText?_congr hab.sameKind]

/-- Only the kinds of its items count for the texts of a list. -/
theorem texts_congr (h : AgreeTo (n + 1) v w) : v.texts = w.texts := by
  cases h with
  | same => rfl
  | list h => rw [texts, texts, mapM_plainText?_congr h]
  | pair | mapping | set => rfl

/-- Whether something is nothing is seen at once. -/
theorem isNothing_congr (h : AgreeTo (n + 1) v w) : v.isNothing = w.isNothing := by
  cases h with
  | same | pair => rfl
  | list h => cases h <;> rfl
  | mapping h => cases h <;> rfl
  | set h => cases h <;> rfl

/-- Folds over pairs that are alike. -/
theorem foldlM_pairs_congr {α : Type} {f : α → Value × Value → Except Fault α}
    {ps qs : List (Value × Value)} (h : AlikePairs (AgreeTo n) ps qs)
    (hf : ∀ acc p q, AgreeTo n p.1 q.1 → AgreeTo n p.2 q.2 → f acc p = f acc q) (acc : α) :
    ps.foldlM f acc = qs.foldlM f acc := by
  induction h generalizing acc with
  | nil => rfl
  | cons hp _ ih =>
    rw [List.foldlM_cons, List.foldlM_cons, hf acc _ _ hp.1 hp.2]
    exact bind_congr ih

end Parts

end Yaml.Value

/-! ## Configurations -/

namespace Config

open Yaml.Value

variable {n : Nat} {v w : Yaml.Value}

theorem part_congr (h : AgreeTo (n + 1) v w) (key : String) :
    AgreeTo n (part v key) (part w key) := by
  have hvalue := get?_congr h key
  unfold part
  generalize v.get? key = a, w.get? key = b at hvalue ⊢
  cases hvalue with
  | none => exact .refl n _
  | some h => exact h

theorem listOr_congr (h : AgreeTo (n + 2) v w) (key : String) (default : List String) :
    listOr v key default = listOr w key default := by
  have hvalue := get?_congr h key
  unfold listOr
  generalize v.get? key = a, w.get? key = b at hvalue ⊢
  cases hvalue with
  | none => rfl
  | some h => exact texts_congr h

theorem textOr_congr (h : AgreeTo (n + 1) v w) (key default : String) :
    textOr v key default = textOr w key default := by
  rw [textOr, textOr, plainText?_congr (part_congr h key).sameKind]

theorem textTable_congr (h : AgreeTo (n + 1) v w) : textTable v = textTable w := by
  refine foldlM_pairs_congr (pairs_congr h) (fun table p q hkey hvalue => ?_) []
  dsimp only
  rw [plainText?_congr hvalue.sameKind, keyText_congr hkey.sameKind]

theorem childrenOr_congr (h : AgreeTo (n + 3) v w) (key : String)
    (default : List (String × List (String × String))) :
    childrenOr v key default = childrenOr w key default := by
  have hvalue := get?_congr h key
  unfold childrenOr
  generalize v.get? key = a, w.get? key = b at hvalue ⊢
  cases hvalue with
  | none => rfl
  | some h =>
    refine foldlM_pairs_congr (pairs_congr h) (fun table p q hkey hvalue => ?_) []
    dsimp only
    rw [textTable_congr hvalue, keyText_congr hkey.sameKind]

theorem overrideOf_congr (h : AgreeTo (n + 2) v w) : overrideOf v = overrideOf w := by
  simp only [overrideOf, texts_congr (part_congr h _)]

theorem policyOf_congr (h : AgreeTo (n + 4) v w) : policyOf v = policyOf w := by
  have hoverrides := pairs_congr (part_congr h "component_overrides")
  unfold policyOf
  rw [foldlM_pairs_congr hoverrides fun table p q hkey hvalue => ?_]
  · simp only [listOr_congr h]
  · dsimp only
    rw [overrideOf_congr hvalue, keyText_congr hkey.sameKind]

theorem inheritanceOf_congr (h : AgreeTo (n + 2) v w) : inheritanceOf v = inheritanceOf w := by
  simp only [inheritanceOf, listOr_congr h, textOr_congr h]

theorem namesOf_congr (h : AgreeTo (n + 2) v w) : namesOf v = namesOf w := by
  simp only [namesOf, listOr_congr h, textOr_congr h]

theorem manualOf_congr (h : AgreeTo (n + 3) v w) : manualOf v = manualOf w := by
  have hpages (pages : List (String × List String)) :
      addPages pages (part v "paths").pairs = addPages pages (part w "paths").pairs := by
    refine foldlM_pairs_congr (pairs_congr (part_congr h "paths"))
      (fun table p q hkey hvalue => ?_) pages
    dsimp only
    rw [texts_congr hvalue, keyText_congr hkey.sameKind]
  simp only [manualOf, textOr_congr h, hpages]

/-- **Values that agree to five levels spell the same configuration.** -/
theorem ofValue_congr (h : AgreeTo (n + 5) v w) : ofValue v = ofValue w := by
  have hcomponents := part_congr h "components"
  simp only [ofValue, listOr_congr hcomponents, textTable_congr (part_congr hcomponents _),
    childrenOr_congr hcomponents, policyOf_congr (part_congr h _),
    inheritanceOf_congr (part_congr h _), namesOf_congr (part_congr h _),
    manualOf_congr (part_congr h _)]

/-- **A configuration does not depend on the number of levels that are looked at**, nor does
whether there is one. -/
theorem ofValue_ofObject (objects : Array (Option Yaml.Object)) (root : Nat) {depth : Nat}
    (h : depthLimit ≤ depth) :
    ofValue (ofObject objects depth root) = ofValue (ofObject objects depthLimit root) ∧
      (ofObject objects depth root).isNothing = (ofObject objects depthLimit root).isNothing ∧
      ((∃ pairs, ofObject objects depth root = .mapping pairs) ↔
        ∃ pairs, ofObject objects depthLimit root = .mapping pairs) := by
  obtain ⟨more, rfl⟩ := Nat.exists_eq_add_of_le h
  have hagree := agreeTo_ofObject objects 7 more root
  rw [Nat.add_right_comm] at hagree
  refine ⟨(ofValue_congr hagree).symm, (isNothing_congr hagree).symm, ?_⟩
  change AgreeTo 7 (ofObject objects depthLimit root) (ofObject objects (depthLimit + more) root)
    at hagree
  generalize ofObject objects depthLimit root = v at hagree ⊢
  generalize ofObject objects (depthLimit + more) root = w at hagree ⊢
  cases hagree with
  | same => exact .rfl
  | mapping => exact ⟨fun _ => ⟨_, rfl⟩, fun _ => ⟨_, rfl⟩⟩
  | list | pair | set => exact ⟨nofun, nofun⟩

end Config

end ComponentCatalog
