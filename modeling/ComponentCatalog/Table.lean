/-!
# Tables

A table is a list of pairs of a name and a value, in the order in which the names
were first given.
-/

namespace ComponentCatalog

/-- A table with a value for a key: in place of the one it has, or at its end. -/
def putKey {α : Type} (key : String) (value : α) : List (String × α) → List (String × α)
  | [] => [(key, value)]
  | (k, v) :: rest => if k == key then (k, value) :: rest else (k, v) :: putKey key value rest

theorem lookup_putKey {α : Type} (key : String) (value : α) (table : List (String × α))
    (k : String) :
    (putKey key value table).lookup k = if k == key then some value else table.lookup k := by
  induction table with
  | nil => rw [putKey, List.lookup_cons]; cases k == key <;> rfl
  | cons e table ih =>
    obtain ⟨k', v'⟩ := e
    rw [putKey]
    by_cases h : k' = key
    · subst h
      rw [if_pos (beq_self_eq_true k'), List.lookup_cons, List.lookup_cons]
      cases k == k' <;> rfl
    · rw [if_neg (by simpa using h), List.lookup_cons, List.lookup_cons, ih]
      by_cases hk : k = k'
      · subst hk
        simp [h]
      · simp [beq_eq_false_iff_ne.2 hk]

end ComponentCatalog
