import Mathlib.Algebra.Order.BigOperators.Group.List

/-!
# Growing lists of rows

A table that is only ever updated in place and appended to grows: every row it held
is still there, related to what it was, and every other row is a fresh one.  Growth
composes, and what it does to single rows bounds what it does to sums over the table.
-/

namespace Growth

variable {α : Type*}

/-- The second list holds a related version of every row of the first, in order,
followed by fresh rows. -/
inductive Grows (related : α → α → Prop) (fresh : α → Prop) : List α → List α → Prop where
  | added {rows : List α} (news : ∀ row ∈ rows, fresh row) : Grows related fresh [] rows
  | kept {row row' : α} {rows rows' : List α} (relates : related row row')
      (rest : Grows related fresh rows rows') :
      Grows related fresh (row :: rows) (row' :: rows')

namespace Grows

variable {related : α → α → Prop} {fresh : α → Prop}
variable {before middle after : List α}

theorem map (rows : List α) (change : α → α)
    (relates : ∀ row ∈ rows, related row (change row)) :
    Grows related fresh rows (rows.map change) := by
  induction rows with
  | nil => exact .added (by simp)
  | cons row rows ih =>
      exact .kept (relates row (by simp))
        (ih fun row member => relates row (List.mem_cons_of_mem _ member))

theorem refl (reflexive : ∀ row, related row row) (rows : List α) :
    Grows related fresh rows rows := by
  have grows : Grows related fresh rows (rows.map id) :=
    map rows id fun row _ => reflexive row
  rwa [List.map_id] at grows

theorem append (reflexive : ∀ row, related row row) (rows : List α) {row : α}
    (isFresh : fresh row) : Grows related fresh rows (rows ++ [row]) := by
  induction rows with
  | nil => exact .added (by simpa)
  | cons row rows ih => exact .kept (reflexive row) ih

/-- What grows out of fresh rows is fresh. -/
private theorem fresh_of_fresh (keeps : ∀ a b, related a b → fresh a → fresh b)
    (grows : Grows related fresh before after) (news : ∀ row ∈ before, fresh row) :
    ∀ row ∈ after, fresh row := by
  induction grows with
  | added news' => exact news'
  | kept relates _ ih =>
      intro row member
      rcases List.mem_cons.mp member with rfl | earlier
      · exact keeps _ _ relates (news _ (by simp))
      · exact ih (fun row member => news row (List.mem_cons_of_mem _ member)) row earlier

theorem trans (transitive : ∀ a b c, related a b → related b c → related a c)
    (keeps : ∀ a b, related a b → fresh a → fresh b)
    (first : Grows related fresh before middle)
    (second : Grows related fresh middle after) : Grows related fresh before after := by
  induction first generalizing after with
  | added news => exact .added (fresh_of_fresh keeps second news)
  | kept relates _ ih =>
      cases second with
      | kept relates' rest' => exact .kept (transitive _ _ _ relates relates') (ih rest')

theorem mono {related' : α → α → Prop} {fresh' : α → Prop}
    (relates : ∀ a b, related a b → related' a b) (isFresh : ∀ a, fresh a → fresh' a)
    (grows : Grows related fresh before after) : Grows related' fresh' before after := by
  induction grows with
  | added news => exact .added fun row member => isFresh _ (news row member)
  | kept relation _ ih => exact .kept (relates _ _ relation) ih

theorem forward (grows : Grows related fresh before after) {row : α}
    (member : row ∈ before) : ∃ row' ∈ after, related row row' := by
  induction grows with
  | added => simp at member
  | kept relates _ ih =>
      rcases List.mem_cons.mp member with rfl | inside
      · exact ⟨_, by simp, relates⟩
      · obtain ⟨row', member', relation⟩ := ih inside
        exact ⟨row', List.mem_cons_of_mem _ member', relation⟩

/-- A weight that no related row exceeds and that fresh rows do not have bounds the
weight of the whole list. -/
theorem sum_le {M : Type*} [AddCommMonoid M] [PartialOrder M] [IsOrderedAddMonoid M]
    {weight : α → M} (lighter : ∀ a b, related a b → weight b ≤ weight a)
    (weightless : ∀ a, fresh a → weight a = 0)
    (grows : Grows related fresh before after) :
    (after.map weight).sum ≤ (before.map weight).sum := by
  induction grows with
  | added news =>
      apply le_of_eq
      simp only [List.map_nil, List.sum_nil]
      apply List.sum_eq_zero
      intro value member
      obtain ⟨row, inside, rfl⟩ := List.mem_map.mp member
      exact weightless row (news row inside)
  | kept relates _ ih =>
      simp only [List.map_cons, List.sum_cons]
      exact add_le_add (lighter _ _ relates) ih

end Grows

end Growth
