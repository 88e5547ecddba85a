/-
# Theory.PartialMap — finite maps as partial functions

A map is a function into `Option`, written with `Function.update`; deleting a key
writes `none`.  `update_some` reads an entry back: it is the one just written, or an
older one under another key.  `update_keep` goes the other way: what some entry has, it
still has after a write that keeps it.
-/
import Mathlib.Logic.Function.Basic

namespace Portal.Theory.PartialMap

set_option autoImplicit false

universe u v

variable {κ : Type u} {α : Type v} [DecidableEq κ] {f : κ → Option α} {k k' : κ} {v : Option α}
  {x : α}

/-- An entry found under `k'` after a write of `v` under `k`. -/
theorem update_some (found : Function.update f k v k' = some x) :
    (k' = k ∧ v = some x) ∨ (k' ≠ k ∧ f k' = some x) := by
  by_cases same : k' = k
  · subst same
    rw [Function.update_self] at found
    exact .inl ⟨rfl, found⟩
  · rw [Function.update_of_ne same] at found
    exact .inr ⟨same, found⟩

/-- What is left after a deletion was there before, under another key. -/
theorem erase_some (found : Function.update f k none k' = some x) : k' ≠ k ∧ f k' = some x := by
  rcases update_some found with ⟨-, none_⟩ | before
  · cases none_
  · exact before

/-- A property of an entry survives an overwriting that keeps it. -/
theorem update_keep {P : α → Prop} {old new : α} (entry : f k = some old) (found : f k' = some x)
    (holds : P x) (kept : P old → P new) :
    ∃ y, Function.update f k (some new) k' = some y ∧ P y := by
  by_cases same : k' = k
  · subst same
    cases entry.symm.trans found
    exact ⟨new, Function.update_self .., kept holds⟩
  · exact ⟨x, (Function.update_of_ne same ..).trans found, holds⟩

/-- Every entry survives a write under a free key. -/
theorem update_free (free : f k = none) (found : f k' = some x) :
    Function.update f k v k' = some x := by
  have other : k' ≠ k := by
    rintro rfl
    cases free.symm.trans found
  rw [Function.update_of_ne other, found]

end Portal.Theory.PartialMap
