/-
# Theory.Replay — what is left after a list of changes

A change puts one element in or takes it out, and `replay` makes a list of them one
after the other.  What has less in it before has less in it afterwards (`replay_mono`), and
changes that only take out, and take out everything there is, leave nothing in whatever
order they come (`replay_cleared`).  `interleave` is the order two writers make together.
-/
import Mathlib.Logic.Function.Basic

namespace Portal.Theory.Replay

set_option autoImplicit false

universe u v

variable {ι : Type u} [DecidableEq ι]

/-- The changes of a list, made in its order. -/
def replay (v : ι → Bool) (changes : List (ι × Bool)) : ι → Bool :=
  changes.foldl (fun v change => Function.update v change.1 change.2) v

theorem replay_cons (v : ι → Bool) (change : ι × Bool) (changes : List (ι × Bool)) :
    replay v (change :: changes) = replay (Function.update v change.1 change.2) changes := rfl

theorem replay_single (v : ι → Bool) (x : ι) (b : Bool) : replay v [(x, b)] = Function.update v x b := rfl

theorem replay_append (v : ι → Bool) (first second : List (ι × Bool)) :
    replay v (first ++ second) = replay (replay v first) second := List.foldl_append

/-- Everything in the first is in the second. -/
def Within (v w : ι → Bool) : Prop := ∀ x, v x = true → w x = true

theorem replay_mono {v w : ι → Bool} (within : Within v w) (changes : List (ι × Bool)) :
    Within (replay v changes) (replay w changes) := by
  induction changes generalizing v w with
  | nil => exact within
  | cons change changes ih =>
      rw [replay_cons, replay_cons]
      refine ih fun x inside => ?_
      by_cases same : x = change.1
      · subst same
        rw [Function.update_self] at inside ⊢
        exact inside
      · rw [Function.update_of_ne same] at inside ⊢
        exact within x inside

/-- What is left after changes that only take out. -/
theorem replay_removed {v : ι → Bool} {changes : List (ι × Bool)}
    (removals : ∀ change ∈ changes, change.2 = false) {x : ι} (left : replay v changes x = true) :
    v x = true ∧ (x, false) ∉ changes := by
  induction changes generalizing v with
  | nil => exact ⟨left, List.not_mem_nil⟩
  | cons change changes ih =>
      rw [replay_cons] at left
      obtain ⟨inside, later⟩ := ih (fun c member => removals c (List.mem_cons_of_mem _ member)) left
      have removed := removals change (List.mem_cons_self ..)
      have other : x ≠ change.1 := by
        rintro rfl
        rw [Function.update_self, removed] at inside
        cases inside
      rw [Function.update_of_ne other] at inside
      refine ⟨inside, fun member => ?_⟩
      rcases List.mem_cons.mp member with first | rest
      · exact other (congrArg Prod.fst first)
      · exact later rest

/-- **Nothing is left** when everything there is is taken out. -/
theorem replay_cleared {v : ι → Bool} {changes : List (ι × Bool)}
    (removals : ∀ change ∈ changes, change.2 = false)
    (all : ∀ x, v x = true → (x, false) ∈ changes) (x : ι) : replay v changes x = false := by
  refine Bool.eq_false_iff.mpr fun left => ?_
  obtain ⟨inside, kept⟩ := replay_removed removals left
  exact kept (all x inside)

/-! ## Two writers -/

section Interleave

variable {α : Type v}

/-- What two writers write, each in its order: `turns` says whose turn it is, until one
of them has finished. -/
def interleave : List Bool → List α → List α → List α
  | true :: turns, x :: left, right => x :: interleave turns left right
  | false :: turns, left, y :: right => y :: interleave turns left right
  | _, left, right => left ++ right

theorem mem_interleave {turns : List Bool} {left right : List α} {x : α} :
    x ∈ interleave turns left right ↔ x ∈ left ∨ x ∈ right := by
  induction turns, left, right using interleave.induct with
  | case1 turns y left right ih => rw [interleave, List.mem_cons, ih, List.mem_cons, or_assoc]
  | case2 turns left y right ih =>
      rw [interleave, List.mem_cons, ih, List.mem_cons, or_left_comm]
  | case3 turns left right first second => rw [interleave, List.mem_append] <;> assumption

end Interleave

end Portal.Theory.Replay
