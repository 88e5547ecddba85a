/-
# Theory.Tally — counting who holds what in a list whose entries change one at a time

Each entry of a list holds at most one `b` (`f a : Option β`).  `tally f l b` is
how many entries hold `b`, as an integer, and `unit x b` what one holding adds
to it.  Replacing one entry moves the tally by the two units
(`tally_set`), appending one adds its unit (`tally_append`).

On the other side stand counters that are adjusted by lists of deltas
(`credit`); a list moves the counter of `b` by its `total` at `b`
(`foldl_credit`).  Where the totals are the differences of units, the counters
stay equal to the tally.

Counters with weights are proportional if nobody is ahead of another by more than one
unit (`Proportional`).  Crediting a counter that has the least share keeps them so
(`Proportional.credit`).
-/
import Mathlib.Logic.Function.Basic
import Mathlib.Tactic.Linarith
import Mathlib.Tactic.Ring

namespace Portal.Theory

set_option autoImplicit false

variable {α β : Type} [DecidableEq β]

/-- What an entry that holds `x` adds to the count of `b`. -/
def unit (x : Option β) (b : β) : Int := if x = some b then 1 else 0

/-- The number of entries that hold `b`. -/
def tally (f : α → Option β) (l : List α) (b : β) : Int :=
  (l.countP fun a => decide (f a = some b) : Nat)

@[simp] theorem unit_none (b : β) : unit none b = 0 := rfl

@[simp] theorem unit_some (b : β) : unit (some b) b = 1 := if_pos rfl

theorem unit_nonneg (x : Option β) (b : β) : 0 ≤ unit x b := by
  unfold unit
  split <;> omega

theorem tally_append (f : α → Option β) (l : List α) (a : α) (b : β) :
    tally f (l ++ [a]) b = tally f l b + unit (f a) b := by
  unfold tally unit
  rw [List.countP_append, List.countP_singleton]
  by_cases holds : f a = some b <;> simp [holds]

/-- Replacing entry `k` moves the tally by the difference of the two units. -/
theorem tally_set (f : α → Option β) {l : List α} {k : Nat} {a : α} (found : l[k]? = some a)
    (a' : α) (b : β) : tally f (l.set k a') b = tally f l b - unit (f a) b + unit (f a') b := by
  obtain ⟨bound, rfl⟩ := List.getElem?_eq_some_iff.mp found
  have counted : (if decide (f l[k] = some b) = true then 1 else 0) ≤
      l.countP fun a => decide (f a = some b) :=
    List.boole_getElem_le_countP (p := fun a => decide (f a = some b)) bound
  unfold tally unit
  rw [List.countP_set bound]
  by_cases old : f l[k] = some b <;> by_cases new : f a' = some b <;>
    simp only [old, new, decide_true, decide_false, if_true, if_false, Bool.false_eq_true] at counted ⊢ <;>
    omega

/-- Add `d.2` to the counter of `d.1`. -/
def credit (count : β → Int) (d : β × Int) : β → Int :=
  Function.update count d.1 (count d.1 + d.2)

/-- What a list of deltas adds to the counter of `b`. -/
def total (ds : List (β × Int)) (b : β) : Int := (ds.map fun d => if d.1 = b then d.2 else 0).sum

theorem foldl_credit (ds : List (β × Int)) (count : β → Int) (b : β) :
    ds.foldl credit count b = count b + total ds b := by
  induction ds generalizing count with
  | nil => simp [total]
  | cons d ds ih =>
      rw [List.foldl_cons, ih]
      simp only [total, List.map_cons, List.sum_cons, credit, Function.update_apply]
      by_cases same : b = d.1
      · subst same
        simp only [if_true]
        ring
      · simp [same, Ne.symm same]

/-! ## Proportional counters -/

/-- Without its last unit, no counter of the pool has a greater share than another one:
`(count i - 1) / weight i ≤ count j / weight j`. -/
def Proportional (weight : β → Nat) (pool : β → Prop) (count : β → Int) : Prop :=
  ∀ i j, pool i → pool j → (count i - 1) * weight j ≤ count j * weight i

omit [DecidableEq β] in
theorem proportional_zero (weight : β → Nat) (pool : β → Prop) :
    Proportional weight pool fun _ => 0 := by
  intro i j _ _
  show ((0 : Int) - 1) * weight j ≤ 0 * weight i
  have nonneg : (0 : Int) ≤ weight j := Int.natCast_nonneg _
  linarith

/-- One more for a counter with the least share. -/
theorem Proportional.credit {weight : β → Nat} {pool : β → Prop} {count : β → Int} {k : β}
    (proportional : Proportional weight pool count)
    (least : ∀ j, pool j → count k * weight j ≤ count j * weight k) :
    Proportional weight pool (credit count (k, 1)) := by
  intro i j in_i in_j
  unfold Theory.credit
  by_cases own_i : i = k <;> by_cases own_j : j = k
  · subst own_i own_j
    rw [Function.update_self]
    linarith
  · subst own_i
    rw [Function.update_self, Function.update_of_ne own_j, add_sub_cancel_right]
    exact least j in_j
  · subst own_j
    rw [Function.update_self, Function.update_of_ne own_i, add_mul, one_mul]
    have before := proportional i j in_i in_j
    have nonneg : (0 : Int) ≤ weight i := Int.natCast_nonneg _
    linarith
  · rw [Function.update_of_ne own_i, Function.update_of_ne own_j]
    exact proportional i j in_i in_j

end Portal.Theory
