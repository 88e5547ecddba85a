/-
# Theory.Relay — a worker that takes items one at a time and settles each

The log of a worker lists the items it takes and what becomes of them.  `InOrder log hand`
says that it settled exactly what it took, in that order and each once, but for the item in
hand.  Taking needs an empty hand, settling the item in it; so a loop that does nothing else
keeps it (`InOrder.take`, `InOrder.settle`).
-/
import Mathlib.Init

namespace Portal.Theory.Relay

set_option autoImplicit false

universe u v w

/-- An item is taken, or the one in hand is settled. -/
inductive Turn (α : Type u) (φ : Type v) where
  | took (item : α)
  | settled (item : α) (fate : φ)

variable {α : Type u} {φ : Type v}

def Turn.item? : Turn α φ → Option α
  | .took item => some item
  | .settled _ _ => none

def Turn.outcome? : Turn α φ → Option (α × φ)
  | .took _ => none
  | .settled item fate => some (item, fate)

/-- The items taken, in order. -/
def taken (log : List (Turn α φ)) : List α := log.filterMap Turn.item?

/-- The items settled and what became of them, in order. -/
def outcomes (log : List (Turn α φ)) : List (α × φ) := log.filterMap Turn.outcome?

/-- What was taken was settled in the same order, but for the item in hand. -/
def InOrder (log : List (Turn α φ)) (hand : Option α) : Prop :=
  taken log = (outcomes log).map Prod.fst ++ hand.toList

variable {log : List (Turn α φ)} {item : α}

@[simp] theorem taken_took (log : List (Turn α φ)) (item : α) :
    taken (log ++ [.took item]) = taken log ++ [item] := by
  simp [taken, Turn.item?]

@[simp] theorem taken_settled (log : List (Turn α φ)) (item : α) (fate : φ) :
    taken (log ++ [.settled item fate]) = taken log := by
  simp [taken, Turn.item?]

@[simp] theorem outcomes_took (log : List (Turn α φ)) (item : α) :
    outcomes (log ++ [.took item]) = outcomes log := by
  simp [outcomes, Turn.outcome?]

@[simp] theorem outcomes_settled (log : List (Turn α φ)) (item : α) (fate : φ) :
    outcomes (log ++ [.settled item fate]) = outcomes log ++ [(item, fate)] := by
  simp [outcomes, Turn.outcome?]

theorem inOrder_nil : InOrder ([] : List (Turn α φ)) none := rfl

theorem InOrder.take (order : InOrder log none) (item : α) :
    InOrder (log ++ [.took item]) (some item) := by
  unfold InOrder at order ⊢
  rw [taken_took, outcomes_took, order]
  simp

theorem InOrder.settle (order : InOrder log (some item)) (fate : φ) :
    InOrder (log ++ [.settled item fate]) none := by
  unfold InOrder at order ⊢
  rw [taken_settled, outcomes_settled, order]
  simp

end Portal.Theory.Relay
