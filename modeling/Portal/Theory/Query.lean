/-
# Theory.Query — programs that read shared registers one at a time

A `Query Q R α` computes an `α` and may ask registers `q : Q` for their value
`R q` on the way.  It is the resumption of a goroutine in the middle of a
computation whose reads are separate atomic loads: a scheduler feeds it one
answer at a time, and between two answers anything else may happen.

`eval env` answers every read from one unchanging `env`.  Answering one read from
`env` does not change it, so a computation all of whose reads were answered from
`env` ends in `eval env` of what it started as, however the answers were spread
over time.  `Every P` says that it ends in a result with `P` whatever the answers
are.
-/
import Mathlib.Init

namespace Portal.Theory

set_option autoImplicit false

/-- A computation that asks for the values of registers. -/
inductive Query (Q : Type) (R : Q → Type) (α : Type) where
  | pure (a : α)
  | ask (q : Q) (k : R q → Query Q R α)

namespace Query

variable {Q : Type} {R : Q → Type} {α β : Type}

protected def bind : Query Q R α → (α → Query Q R β) → Query Q R β
  | .pure a, f => f a
  | .ask q k, f => .ask q fun r => (k r).bind f

instance : Monad (Query Q R) where
  pure := Query.pure
  bind := Query.bind

protected theorem map_id (x : Query Q R α) : id <$> x = x := by
  induction x with
  | pure a => rfl
  | ask q k ih => exact congrArg (Query.ask q) (funext ih)

protected theorem bind_assoc {γ : Type} (x : Query Q R α) (f : α → Query Q R β)
    (g : β → Query Q R γ) : x >>= f >>= g = x >>= fun a => f a >>= g := by
  induction x with
  | pure a => rfl
  | ask q k ih => exact congrArg (Query.ask q) (funext ih)

instance : LawfulMonad (Query Q R) :=
  LawfulMonad.mk' (Query Q R) Query.map_id (fun _ _ => rfl) Query.bind_assoc

/-- Read one register. -/
def load (q : Q) : Query Q R (R q) := .ask q .pure

/-- The result when every read is answered from `env`. -/
def eval (env : (q : Q) → R q) : Query Q R α → α
  | .pure a => a
  | .ask q k => (k (env q)).eval env

section Eval

variable (env : (q : Q) → R q)

@[simp] theorem eval_pure (a : α) : (Pure.pure a : Query Q R α).eval env = a := rfl

@[simp] theorem eval_load (q : Q) : (load q : Query Q R (R q)).eval env = env q := rfl

@[simp] theorem eval_bind (x : Query Q R α) (f : α → Query Q R β) :
    (x >>= f).eval env = (f (x.eval env)).eval env := by
  induction x with
  | pure a => rfl
  | ask q k ih => exact ih (env q)

@[simp] theorem eval_map (f : α → β) (x : Query Q R α) : (f <$> x).eval env = f (x.eval env) :=
  eval_bind env x fun a => .pure (f a)

@[simp] theorem eval_mapM (f : α → Query Q R β) (xs : List α) :
    (xs.mapM f).eval env = xs.map fun a => (f a).eval env := by
  induction xs with
  | nil => rfl
  | cons a xs ih => simp [ih]

end Eval

/-- Whatever the reads are answered, the result has `P`. -/
def Every (P : α → Prop) : Query Q R α → Prop
  | .pure a => P a
  | .ask q k => ∀ r : R q, (k r).Every P

theorem every_bind {P : β → Prop} (x : Query Q R α) {f : α → Query Q R β}
    (each : ∀ a, (f a).Every P) : (x >>= f).Every P := by
  induction x with
  | pure a => exact each a
  | ask q k ih => exact ih

theorem every_map {P : β → Prop} (f : α → β) (x : Query Q R α) (each : ∀ a, P (f a)) :
    (f <$> x).Every P :=
  every_bind x each

end Query

end Portal.Theory
