/-
# Theory.Transition — machines that take one action at a time, and what their runs keep

A `Machine` has one start state and a partial step: `next s a` is the state
after action `a`, or `none` where `a` cannot be taken.  Goroutines that
interleave are actions of one machine, so "any interleaving" is "any run".

`Reach m ok s` says a run of `m` leads to `s` and every step of it met `ok` in
the state it was taken in.  `Reachable` is the unrestricted case.

* `Reach.invariant`: what the start state has and every step keeps, every
  state reached has.
* `Reach.exec`: a list of actions that executes extends a run, so a concrete
  schedule is evidence that its last state is reached (`exec_reach`).
* `record`: the machine that also lists what its steps emit.  The list changes no
  step, so a run of it is a run of the machine (`Reach.erase`).
-/
import Mathlib.Init

namespace Portal.Theory.Transition

set_option autoImplicit false

universe u v w

/-- A start state and a partial step. -/
structure Machine (σ : Type u) (α : Type v) where
  start : σ
  next : σ → α → Option σ

namespace Machine

variable {σ : Type u} {α : Type v} (m : Machine σ α)

/-- The states a run leads to when each of its steps meets `ok` where it is
taken. -/
inductive Reach (ok : σ → α → Prop) : σ → Prop
  | start : Reach ok m.start
  | step {s s' : σ} {a : α} (before : Reach ok s) (meets : ok s a)
      (taken : m.next s a = some s') : Reach ok s'

/-- The states some run leads to. -/
def Reachable (s : σ) : Prop := m.Reach (fun _ _ => True) s

/-- Take the actions of a list in order, checking `ok` before each; `none` once
one of them cannot be taken or does not meet it. -/
def exec (ok : σ → α → Prop) [∀ s a, Decidable (ok s a)] (s : σ) : List α → Option σ
  | [] => some s
  | a :: rest => if ok s a then (m.next s a).bind fun s' => exec ok s' rest else none

variable {m} {ok ok' : σ → α → Prop}

/-- **The invariant rule.** -/
theorem Reach.invariant {I : σ → Prop} {s : σ} (reached : m.Reach ok s) (initial : I m.start)
    (keep : ∀ s s' a, m.Reach ok s → I s → ok s a → m.next s a = some s' → I s') : I s := by
  induction reached with
  | start => exact initial
  | step before meets taken ih => exact keep _ _ _ before ih meets taken

/-- A schedule whose first action can be taken goes on from the state after it. -/
theorem exec_cons [∀ s a, Decidable (ok s a)] {s s' : σ} {a : α} (meets : ok s a)
    (taken : m.next s a = some s') (rest : List α) :
    m.exec ok s (a :: rest) = m.exec ok s' rest := by
  rw [exec, if_pos meets, taken]
  rfl

/-- A schedule that executes under a stronger condition extends a run. -/
theorem Reach.exec [∀ s a, Decidable (ok' s a)] {s s' : σ} (before : m.Reach ok s)
    (stronger : ∀ s a, ok' s a → ok s a) (actions : List α)
    (executed : m.exec ok' s actions = some s') : m.Reach ok s' := by
  induction actions generalizing s with
  | nil =>
      simp only [Machine.exec, Option.some.injEq] at executed
      exact executed ▸ before
  | cons a rest ih =>
      simp only [Machine.exec] at executed
      split at executed
      · rename_i meets
        obtain ⟨middle, taken, executed⟩ := Option.bind_eq_some_iff.mp executed
        exact ih (.step before (stronger _ _ meets) taken) executed
      · cases executed

/-- A schedule that executes is a run. -/
theorem exec_reach [∀ s a, Decidable (ok s a)] {s : σ} (actions : List α)
    (executed : m.exec ok m.start actions = some s) : m.Reach ok s :=
  Reach.start.exec (fun _ _ meets => meets) actions executed

/-! ## Recording -/

variable {ε : Type w} {emit : σ → α → List ε}

/-- The machine beside a list of everything its steps emit. -/
def record (m : Machine σ α) (emit : σ → α → List ε) : Machine (σ × List ε) α where
  start := (m.start, [])
  next := fun (s, log) a => (m.next s a).map fun s' => (s', log ++ emit s a)

theorem record_next {p p' : σ × List ε} {a : α} (taken : (m.record emit).next p a = some p') :
    m.next p.1 a = some p'.1 ∧ p'.2 = p.2 ++ emit p.1 a := by
  simp only [record, Option.map_eq_some_iff] at taken
  obtain ⟨s', taken, rfl⟩ := taken
  exact ⟨taken, rfl⟩

theorem Reach.erase {p : σ × List ε} (reached : (m.record emit).Reach (fun p a => ok p.1 a) p) :
    m.Reach ok p.1 :=
  reached.invariant (I := fun p => m.Reach ok p.1) .start
    fun _ _ _ _ before meets taken => .step before meets (record_next taken).1

/-- The same where the steps may depend on the list. -/
theorem Reach.unrecorded {ok : σ × List ε → α → Prop} {p : σ × List ε}
    (reached : (m.record emit).Reach ok p) : m.Reachable p.1 := by
  refine reached.invariant (I := fun p : σ × List ε => m.Reachable p.1) .start ?_
  intro p p' a _ before _ taken
  exact .step before trivial (record_next taken).1

end Machine

end Portal.Theory.Transition
