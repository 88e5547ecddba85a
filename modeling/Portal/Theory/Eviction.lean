/-
# Theory.Eviction — records that are dropped once they no longer matter

A store keeps at most one record per key.  A call on a key reads the time and the record
of that key and nothing else; it leaves a record and may answer.  A `Cell` is this
behaviour for one key, with the records that are `stale`: from some time on every call
treats them as if there were no record.

In a `Run` of a store, stale records of any keys may be dropped at any time: by a call on
another key, or by none.  `alone` answers the calls on one key and never drops anything.
While time does not run backwards the two cannot be told apart (`Run.answersOf_eq_alone`).
The relation that carries it is `Forgot`: the store still has the record kept, or has
dropped it when it was stale.
-/
import Mathlib.Logic.Function.Basic

namespace Portal.Theory.Eviction

set_option autoImplicit false

universe u

variable {κ τ ι ω ρ : Type u}

/-! ## Calls and answers -/

/-- Something that happens in the store: a call on a key, or only dropping. -/
structure Event (κ τ ι : Type u) where
  time : τ
  call : Option (κ × ι)

section

variable [DecidableEq κ]

/-- The calls on one key. -/
def own (key : κ) (events : List (Event κ τ ι)) : List (τ × ι) :=
  events.filterMap fun e => e.call.bind fun (k, call) => if k = key then some (e.time, call) else none

theorem own_cons_self (key : κ) (now : τ) (call : ι) (rest : List (Event κ τ ι)) :
    own key (⟨now, some (key, call)⟩ :: rest) = (now, call) :: own key rest := by
  simp [own]

theorem own_cons_other {key other : κ} (apart : other ≠ key) (now : τ) (call : ι)
    (rest : List (Event κ τ ι)) : own key (⟨now, some (other, call)⟩ :: rest) = own key rest := by
  simp [own, apart]

theorem own_cons_none (key : κ) (now : τ) (rest : List (Event κ τ ι)) :
    own key (⟨now, none⟩ :: rest) = own key rest := rfl

/-- The answers for one key. -/
def answersOf (key : κ) (out : List (κ × ω)) : List ω :=
  out.filterMap fun (k, answer) => if k = key then some answer else none

theorem answersOf_append (key : κ) (first second : List (κ × ω)) :
    answersOf key (first ++ second) = answersOf key first ++ answersOf key second :=
  List.filterMap_append

theorem answersOf_own (key : κ) (answers : List ω) :
    answersOf key (answers.map (Prod.mk key)) = answers := by
  induction answers with
  | nil => rfl
  | cons answer answers ih =>
      have first : answersOf key ((key, answer) :: answers.map (Prod.mk key)) =
          answer :: answersOf key (answers.map (Prod.mk key)) := List.filterMap_cons_some (if_pos rfl)
      rw [List.map_cons, first, ih]

theorem answersOf_other {key other : κ} (apart : other ≠ key) (answers : List ω) :
    answersOf key (answers.map (Prod.mk other)) = [] := by
  induction answers with
  | nil => rfl
  | cons answer answers ih =>
      have first : answersOf key ((other, answer) :: answers.map (Prod.mk other)) =
          answersOf key (answers.map (Prod.mk other)) := List.filterMap_cons_none (if_neg apart)
      rw [List.map_cons, first, ih]

end

/-! ## The record of one key -/

variable [LE τ]

/-- What calls do to the record of one key. -/
structure Cell (τ ι ω ρ : Type u) [LE τ] where
  step : Option ρ → τ → ι → Option ρ × List ω
  stale : ρ → τ → Prop
  /-- what is stale stays so -/
  lasting : ∀ {r : ρ} {t t' : τ}, stale r t → t ≤ t' → stale r t'
  /-- a stale record answers like none -/
  silent : ∀ {r : ρ} {t : τ} (call : ι), stale r t → (step (some r) t call).2 = (step none t call).2
  /-- a stale record leaves what none leaves, unless the call leaves things as they are -/
  leaves : ∀ {r : ρ} {t : τ} (call : ι), stale r t →
    (step (some r) t call).1 = (step none t call).1 ∨
      ((step (some r) t call).1 = some r ∧ (step none t call).1 = none)

namespace Cell

variable (c : Cell τ ι ω ρ)

/-- The answers to the calls on one key, none of whose records is ever dropped. -/
def alone (c : Cell τ ι ω ρ) : Option ρ → List (τ × ι) → List ω
  | _, [] => []
  | kept, (now, call) :: rest => (c.step kept now call).2 ++ c.alone (c.step kept now call).1 rest

/-- The store has the record kept, or it has dropped it, and it was stale. -/
def Forgot (now : τ) (kept held : Option ρ) : Prop :=
  held = kept ∨ (held = none ∧ ∃ r, kept = some r ∧ c.stale r now)

variable {c} {now later : τ} {kept held : Option ρ}

theorem Forgot.mono (forgot : c.Forgot now kept held) (le : now ≤ later) :
    c.Forgot later kept held := by
  rcases forgot with same | ⟨gone, r, had, stale⟩
  · exact .inl same
  · exact .inr ⟨gone, r, had, c.lasting stale le⟩

/-- Dropping a stale record. -/
theorem Forgot.drop (forgot : c.Forgot now kept held) (stale : ∀ r, held = some r → c.stale r now) :
    c.Forgot now kept none := by
  rcases forgot with rfl | ⟨-, r, had, was⟩
  · cases held with
    | none => exact .inl rfl
    | some r => exact .inr ⟨rfl, r, rfl, stale r rfl⟩
  · exact .inr ⟨rfl, r, had, was⟩

/-- **One call** answers alike and keeps the relation. -/
theorem Forgot.step (forgot : c.Forgot now kept held) (call : ι) :
    (c.step held now call).2 = (c.step kept now call).2 ∧
      c.Forgot now (c.step kept now call).1 (c.step held now call).1 := by
  rcases forgot with rfl | ⟨rfl, r, rfl, stale⟩
  · exact ⟨rfl, .inl rfl⟩
  · refine ⟨(c.silent call stale).symm, ?_⟩
    rcases c.leaves call stale with same | ⟨left, none_⟩
    · exact .inl same.symm
    · exact .inr ⟨none_, r, left, stale⟩

end Cell

/-! ## Runs of a store -/

variable (cells : κ → Cell τ ι ω ρ)

/-- Each record is left alone, or dropped; one that is dropped is stale. -/
def Drops (now : τ) (before after : κ → Option ρ) : Prop :=
  ∀ key, after key = before key ∨
    (after key = none ∧ ∀ r, before key = some r → (cells key).stale r now)

section

variable {cells} {s s' : κ → Option ρ} {now : τ} {key : κ} {kept : Option ρ}

theorem Drops.forgot (drops : Drops cells now s s') (forgot : (cells key).Forgot now kept (s key)) :
    (cells key).Forgot now kept (s' key) := by
  rcases drops key with same | ⟨gone, stale⟩
  · rw [same]
    exact forgot
  · rw [gone]
    exact forgot.drop stale

end

variable [DecidableEq κ]

/-- From a store, what happens and what is answered to whom. -/
inductive Run : (κ → Option ρ) → List (Event κ τ ι) → List (κ × ω) → Prop
  | nil (s : κ → Option ρ) : Run s [] []
  | drop {s s' : κ → Option ρ} {now : τ} {rest : List (Event κ τ ι)} {out : List (κ × ω)}
      (drops : Drops cells now s s') (run : Run s' rest out) : Run s (⟨now, none⟩ :: rest) out
  | call {s s' : κ → Option ρ} {now : τ} {key : κ} {call : ι} {rest : List (Event κ τ ι)}
      {out : List (κ × ω)} (drops : Drops cells now s s')
      (run : Run (Function.update s' key ((cells key).step (s' key) now call).1) rest out) :
      Run s (⟨now, some (key, call)⟩ :: rest)
        (((cells key).step (s' key) now call).2.map (Prod.mk key) ++ out)

variable {cells} {s : κ → Option ρ} {key : κ} {kept : Option ρ}

/-- **What is dropped is not missed.**  By induction on the run: `Forgot` holds whenever
something happens, and the calls on other keys do not touch the record. -/
theorem Run.answersOf_eq_alone {events : List (Event κ τ ι)} {out : List (κ × ω)}
    (run : Run cells s events out) (ordered : events.Pairwise fun e later => e.time ≤ later.time)
    (forgot : ∀ e ∈ events, (cells key).Forgot e.time kept (s key)) :
    answersOf key out = (cells key).alone kept (own key events) := by
  induction run generalizing kept with
  | nil s => rfl
  | drop drops run ih =>
      obtain ⟨after, ordered⟩ := List.pairwise_cons.mp ordered
      have dropped := drops.forgot (forgot _ List.mem_cons_self)
      exact ih ordered fun e in_ => dropped.mono (after e in_)
  | @call s s' now other call rest out drops run ih =>
      obtain ⟨after, ordered⟩ := List.pairwise_cons.mp ordered
      have dropped := drops.forgot (forgot _ List.mem_cons_self)
      rw [answersOf_append]
      by_cases same : other = key
      · subst same
        obtain ⟨answer, stepped⟩ := dropped.step call
        have following := ih ordered fun e in_ => by
          rw [Function.update_self]
          exact stepped.mono (after e in_)
        rw [answersOf_own, answer, following, own_cons_self]
        rfl
      · have following := ih ordered fun e in_ => by
          rw [Function.update_of_ne (Ne.symm same)]
          exact dropped.mono (after e in_)
        rw [answersOf_other same, following, own_cons_other same, List.nil_append]

/-- Two runs from one store that have the same calls on a key answer them alike. -/
theorem Run.answersOf_eq {events events' : List (Event κ τ ι)} {out out' : List (κ × ω)}
    (run : Run cells s events out) (run' : Run cells s events' out')
    (ordered : events.Pairwise fun e later => e.time ≤ later.time)
    (ordered' : events'.Pairwise fun e later => e.time ≤ later.time)
    (same : own key events = own key events') : answersOf key out = answersOf key out' := by
  rw [run.answersOf_eq_alone ordered fun _ _ => .inl rfl,
    run'.answersOf_eq_alone ordered' fun _ _ => .inl rfl, same]

end Portal.Theory.Eviction
