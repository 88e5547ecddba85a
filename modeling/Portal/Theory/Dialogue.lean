/-
# Theory.Dialogue — what a worker hears while it serves one request after the other

The program of a request is a `Query`: it asks the world one question at a time, and the
world changes between two answers.  `Holds m q r` says that `r` is a true answer to `q` at the
moment `m`.  `Always Holds P x` says that `P` holds of all that `x` hears, moment by moment,
and of its result, whenever each answer was true when it was given.

A worker takes a request, runs its program to the end and takes the next.  Its log lists the
requests it took, what it heard and how it settled them.  If every program has its
postcondition (`Always`), then the requests are settled in order, each once, and each with its
postcondition on what was heard since it was taken (`Conversed`).
-/
import Mathlib.Data.List.Forall2
import Portal.Theory.History
import Portal.Theory.Query

namespace Portal.Theory

open Portal.Theory.History

set_option autoImplicit false

namespace Query

variable {M Q : Type} {R : Q → Type} {α β : Type}

/-- An answer, with its question and the moment it was given at. -/
structure Heard (M Q : Type) (R : Q → Type) where
  moment : M
  question : Q
  answer : R question

variable (Holds : M → (q : Q) → R q → Prop)

/-- `P` holds of what is heard and of the result, if the answers are true when they are
given. -/
def Always (P : List (Heard M Q R) → α → Prop) : Query Q R α → Prop
  | .pure a => P [] a
  | .ask q k => ∀ m r, Holds m q r → (k r).Always fun heard a => P (⟨m, q, r⟩ :: heard) a

variable {Holds} {P P' : List (Heard M Q R) → α → Prop}

theorem Always.mono {x : Query Q R α} (always : x.Always Holds P)
    (imp : ∀ heard a, P heard a → P' heard a) : x.Always Holds P' := by
  induction x generalizing P P' with
  | pure a => exact imp [] a always
  | ask q k ih => exact fun m r holds => ih r (always m r holds) fun heard a => imp _ a

/-- What comes second hears what comes first. -/
theorem always_bind {P : List (Heard M Q R) → β → Prop} {x : Query Q R α} {f : α → Query Q R β}
    (always : x.Always Holds fun heard a => (f a).Always Holds fun more b => P (heard ++ more) b) :
    (x >>= f).Always Holds P := by
  induction x generalizing P with
  | pure a => exact always
  | ask q k ih => exact fun m r holds => ih r (always m r holds)

/-- A question comes first. -/
theorem always_load {q : Q} {k : R q → Query Q R α}
    (always : ∀ m r, Holds m q r → (k r).Always Holds fun heard a => P (⟨m, q, r⟩ :: heard) a) :
    (load q >>= k).Always Holds P := always

/-- What is done with the result is no question. -/
theorem always_map {P : List (Heard M Q R) → β → Prop} {x : Query Q R α} {f : α → β}
    (always : x.Always Holds fun heard a => P heard (f a)) :
    (x >>= fun a => pure (f a)).Always Holds P := by
  refine always_bind (always.mono fun heard a holds => ?_)
  show P (heard ++ []) (f a)
  rwa [List.append_nil]

/-- One program for each element: what holds of each and of more than it heard holds of all,
and so does what holds of every answer. -/
theorem always_mapM {f : α → Query Q R β} {T : List (Heard M Q R) → α → β → Prop}
    {quiet : Heard M Q R → Prop}
    (mono : ∀ heard heard' a b, heard ⊆ heard' → T heard a b → T heard' a b)
    (each : ∀ a, (f a).Always Holds fun heard b => (∀ h ∈ heard, quiet h) ∧ T heard a b)
    (xs : List α) :
    (xs.mapM f).Always Holds fun heard bs =>
      (∀ h ∈ heard, quiet h) ∧ List.Forall₂ (T heard) xs bs := by
  induction xs with
  | nil => exact ⟨by rintro h ⟨⟩, .nil⟩
  | cons a xs ih =>
      rw [List.mapM_cons]
      refine always_bind ((each a).mono fun heard b ⟨first, told⟩ => ?_)
      refine always_map (ih.mono fun more bs ⟨rest, others⟩ => ⟨?_, .cons ?_ (others.imp ?_)⟩)
      · intro h member
        rcases List.mem_append.mp member with before | after
        · exact first h before
        · exact rest h after
      · exact mono heard _ a b (List.subset_append_left ..) told
      · exact fun a' b' => mono more _ a' b' (List.subset_append_right ..)

end Query

/-! ## The worker -/

namespace Dialogue

variable {ρ M Q : Type} {R : Q → Type} {α : Type}

/-- An entry of the log of a worker. -/
inductive Entry (ρ M Q : Type) (R : Q → Type) (α : Type) where
  | took (request : ρ)
  | heard (answer : Query.Heard M Q R)
  | settled (request : ρ) (result : α)

def Entry.request? : Entry ρ M Q R α → Option ρ
  | .took request => some request
  | _ => none

def Entry.result? : Entry ρ M Q R α → Option (ρ × α)
  | .settled request result => some (request, result)
  | _ => none

/-- The requests taken, in order. -/
def requests (log : List (Entry ρ M Q R α)) : List ρ := log.filterMap Entry.request?

/-- The requests settled, in order, and their results. -/
def results (log : List (Entry ρ M Q R α)) : List (ρ × α) := log.filterMap Entry.result?

/-- What was heard before an entry, since the last request was taken. -/
def Entry.after (heard : List (Query.Heard M Q R)) :
    Entry ρ M Q R α → List (Query.Heard M Q R)
  | .took _ => []
  | .heard answer => heard ++ [answer]
  | .settled _ _ => heard

/-- What was heard since the last request was taken. -/
def heard (log : List (Entry ρ M Q R α)) : List (Query.Heard M Q R) := log.foldl Entry.after []

theorem heard_concat (log : List (Entry ρ M Q R α)) (e : Entry ρ M Q R α) :
    heard (log ++ [e]) = e.after (heard log) := by
  simp [heard]

theorem requests_concat (log : List (Entry ρ M Q R α)) (e : Entry ρ M Q R α) :
    requests (log ++ [e]) = requests log ++ e.request?.toList := by
  rw [requests, List.filterMap_append]
  cases e <;> rfl

theorem results_concat (log : List (Entry ρ M Q R α)) (e : Entry ρ M Q R α) :
    results (log ++ [e]) = results log ++ e.result?.toList := by
  rw [results, List.filterMap_append]
  cases e <;> rfl

/-- Requests are settled in order, each once, and each with its postcondition on what was
heard since it was taken; the request in hand will be. -/
structure Conversed (Holds : M → (q : Q) → R q → Prop)
    (post : ρ → List (Query.Heard M Q R) → α → Prop) (log : List (Entry ρ M Q R α))
    (hand : Option (ρ × Query Q R α)) : Prop where
  order : requests log = (results log).map Prod.fst ++ (hand.map Prod.fst).toList
  each : Each (fun before e => ∀ request result, e = .settled request result →
    post request (heard before) result) log
  now : ∀ request x, hand = some (request, x) →
    x.Always Holds fun more result => post request (heard log ++ more) result

variable {Holds : M → (q : Q) → R q → Prop} {post : ρ → List (Query.Heard M Q R) → α → Prop}
  {log : List (Entry ρ M Q R α)} {request : ρ}

theorem conversed_nil : Conversed Holds post ([] : List (Entry ρ M Q R α)) none :=
  ⟨rfl, each_nil, by rintro request x ⟨⟩⟩

theorem Conversed.take (conversed : Conversed Holds post log none) {x : Query Q R α}
    (always : x.Always Holds (post request)) :
    Conversed Holds post (log ++ [.took request]) (some (request, x)) where
  order := by
    rw [requests_concat, results_concat, conversed.order]
    simp [Entry.request?, Entry.result?]
  each := each_concat conversed.each (by rintro _ _ ⟨⟩)
  now := by
    rintro _ _ ⟨⟩
    rw [heard_concat]
    exact always

theorem Conversed.hear {q : Q} {k : R q → Query Q R α}
    (conversed : Conversed Holds post log (some (request, .ask q k))) {m : M} {r : R q}
    (holds : Holds m q r) :
    Conversed Holds post (log ++ [.heard ⟨m, q, r⟩]) (some (request, k r)) where
  order := by
    rw [requests_concat, results_concat, conversed.order]
    simp [Entry.request?, Entry.result?]
  each := each_concat conversed.each (by rintro _ _ ⟨⟩)
  now := by
    rintro _ _ ⟨⟩
    rw [heard_concat]
    refine Query.Always.mono (conversed.now _ _ rfl m r holds) fun more result => ?_
    simp [Entry.after]

theorem Conversed.settle {result : α}
    (conversed : Conversed Holds post log (some (request, .pure result))) :
    Conversed Holds post (log ++ [.settled request result]) none where
  order := by
    rw [requests_concat, results_concat, conversed.order]
    simp [Entry.request?, Entry.result?]
  each := by
    refine each_concat conversed.each ?_
    rintro _ _ ⟨⟩
    have now := conversed.now _ _ rfl
    simpa only [Query.Always, List.append_nil] using now
  now := by rintro _ _ ⟨⟩

end Dialogue

end Portal.Theory
