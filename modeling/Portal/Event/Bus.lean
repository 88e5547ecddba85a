/-
# Event.Bus — the event bus, with handlers that use it themselves

Any number of goroutines call `Subscribe` and `Publish`, and so may a handler while it runs,
to any depth.  So a goroutine is a stack of frames: the statement it executes next is that
of the frame on top, and below it stand the handlers and the `Publish` calls that wait for
it.  What a handler does is not modelled: at any moment it may call the bus, return or
panic.

`publish_delivers`: what one `Publish` does is a beginning of its script, whatever else
happens: it copies the handlers subscribed so far, calls each of them once and in order of
registration, with its payload, and returns.
-/
import Portal.Theory.History
import Portal.Theory.PartialMap
import Portal.Theory.Transition

namespace Portal.Event

open Portal.Theory.Transition Portal.Theory.History

set_option autoImplicit false

/-- One call that a goroutine is in, at the statement it executes next.  A handler is of
type `F`, a payload of type `P`, and `id` names a call of `Publish`. -/
inductive Frame (F P : Type) where
  /-- `Subscribe`: `b.mu.Lock()`, until no other writer is before it -/
  | locking (topic : String) (fn : F)
  /-- the same, until the readers before it are gone -/
  | draining (topic : String) (fn : F)
  /-- `b.handlers[topic] = append(b.handlers[topic], fn)` -/
  | appending (topic : String) (fn : F)
  /-- the deferred `b.mu.Unlock()` -/
  | unlocking
  /-- `Publish`: `b.mu.RLock()` -/
  | rlocking (id : Nat) (topic : String) (payload : P)
  /-- `handlers := append([]func(any){}, b.handlers[topic]...)` -/
  | copying (id : Nat) (topic : String) (payload : P)
  /-- `b.mu.RUnlock()` -/
  | runlocking (id : Nat) (payload : P) (handlers : List F)
  /-- the loop, with the handlers it has not called yet -/
  | ranging (id : Nat) (payload : P) (handlers : List F)
  /-- `fn(payload)` is running, inside `call` -/
  | handling (fn : F) (payload : P)

/-- The bus and the goroutines that use it.  `writer` holds `mu` or has announced itself:
from then on no reader gets in. -/
structure Bus (F P : Type) where
  writer : Option Nat
  readers : List Nat
  handlers : String → List F
  frames : Nat → List (Frame F P)
  /-- how many calls of `Publish` were made -/
  published : Nat

/-- What a goroutine does next: the next statement of the bus, or something that code
outside of it decides. -/
inductive Input (F P : Type) where
  | go
  | subscribe (topic : String) (fn : F)
  | publish (topic : String) (payload : P)
  /-- the handler on top returns, or panics and is recovered by `call` -/
  | ends (panicked : Bool)

/-- What a run lists. -/
inductive Entry (F P : Type) where
  | subscribed (topic : String) (fn : F)
  | published (id : Nat) (topic : String) (payload : P)
  | copied (id : Nat) (topic : String) (handlers : List F)
  | called (id : Nat) (fn : F) (payload : P)
  | returned (id : Nat)

variable {F P : Type}

namespace Bus

/-- `NewBus`. -/
def newBus : Bus F P := ⟨none, [], fun _ => [], fun _ => [], 0⟩

def goto (b : Bus F P) (t : Nat) (stack : List (Frame F P)) : Bus F P :=
  { b with frames := Function.update b.frames t stack }

/-- The next statement of the bus's own code. -/
def advance (b : Bus F P) (t : Nat) : List (Frame F P) → Option (Bus F P)
  | .locking topic fn :: rest =>
      match b.writer with
      | none => some { b.goto t (.draining topic fn :: rest) with writer := some t }
      | some _ => none
  | .draining topic fn :: rest =>
      match b.readers with
      | [] => some (b.goto t (.appending topic fn :: rest))
      | _ :: _ => none
  | .appending topic fn :: rest =>
      some { b.goto t (.unlocking :: rest) with
        handlers := Function.update b.handlers topic (b.handlers topic ++ [fn]) }
  | .unlocking :: rest => some { b.goto t rest with writer := none }
  | .rlocking id topic payload :: rest =>
      match b.writer with
      | none => some { b.goto t (.copying id topic payload :: rest) with readers := t :: b.readers }
      | some _ => none
  | .copying id topic payload :: rest =>
      some (b.goto t (.runlocking id payload (b.handlers topic) :: rest))
  | .runlocking id payload handlers :: rest =>
      some { b.goto t (.ranging id payload handlers :: rest) with readers := b.readers.erase t }
  | .ranging _ _ [] :: rest => some (b.goto t rest)
  | .ranging id payload (fn :: handlers) :: rest =>
      some (b.goto t (.handling fn payload :: .ranging id payload handlers :: rest))
  | .handling _ _ :: _ => none
  | [] => none

/-- The goroutine is in code that may call the bus. -/
def outside : List (Frame F P) → Bool
  | [] => true
  | .handling _ _ :: _ => true
  | _ => false

def next (b : Bus F P) (a : Nat × Input F P) : Option (Bus F P) :=
  match a with
  | (t, .go) => b.advance t (b.frames t)
  | (t, .subscribe topic fn) =>
      if outside (b.frames t) then some (b.goto t (.locking topic fn :: b.frames t)) else none
  | (t, .publish topic payload) =>
      if outside (b.frames t) then
        some { b.goto t (.rlocking b.published topic payload :: b.frames t) with
          published := b.published + 1 }
      else none
  | (t, .ends _) =>
      match b.frames t with
      | .handling _ _ :: rest => some (b.goto t rest)
      | _ => none

def machine : Machine (Bus F P) (Nat × Input F P) where
  start := newBus
  next := next

/-- What a statement lists. -/
def told (b : Bus F P) : List (Frame F P) → List (Entry F P)
  | .appending topic fn :: _ => [.subscribed topic fn]
  | .copying id topic _ :: _ => [.copied id topic (b.handlers topic)]
  | .ranging id _ [] :: _ => [.returned id]
  | .ranging id payload (fn :: _) :: _ => [.called id fn payload]
  | _ => []

def emitted (b : Bus F P) (a : Nat × Input F P) : List (Entry F P) :=
  match a with
  | (t, .go) => b.told (b.frames t)
  | (_, .publish topic payload) => [.published b.published topic payload]
  | _ => []

end Bus

/-! ## What one `Publish` does -/

def Frame.id? : Frame F P → Option Nat
  | .rlocking id _ _ => some id
  | .copying id _ _ => some id
  | .runlocking id _ _ => some id
  | .ranging id _ _ => some id
  | _ => none

def Entry.id? : Entry F P → Option Nat
  | .subscribed _ _ => none
  | .published id _ _ => some id
  | .copied id _ _ => some id
  | .called id _ _ => some id
  | .returned id => some id

def Entry.subscription? (topic : String) : Entry F P → Option F
  | .subscribed topic' fn => if topic' = topic then some fn else none
  | _ => none

/-- The handlers subscribed to a topic, in order of registration. -/
def registered (topic : String) (log : List (Entry F P)) : List F :=
  log.filterMap (Entry.subscription? topic)

/-- What a run lists of one call of `Publish`. -/
def about (log : List (Entry F P)) (id : Nat) : List (Entry F P) :=
  log.filter fun e => e.id? == some id

/-- What a call of `Publish` has to do from its start to its return. -/
def script (id : Nat) (topic : String) (payload : P) (handlers : List F) : List (Entry F P) :=
  .published id topic payload :: .copied id topic handlers ::
    (handlers.map fun fn => .called id fn payload) ++ [.returned id]

/-- How far a call that is in this frame has come. -/
def Fits (view : Nat → List (Entry F P)) : Frame F P → Prop
  | .rlocking id topic payload => view id = [.published id topic payload]
  | .copying id topic payload => view id = [.published id topic payload]
  | .runlocking id payload handlers =>
      ∃ topic, view id = [.published id topic payload, .copied id topic handlers]
  | .ranging id payload handlers =>
      ∃ topic done, view id = .published id topic payload :: .copied id topic (done ++ handlers) ::
        done.map fun fn => .called id fn payload
  | _ => True

/-- The calls that the frames of a stack belong to. -/
def ids (stack : List (Frame F P)) : List Nat := stack.filterMap Frame.id?

/-- Every call has one frame and has come as far as that says, or has returned. -/
structure Scripted (frames : Nat → List (Frame F P)) (published : Nat)
    (view : Nat → List (Entry F P)) : Prop where
  fresh : ∀ id, published ≤ id → view id = []
  nodup : ∀ t, (ids (frames t)).Nodup
  apart : ∀ t t' id, id ∈ ids (frames t) → id ∈ ids (frames t') → t = t'
  fits : ∀ t, ∀ f ∈ frames t, Fits view f
  returned : ∀ id, (∀ t, id ∉ ids (frames t)) →
    view id = [] ∨ ∃ topic payload handlers, view id = script id topic payload handlers

section Scripted

variable {frames : Nat → List (Frame F P)} {published : Nat} {view view' : Nat → List (Entry F P)}
  {t : Nat} {rest : List (Frame F P)}

theorem Fits.nonempty {f : Frame F P} {id : Nat} (fits : Fits view f) (own : f.id? = some id) :
    view id ≠ [] := by
  cases f <;> simp only [Frame.id?, Option.some.injEq, reduceCtorEq] at own <;> subst own
  case ranging =>
    obtain ⟨_, _, listed⟩ := fits
    simp [listed]
  case runlocking =>
    obtain ⟨_, listed⟩ := fits
    simp [listed]
  all_goals
    unfold Fits at fits
    simp [fits]

/-- A call that has a frame is on its way through its script. -/
theorem Fits.begins {f : Frame F P} {id : Nat} (fits : Fits view f)
    (own : f.id? = some id) :
    ∃ topic payload handlers, view id <+: script id topic payload handlers ∧
      .returned id ∉ view id := by
  cases f <;> simp only [Frame.id?, Option.some.injEq, reduceCtorEq] at own <;> subst own
  case rlocking topic payload =>
    refine ⟨topic, payload, [], ?_, ?_⟩ <;> rw [show view _ = _ from fits]
    · exact ⟨_, rfl⟩
    · simp
  case copying topic payload =>
    refine ⟨topic, payload, [], ?_, ?_⟩ <;> rw [show view _ = _ from fits]
    · exact ⟨_, rfl⟩
    · simp
  case runlocking payload handlers =>
    obtain ⟨topic, listed⟩ := fits
    refine ⟨topic, payload, handlers, ?_, ?_⟩ <;> rw [listed]
    · exact ⟨_, rfl⟩
    · simp
  case ranging payload handlers =>
    obtain ⟨topic, done, listed⟩ := fits
    refine ⟨topic, payload, done ++ handlers, ?_, ?_⟩ <;> rw [listed]
    · simp [script]
    · simp

/-- A frame sees nothing of the other calls. -/
theorem Fits.congr {f : Frame F P} (fits : Fits view f)
    (same : ∀ id, f.id? = some id → view' id = view id) : Fits view' f := by
  cases f <;> simp only [Fits, Frame.id?, Option.some.injEq, forall_eq'] at fits same ⊢ <;>
    rwa [same]

theorem Scripted.lt (sc : Scripted frames published view) {id : Nat} (live : id ∈ ids (frames t)) :
    id < published := by
  obtain ⟨f, member, own⟩ := List.mem_filterMap.mp live
  refine Nat.lt_of_not_le fun above => ?_
  exact (sc.fits t f member).nonempty own (sc.fresh id above)

theorem mem_ids_update {id t' : Nat} {new : List (Frame F P)}
    (inside : id ∈ ids (Function.update frames t new t')) :
    (t' = t ∧ id ∈ ids new) ∨ (t' ≠ t ∧ id ∈ ids (frames t')) := by
  by_cases same : t' = t
  · subst same
    rw [Function.update_self] at inside
    exact .inl ⟨rfl, inside⟩
  · rw [Function.update_of_ne same] at inside
    exact .inr ⟨same, inside⟩

/-- A goroutine goes on with the frames on top of its stack, and with the call they belong
to. -/
theorem Scripted.replace (sc : Scripted frames published view) (old new : List (Frame F P))
    (stack : frames t = old ++ rest) (same : ids new = ids old)
    (others : ∀ id, id ∉ ids old → view' id = view id)
    (fits : ∀ f ∈ new, Fits view' f) :
    Scripted (Function.update frames t (new ++ rest)) published view' := by
  have kept : ids (new ++ rest) = ids (frames t) := by
    rw [stack, ids, ids, List.filterMap_append, List.filterMap_append]
    exact congrArg (· ++ ids rest) same
  have everywhere : ∀ t', ids (Function.update frames t (new ++ rest) t') = ids (frames t') := by
    intro t'
    by_cases own : t' = t
    · subst own
      rw [Function.update_self, kept]
    · rw [Function.update_of_ne own]
  have above : ∀ id ∈ ids old, id ∈ ids (frames t) := by
    intro id inside
    rw [stack, ids, List.filterMap_append]
    exact List.mem_append_left _ inside
  refine ⟨?_, ?_, ?_, ?_, ?_⟩
  · intro id over_
    rw [others id fun inside => absurd (sc.lt (above id inside)) (Nat.not_lt.mpr over_)]
    exact sc.fresh id over_
  · intro t'
    rw [everywhere]
    exact sc.nodup t'
  · intro t' t'' id
    rw [everywhere, everywhere]
    exact sc.apart t' t'' id
  · intro t' f member
    by_cases own : t' = t
    · subst own
      rw [Function.update_self] at member
      rcases List.mem_append.mp member with top | below
      · exact fits f top
      · refine (sc.fits t' f (stack ▸ List.mem_append_right _ below)).congr fun id live => ?_
        -- the frames below belong to other calls
        have nodup := sc.nodup t'
        rw [stack, ids, List.filterMap_append, List.nodup_append] at nodup
        exact others id fun inside =>
          nodup.2.2 id inside id (List.mem_filterMap.mpr ⟨f, below, live⟩) rfl
    · rw [Function.update_of_ne own] at member
      refine (sc.fits t' f member).congr fun id live => ?_
      exact others id fun inside =>
        own (sc.apart t' t id (List.mem_filterMap.mpr ⟨f, member, live⟩) (above id inside))
  · intro id gone
    have gone' : ∀ t', id ∉ ids (frames t') := fun t' => everywhere t' ▸ gone t'
    rw [others id fun inside => gone' t (above id inside)]
    exact sc.returned id gone'

/-- The call on top returns. -/
theorem Scripted.pop {f : Frame F P} (sc : Scripted frames published view)
    (stack : frames t = f :: rest) (others : ∀ id, f.id? ≠ some id → view' id = view id)
    (complete : ∀ id, f.id? = some id →
      ∃ topic payload handlers, view' id = script id topic payload handlers) :
    Scripted (Function.update frames t rest) published view' := by
  have split : ids (frames t) = f.id?.toList ++ ids rest := by
    rw [stack, ids, List.filterMap_cons]
    cases f.id? <;> rfl
  have within : ∀ t' id, id ∈ ids (Function.update frames t rest t') → id ∈ ids (frames t') := by
    intro t' id inside
    rcases mem_ids_update inside with ⟨rfl, below⟩ | ⟨-, there⟩
    · rw [split]
      exact List.mem_append_right _ below
    · exact there
  have top : ∀ id, f.id? = some id → id ∈ ids (frames t) := by
    intro id own
    rw [split, own]
    exact List.mem_append_left _ (List.mem_singleton_self id)
  refine ⟨?_, ?_, ?_, ?_, ?_⟩
  · intro id over_
    rw [others id fun own => absurd (sc.lt (top id own)) (Nat.not_lt.mpr over_)]
    exact sc.fresh id over_
  · intro t'
    by_cases own : t' = t
    · subst own
      rw [Function.update_self]
      exact (List.nodup_append.mp (split ▸ sc.nodup t')).2.1
    · rw [Function.update_of_ne own]
      exact sc.nodup t'
  · intro t' t'' id inside inside'
    exact sc.apart t' t'' id (within t' id inside) (within t'' id inside')
  · intro t' g member
    have there : g ∈ frames t' ∧ ∀ id, g.id? = some id → f.id? ≠ some id := by
      by_cases own : t' = t
      · subst own
        rw [Function.update_self] at member
        refine ⟨stack ▸ List.mem_cons_of_mem f member, fun id live same => ?_⟩
        have nodup := split ▸ sc.nodup t'
        rw [same] at nodup
        exact (List.nodup_append.mp nodup).2.2 id (List.mem_singleton_self id) id
          (List.mem_filterMap.mpr ⟨g, member, live⟩) rfl
      · rw [Function.update_of_ne own] at member
        exact ⟨member, fun id live same =>
          own (sc.apart t' t id (List.mem_filterMap.mpr ⟨g, member, live⟩) (top id same))⟩
    exact (sc.fits t' g there.1).congr fun id live => others id (there.2 id live)
  · intro id gone
    by_cases own : f.id? = some id
    · exact .inr (complete id own)
    · rw [others id own]
      refine sc.returned id fun t' inside => ?_
      by_cases here : t' = t
      · subst here
        rw [split] at inside
        rcases List.mem_append.mp inside with same | below
        · exact own (by simpa using same)
        · exact gone t' (by rwa [Function.update_self])
      · exact gone t' (by rwa [Function.update_of_ne here])

/-- A call is made. -/
theorem Scripted.publish (sc : Scripted frames published view) (topic : String) (payload : P)
    (own : view' published = [.published published topic payload])
    (others : ∀ id, id ≠ published → view' id = view id) :
    Scripted (Function.update frames t (.rlocking published topic payload :: frames t))
      (published + 1) view' := by
  have fresh : ∀ t', published ∉ ids (frames t') := fun t' inside =>
    Nat.lt_irrefl _ (sc.lt inside)
  have split : ids (Frame.rlocking published topic payload :: frames t) =
      published :: ids (frames t) := rfl
  refine ⟨?_, ?_, ?_, ?_, ?_⟩
  · intro id over_
    rw [others id (by omega)]
    exact sc.fresh id (by omega)
  · intro t'
    by_cases here : t' = t
    · subst here
      rw [Function.update_self, split]
      exact List.nodup_cons.mpr ⟨fresh t', sc.nodup t'⟩
    · rw [Function.update_of_ne here]
      exact sc.nodup t'
  · intro t' t'' id inside inside'
    rcases mem_ids_update inside with ⟨rfl, first⟩ | ⟨other, first⟩ <;>
      rcases mem_ids_update inside' with ⟨rfl, second⟩ | ⟨other', second⟩
    · rfl
    · rcases List.mem_cons.mp (split ▸ first) with rfl | there
      · exact absurd second (fresh t'')
      · exact sc.apart t' t'' id there second
    · rcases List.mem_cons.mp (split ▸ second) with rfl | there
      · exact absurd first (fresh t')
      · exact sc.apart t' t'' id first there
    · exact sc.apart t' t'' id first second
  · intro t' f member
    have cases_ : f = .rlocking published topic payload ∨ f ∈ frames t' := by
      by_cases here : t' = t
      · subst here
        rw [Function.update_self] at member
        exact List.mem_cons.mp member
      · rw [Function.update_of_ne here] at member
        exact .inr member
    rcases cases_ with rfl | there
    · exact own
    · refine (sc.fits t' f there).congr fun id live => others id ?_
      rintro rfl
      exact fresh t' (List.mem_filterMap.mpr ⟨f, there, live⟩)
  · intro id gone
    have other : id ≠ published := by
      rintro rfl
      exact gone t (by rw [Function.update_self, split]; exact List.mem_cons_self)
    rw [others id other]
    refine sc.returned id fun t' inside => ?_
    by_cases here : t' = t
    · subst here
      exact gone t' (by rw [Function.update_self, split]; exact List.mem_cons_of_mem _ inside)
    · exact gone t' (by rwa [Function.update_of_ne here])

end Scripted

/-! ## The run -/

theorem about_append (log entries : List (Entry F P)) (id : Nat) :
    about (log ++ entries) id = about log id ++ about entries id := List.filter_append ..

theorem about_own {e : Entry F P} {id : Nat} (own : e.id? = some id) : about [e] id = [e] := by
  simp [about, own]

theorem about_other {e : Entry F P} {id : Nat} (other : e.id? ≠ some id) : about [e] id = [] := by
  simp [about, other]

/-- What holds between two steps of a run and what it has listed. -/
structure Kept (p : Bus F P × List (Entry F P)) : Prop where
  handlers : ∀ topic, p.1.handlers topic = registered topic p.2
  copies : Each (fun before e => ∀ id topic handlers, e = .copied id topic handlers →
    handlers = registered topic before) p.2
  scripted : Scripted p.1.frames p.1.published (about p.2)

namespace Bus

variable {b b' : Bus F P} {log : List (Entry F P)} {t : Nat}

/-- The step lemma, for a statement of the bus. -/
theorem advance_scripted (sc : Scripted b.frames b.published (about log))
    (taken : b.advance t (b.frames t) = some b') :
    Scripted b'.frames b'.published (about (log ++ b.told (b.frames t))) := by
  have silent : ∀ {f : Frame F P} {rest : List (Frame F P)} (new : List (Frame F P)),
      b.frames t = f :: rest → ids new = ids [f] → (∀ g ∈ new, Fits (about log) g) →
      Scripted (Function.update b.frames t (new ++ rest)) b.published (about (log ++ [])) := by
    intro f rest new stack same fits
    rw [List.append_nil]
    exact sc.replace [f] new stack same (fun _ _ => rfl) fits
  cases stack : b.frames t with
  | nil =>
      rw [stack] at taken
      cases taken
  | cons f rest =>
      have fits := sc.fits t f (stack ▸ List.mem_cons_self)
      rw [stack] at taken
      cases f with
      | locking topic fn =>
          simp only [advance] at taken
          split at taken <;> cases taken
          exact silent [.draining topic fn] stack rfl (by simp [Fits])
      | draining topic fn =>
          simp only [advance] at taken
          split at taken <;> cases taken
          exact silent [.appending topic fn] stack rfl (by simp [Fits])
      | appending topic fn =>
          cases taken
          refine sc.replace [.appending topic fn] [.unlocking] stack rfl ?_
            (by simp [Fits])
          intro id _
          rw [about_append, told, about_other (by simp [Entry.id?]), List.append_nil]
      | unlocking =>
          cases taken
          exact silent [] stack rfl (by simp)
      | rlocking id topic payload =>
          simp only [advance] at taken
          split at taken <;> cases taken
          exact silent [.copying id topic payload] stack rfl (by simpa [Fits] using fits)
      | copying id topic payload =>
          cases taken
          refine sc.replace [.copying id topic payload]
            [.runlocking id payload (b.handlers topic)] stack rfl ?_ ?_
          · intro id' other
            rw [about_append, told, about_other fun own => other ?_, List.append_nil]
            cases own
            exact List.mem_singleton_self _
          · intro g member
            cases List.mem_singleton.mp member
            refine ⟨topic, ?_⟩
            rw [about_append, show about log id = _ from fits, told, about_own rfl]
            rfl
      | runlocking id payload handlers =>
          cases taken
          refine silent [.ranging id payload handlers] stack rfl ?_
          intro g member
          cases List.mem_singleton.mp member
          obtain ⟨topic, listed⟩ := fits
          exact ⟨topic, [], listed⟩
      | ranging id payload handlers =>
          obtain ⟨topic, done, listed⟩ := fits
          cases handlers with
          | nil =>
              cases taken
              refine sc.pop stack ?_ ?_
              · intro id' other
                rw [about_append, told, about_other (show (Entry.returned id).id? ≠ some id' from other),
                  List.append_nil]
              · intro id' own
                cases own
                refine ⟨topic, payload, done, ?_⟩
                rw [about_append, listed, told, about_own rfl, List.append_nil]
                rfl
          | cons fn handlers =>
              cases taken
              refine sc.replace [.ranging id payload (fn :: handlers)]
                [.handling fn payload, .ranging id payload handlers] stack rfl ?_ ?_
              · intro id' other
                rw [about_append, told, about_other fun own => other ?_, List.append_nil]
                cases own
                exact List.mem_singleton_self _
              · intro g member
                rcases List.mem_cons.mp member with rfl | last
                · trivial
                · cases List.mem_singleton.mp last
                  refine ⟨topic, done ++ [fn], ?_⟩
                  rw [about_append, listed, told, about_own rfl]
                  simp
      | handling fn payload => cases taken

theorem next_scripted {a : Nat × Input F P} (sc : Scripted b.frames b.published (about log))
    (taken : b.next a = some b') :
    Scripted b'.frames b'.published (about (log ++ b.emitted a)) := by
  obtain ⟨t, input⟩ := a
  cases input with
  | go => exact advance_scripted sc taken
  | subscribe topic fn =>
      simp only [next] at taken
      split at taken <;> cases taken
      simp only [emitted, List.append_nil]
      exact sc.replace [] [.locking topic fn] rfl rfl (fun _ _ => rfl)
        (by simp [Fits])
  | publish topic payload =>
      simp only [next] at taken
      split at taken <;> cases taken
      refine sc.publish topic payload ?_ ?_
      · rw [emitted, about_append, sc.fresh _ (Nat.le_refl _), about_own rfl]
        rfl
      · intro id other
        rw [emitted, about_append, about_other, List.append_nil]
        simpa [Entry.id?] using other.symm
  | ends panicked =>
      simp only [next] at taken
      split at taken <;> cases taken
      rename_i fn payload rest stack
      simp only [emitted, List.append_nil]
      exact sc.replace [.handling fn payload] [] stack rfl (fun _ _ => rfl)
        (by simp)

theorem registered_append (topic : String) (log : List (Entry F P)) (e : Entry F P) :
    registered topic (log ++ [e]) = registered topic log ++ (e.subscription? topic).toList := by
  cases found : e.subscription? topic <;> simp [registered, found]

/-- What a step does to the handlers is what it lists. -/
theorem next_handlers {a : Nat × Input F P} (taken : b.next a = some b')
    (handlers : ∀ topic, b.handlers topic = registered topic log) (topic : String) :
    b'.handlers topic = registered topic (log ++ b.emitted a) := by
  obtain ⟨t, input⟩ := a
  cases input with
  | go =>
      simp only [next, emitted] at taken ⊢
      generalize b.frames t = stack at taken
      revert taken
      fun_cases advance b t stack <;> intro taken <;> cases taken
      case go.case5.refl topic' fn rest =>
        show Function.update b.handlers topic' (b.handlers topic' ++ [fn]) topic = _
        simp only [told, registered_append, Entry.subscription?]
        by_cases same : topic = topic'
        · subst same
          rw [Function.update_self, handlers]
          simp
        · rw [Function.update_of_ne same, handlers, if_neg (Ne.symm same)]
          simp
      all_goals simp [told, goto, handlers, registered_append, Entry.subscription?]
  | subscribe topic' fn =>
      simp only [next] at taken
      split at taken <;> cases taken
      simp [emitted, goto, handlers]
  | publish topic' payload =>
      simp only [next] at taken
      split at taken <;> cases taken
      simp [emitted, goto, handlers, registered_append, Entry.subscription?]
  | ends panicked =>
      simp only [next] at taken
      split at taken <;> cases taken
      simp [emitted, goto, handlers]

/-- A step lists nothing or one entry, and a copy is a copy of the handlers there are. -/
theorem emitted_cases (b : Bus F P) (a : Nat × Input F P) :
    b.emitted a = [] ∨ ∃ e, b.emitted a = [e] ∧
      ∀ id topic handlers, e = .copied id topic handlers → handlers = b.handlers topic := by
  obtain ⟨t, input⟩ := a
  cases input with
  | go =>
      simp only [emitted]
      fun_cases told b (b.frames t) <;> simp +contextual
  | publish topic payload => exact .inr ⟨_, rfl, by simp⟩
  | _ => exact .inl rfl

theorem Kept.next {p p' : Bus F P × List (Entry F P)} {a : Nat × Input F P} (kept : Kept p)
    (taken : (machine.record emitted).next p a = some p') : Kept p' := by
  obtain ⟨stepped, log⟩ := Machine.record_next taken
  refine ⟨?_, ?_, ?_⟩
  · intro topic
    rw [log]
    exact next_handlers stepped kept.handlers topic
  · rw [log]
    rcases p.1.emitted_cases a with none_ | ⟨e, one, copy⟩
    · rw [none_, List.append_nil]
      exact kept.copies
    · rw [one]
      refine each_concat kept.copies fun id topic handlers same => ?_
      rw [copy id topic handlers same, kept.handlers]
  · rw [log]
    exact next_scripted kept.scripted stepped

theorem kept {p : Bus F P × List (Entry F P)} (reached : (machine.record emitted).Reachable p) :
    Kept p := by
  refine reached.invariant (I := Kept) ?_ fun p p' a _ kept _ taken => Kept.next kept taken
  refine ⟨fun _ => rfl, each_nil, ?_⟩
  exact ⟨fun _ _ => rfl, fun _ => List.nodup_nil, by rintro _ _ _ ⟨⟩, by rintro _ _ ⟨⟩,
    fun _ _ => .inl rfl⟩

theorem returned_mem_about {id : Nat} (member : .returned id ∈ log) :
    .returned id ∈ about log id :=
  List.mem_filter.mpr ⟨member, by simp [Entry.id?]⟩

/-- **What a call of `Publish` does.**  In every run, with any number of goroutines and
whatever the handlers do (call the bus themselves, return or panic): a call of `Publish`
copies the handlers that are subscribed to its topic at that moment, in the order of their
registration, and what it does is a beginning of its script: it calls each of these handlers
once, in this order and with its payload.  If it has returned it has called them all. -/
theorem publish_delivers (reached : (machine.record emitted).Reachable (b, log)) :
    Each (fun before e => ∀ id topic handlers, e = .copied id topic handlers →
      handlers = registered topic before) log ∧
    ∀ e ∈ log, ∀ id, e.id? = some id → ∃ topic payload handlers,
      about log id <+: script id topic payload handlers ∧
        (.returned id ∈ log → about log id = script id topic payload handlers) := by
  have kept := kept reached
  refine ⟨kept.copies, fun e member id own => ?_⟩
  have listed : e ∈ about log id := List.mem_filter.mpr ⟨member, by simp [own]⟩
  by_cases live : ∃ t, id ∈ ids (b.frames t)
  · obtain ⟨t, inside⟩ := live
    obtain ⟨f, there, own⟩ := List.mem_filterMap.mp inside
    obtain ⟨topic, payload, handlers, begins, open_⟩ := (kept.scripted.fits t f there).begins own
    exact ⟨topic, payload, handlers, begins,
      fun returned => absurd (returned_mem_about returned) open_⟩
  · rcases kept.scripted.returned id (not_exists.mp live) with none_ | ⟨topic, payload, handlers, all⟩
    · rw [none_] at listed
      cases listed
    · exact ⟨topic, payload, handlers, all ▸ List.prefix_refl _, fun _ => all⟩

/-- `k` statements of the bus on goroutine 0. -/
def steps (k : Nat) : List (Nat × Input Nat Nat) := List.replicate k (0, .go)

/-- A subscription, from its call to its return. -/
def subscribing (fn : Nat) : List (Nat × Input Nat Nat) := (0, .subscribe "transfer" fn) :: steps 4

/-- A handler is called, and returns or panics. -/
def calling (panicked : Bool) : List (Nat × Input Nat Nat) := [(0, .go), (0, .ends panicked)]

/-- The first handler subscribes another one and panics, and the second one publishes under
the same topic: the outer call reaches the two handlers it has copied, the inner one all
three. -/
theorem publish_delivers_nested :
    ∃ (b : Bus Nat Nat) (log : List (Entry Nat Nat)), (machine.record emitted).Reachable (b, log) ∧
      about log 0 = script 0 "transfer" 7 [1, 2] ∧ about log 1 = script 1 "transfer" 8 [1, 2, 3] ∧
      Each (fun before e => ∀ id topic handlers, e = .copied id topic handlers →
        handlers = registered topic before) log := by
  obtain ⟨b, log, reached, outer, inner⟩ : ∃ (b : Bus Nat Nat) (log : List (Entry Nat Nat)),
      (machine.record emitted).Reachable (b, log) ∧
      about log 0 = script 0 "transfer" 7 [1, 2] ∧
      about log 1 = script 1 "transfer" 8 [1, 2, 3] := by
    have reached : (machine.record emitted).Reachable _ :=
      Machine.exec_reach (subscribing 1 ++ subscribing 2 ++
        ([(0, .publish "transfer" 7)] : List (Nat × Input Nat Nat)) ++ steps 4 ++ subscribing 3 ++
        ([(0, .ends true), (0, .go), (0, .publish "transfer" 8)] : List (Nat × Input Nat Nat)) ++
        steps 3 ++ calling false ++ calling true ++ calling false ++ steps 1 ++
        ([(0, .ends false)] : List (Nat × Input Nat Nat)) ++ steps 1) rfl
    exact ⟨_, _, reached, rfl, rfl⟩
  exact ⟨b, log, reached, outer, inner, (publish_delivers reached).1⟩

end Bus

end Portal.Event
