/-
# Event.BusLock — the lock of the event bus, and the handlers it never waits for

`Subscribe` takes `mu` for writing and `Publish` for reading, and a writer that has announced
itself keeps new readers out.  So a bus that held the lock while a handler runs would hang
as soon as the handler subscribes, or publishes behind a waiting writer.  It does not: the
lock is held by the frame on top of a stack only, and never by one that runs a handler
(`Locked`).  `bus_never_stuck` draws the conclusion: whoever waits for the lock gets it by
statements of the bus alone.
-/
import Portal.Event.Bus

namespace Portal.Event

open Portal.Theory.Transition

set_option autoImplicit false

variable {F P : Type}

/-- Inside the section of a writer, its announcement included. -/
def Frame.writes : Frame F P → Bool
  | .draining _ _ => true
  | .appending _ _ => true
  | .unlocking => true
  | _ => false

/-- Inside the section of a reader. -/
def Frame.reads : Frame F P → Bool
  | .copying _ _ _ => true
  | .runlocking _ _ _ => true
  | _ => false

/-- A frame that waits for the one above it. -/
def Frame.waits : Frame F P → Bool
  | .ranging _ _ _ => true
  | .handling _ _ => true
  | _ => false

def topIs (q : Frame F P → Bool) : List (Frame F P) → Bool
  | [] => false
  | f :: _ => q f

namespace Bus

/-- The lock is held by the goroutines that stand inside a section, and only the frame on
top of a stack can. -/
structure Locked (b : Bus F P) : Prop where
  shape : ∀ t f rest, b.frames t = f :: rest → ∀ g ∈ rest, g.waits = true
  writer : ∀ t, b.writer = some t ↔ topIs Frame.writes (b.frames t) = true
  reader : ∀ t, t ∈ b.readers ↔ topIs Frame.reads (b.frames t) = true
  once : b.readers.Nodup

variable {b b' : Bus F P} {t : Nat}

theorem newBus_locked : Locked (newBus : Bus F P) where
  shape := by
    intro t f rest stack
    cases stack
  writer := by simp [newBus, topIs]
  reader := by simp [newBus, topIs]
  once := List.nodup_nil

theorem Locked.below {f : Frame F P} {rest : List (Frame F P)} (l : Locked b)
    (stack : b.frames t = f :: rest) :
    topIs Frame.writes rest = false ∧ topIs Frame.reads rest = false := by
  cases rest with
  | nil => exact ⟨rfl, rfl⟩
  | cons g rest =>
      have waits := l.shape t f _ stack g List.mem_cons_self
      cases g <;> simp_all [topIs, Frame.writes, Frame.reads, Frame.waits]

/-- A goroutine moves, and the lock with it. -/
theorem Locked.moves (l : Locked b) {stack : List (Frame F P)} (frames : b'.frames =
    Function.update b.frames t stack)
    (shape : ∀ f rest, stack = f :: rest → ∀ g ∈ rest, g.waits = true)
    (writer : ∀ t', b'.writer = some t' ↔ (t' ≠ t ∧ b.writer = some t') ∨
      (t' = t ∧ topIs Frame.writes stack = true))
    (reader : ∀ t', t' ∈ b'.readers ↔ (t' ≠ t ∧ t' ∈ b.readers) ∨
      (t' = t ∧ topIs Frame.reads stack = true))
    (once : b'.readers.Nodup) : Locked b' := by
  refine ⟨?_, ?_, ?_, once⟩
  · intro t' f rest there
    rw [frames] at there
    by_cases own : t' = t
    · subst own
      rw [Function.update_self] at there
      exact shape f rest there
    · rw [Function.update_of_ne own] at there
      exact l.shape t' f rest there
  · intro t'
    rw [writer, frames]
    by_cases own : t' = t
    · subst own
      simp
    · simp [own, l.writer t']
  · intro t'
    rw [reader, frames]
    by_cases own : t' = t
    · subst own
      simp
    · simp [own, l.reader t']

theorem Locked.writer_stays (l : Locked b) {stack : List (Frame F P)} (same : b'.writer = b.writer)
    (writes : topIs Frame.writes stack = topIs Frame.writes (b.frames t)) (t' : Nat) :
    b'.writer = some t' ↔ (t' ≠ t ∧ b.writer = some t') ∨
      (t' = t ∧ topIs Frame.writes stack = true) := by
  rw [same, writes]
  by_cases own : t' = t
  · subst own
    simp [l.writer t']
  · simp [own]

theorem Locked.reader_stays (l : Locked b) {stack : List (Frame F P)} (same : b'.readers = b.readers)
    (reads : topIs Frame.reads stack = topIs Frame.reads (b.frames t)) (t' : Nat) :
    t' ∈ b'.readers ↔ (t' ≠ t ∧ t' ∈ b.readers) ∨ (t' = t ∧ topIs Frame.reads stack = true) := by
  rw [same, reads]
  by_cases own : t' = t
  · subst own
    simp [l.reader t']
  · simp [own]

/-- A goroutine moves and leaves the lock alone. -/
theorem Locked.keeps (l : Locked b) {stack : List (Frame F P)} (frames : b'.frames =
    Function.update b.frames t stack)
    (shape : ∀ f rest, stack = f :: rest → ∀ g ∈ rest, g.waits = true)
    (lock : b'.writer = b.writer ∧ b'.readers = b.readers)
    (writes : topIs Frame.writes stack = topIs Frame.writes (b.frames t))
    (reads : topIs Frame.reads stack = topIs Frame.reads (b.frames t)) : Locked b' :=
  l.moves frames shape (l.writer_stays lock.1 writes) (l.reader_stays lock.2 reads)
    (lock.2 ▸ l.once)

theorem Locked.tail {f : Frame F P} {rest : List (Frame F P)} (l : Locked b)
    (stack : b.frames t = f :: rest) : ∀ g rest', rest = g :: rest' → ∀ h ∈ rest', h.waits = true := by
  rintro g rest' rfl h member
  exact l.shape t f _ stack h (List.mem_cons_of_mem g member)

theorem Locked.top {f g : Frame F P} {rest : List (Frame F P)} (l : Locked b)
    (stack : b.frames t = f :: rest) :
    ∀ g' rest', g :: rest = g' :: rest' → ∀ h ∈ rest', h.waits = true := by
  intro g' rest' same
  cases same
  exact l.shape t f rest stack

theorem advance_locked (l : Locked b) (taken : b.advance t (b.frames t) = some b') : Locked b' := by
  cases stack : b.frames t with
  | nil =>
      rw [stack] at taken
      cases taken
  | cons f rest =>
      have writer := l.writer t
      have reader := l.reader t
      obtain ⟨unwritten, unread⟩ := l.below stack
      rw [stack] at taken writer reader
      cases f with
      | locking topic fn =>
          simp only [advance] at taken
          split at taken <;> cases taken
          rename_i free
          refine l.moves rfl (l.top stack) ?_ (l.reader_stays rfl (by rw [stack]; rfl)) l.once
          intro t'
          simp [free, topIs, Frame.writes, eq_comm]
      | draining topic fn =>
          simp only [advance] at taken
          split at taken <;> cases taken
          exact l.keeps rfl (l.top stack) ⟨rfl, rfl⟩ (by simp [stack, topIs, Frame.writes])
            (by simp [stack, topIs, Frame.reads])
      | appending topic fn =>
          cases taken
          exact l.keeps rfl (l.top stack) ⟨rfl, rfl⟩ (by simp [stack, topIs, Frame.writes])
            (by simp [stack, topIs, Frame.reads])
      | unlocking =>
          cases taken
          have holds : b.writer = some t := writer.mpr rfl
          refine l.moves rfl (l.tail stack) ?_ (l.reader_stays rfl (by rw [stack, unread]; rfl)) l.once
          intro t'
          simp [holds, unwritten, eq_comm]
      | rlocking id topic payload =>
          simp only [advance] at taken
          split at taken <;> cases taken
          have absent : t ∉ b.readers := fun inside => by cases reader.mp inside
          refine l.moves rfl (l.top stack) (l.writer_stays rfl (by rw [stack]; rfl)) ?_
            (List.nodup_cons.mpr ⟨absent, l.once⟩)
          intro t'
          by_cases own : t' = t
          · subst own
            simp [topIs, Frame.reads]
          · simp [own]
      | copying id topic payload =>
          cases taken
          exact l.keeps rfl (l.top stack) ⟨rfl, rfl⟩ (by simp [stack, topIs, Frame.writes])
            (by simp [stack, topIs, Frame.reads])
      | runlocking id payload handlers =>
          cases taken
          refine l.moves rfl (l.top stack) (l.writer_stays rfl (by rw [stack]; rfl)) ?_
            (l.once.erase t)
          intro t'
          rw [l.once.mem_erase_iff]
          simp [topIs, Frame.reads]
      | ranging id payload handlers =>
          cases handlers with
          | nil =>
              cases taken
              exact l.keeps rfl (l.tail stack) ⟨rfl, rfl⟩
                (by rw [stack, unwritten]; rfl) (by rw [stack, unread]; rfl)
          | cons fn handlers =>
              cases taken
              refine l.keeps rfl ?_ ⟨rfl, rfl⟩ (by rw [stack]; rfl) (by rw [stack]; rfl)
              intro g rest' same h member
              cases same
              rcases List.mem_cons.mp member with rfl | below
              · rfl
              · exact l.shape t _ rest stack h below
      | handling fn payload => cases taken

theorem outside_unlocked {stack : List (Frame F P)} (out : outside stack = true) :
    topIs Frame.writes stack = false ∧ topIs Frame.reads stack = false := by
  cases stack with
  | nil => exact ⟨rfl, rfl⟩
  | cons f rest => cases f <;> simp_all [outside, topIs, Frame.writes, Frame.reads]

/-- Code that may call the bus is entered with every frame below waiting. -/
theorem Locked.enter (l : Locked b) (out : outside (b.frames t) = true) :
    ∀ g ∈ b.frames t, g.waits = true := by
  intro g member
  cases stack : b.frames t with
  | nil =>
      rw [stack] at member
      cases member
  | cons f rest =>
      rw [stack] at member out
      rcases List.mem_cons.mp member with rfl | below
      · cases g <;> simp_all [outside, Frame.waits]
      · exact l.shape t f rest stack g below

theorem next_locked {a : Nat × Input F P} (l : Locked b) (taken : b.next a = some b') :
    Locked b' := by
  obtain ⟨t, input⟩ := a
  cases input with
  | go => exact advance_locked l taken
  | subscribe topic fn =>
      simp only [next] at taken
      split at taken <;> cases taken
      rename_i out
      obtain ⟨unwritten, unread⟩ := outside_unlocked out
      refine l.keeps rfl ?_ ⟨rfl, rfl⟩ (by rw [unwritten]; rfl) (by rw [unread]; rfl)
      intro f rest same
      cases same
      exact l.enter out
  | publish topic payload =>
      simp only [next] at taken
      split at taken <;> cases taken
      rename_i out
      obtain ⟨unwritten, unread⟩ := outside_unlocked out
      refine l.keeps rfl ?_ ⟨rfl, rfl⟩ (by rw [unwritten]; rfl) (by rw [unread]; rfl)
      intro f rest same
      cases same
      exact l.enter out
  | ends panicked =>
      simp only [next] at taken
      split at taken <;> cases taken
      rename_i fn payload rest stack
      obtain ⟨unwritten, unread⟩ := l.below stack
      exact l.keeps rfl (l.tail stack) ⟨rfl, rfl⟩ (by rw [stack, unwritten]; rfl)
        (by rw [stack, unread]; rfl)

theorem locked {ok : Bus F P → Nat × Input F P → Prop} (reached : machine.Reach ok b) : Locked b :=
  reached.invariant newBus_locked fun _ _ _ _ l _ taken => next_locked l taken

/-- Other goroutines than `t` execute statements of the bus. -/
inductive Onward (t : Nat) : Bus F P → Bus F P → Prop where
  | refl (b : Bus F P) : Onward t b b
  | step {b b' b'' : Bus F P} (t' : Nat) (other : t' ≠ t) (taken : b.next (t', .go) = some b')
      (rest : Onward t b' b'') : Onward t b b''

theorem Onward.trans {b b' b'' : Bus F P} (first : Onward t b b') (second : Onward t b' b'') :
    Onward t b b'' := by
  induction first with
  | refl b => exact second
  | step t' other taken _ ih => exact .step t' other taken (ih second)

/-- A reader leaves its section. -/
theorem Locked.release {r : Nat} (l : Locked b) (reads : r ∈ b.readers) (other : r ≠ t) :
    ∃ b', Onward t b b' ∧ Locked b' ∧ b'.readers = b.readers.erase r ∧ b'.writer = b.writer ∧
      b'.frames t = b.frames t := by
  have inside := (l.reader r).mp reads
  cases stack : b.frames r with
  | nil =>
      rw [stack] at inside
      cases inside
  | cons f rest =>
      rw [stack] at inside
      cases f with
      | runlocking id payload handlers =>
          have taken : b.next (r, .go) = some { b.goto r (.ranging id payload handlers :: rest) with
              readers := b.readers.erase r } := by
            simp only [next, stack, advance]
          refine ⟨_, .step r other taken (.refl _), next_locked l taken, rfl, rfl, ?_⟩
          exact Function.update_of_ne other.symm ..
      | copying id topic payload =>
          have first : b.next (r, .go) =
              some (b.goto r (.runlocking id payload (b.handlers topic) :: rest)) := by
            simp only [next, stack, advance]
          have second : (b.goto r (.runlocking id payload (b.handlers topic) :: rest)).next (r, .go) =
              some { (b.goto r (.runlocking id payload (b.handlers topic) :: rest)).goto r
                (.ranging id payload (b.handlers topic) :: rest) with
                readers := b.readers.erase r } := by
            simp only [next, goto, Function.update_self, advance]
          refine ⟨_, .step r other first (.step r other second (.refl _)),
            next_locked (next_locked l first) second, rfl, rfl, ?_⟩
          exact (Function.update_of_ne other.symm ..).trans (Function.update_of_ne other.symm ..)
      | _ => cases inside

/-- All readers leave, and none comes: `t` keeps them out or waits itself. -/
theorem Locked.drain (l : Locked b) (idle : t ∉ b.readers) :
    ∃ b', Onward t b b' ∧ Locked b' ∧ b'.readers = [] ∧ b'.writer = b.writer ∧
      b'.frames t = b.frames t := by
  generalize count : b.readers.length = n
  induction n generalizing b with
  | zero => exact ⟨b, .refl b, l, List.length_eq_zero_iff.mp count, rfl, rfl⟩
  | succ n ih =>
      obtain ⟨r, reads⟩ : ∃ r, r ∈ b.readers :=
        List.exists_mem_of_length_pos (by omega)
      have other : r ≠ t := by
        rintro rfl
        exact idle reads
      obtain ⟨b', onward, l', readers, writer, stack⟩ := l.release reads other
      have idle' : t ∉ b'.readers := fun inside => by
        rw [readers] at inside
        exact idle (List.mem_of_mem_erase inside)
      have shorter : b'.readers.length = n := by
        rw [readers, List.length_erase_of_mem reads, count]
        rfl
      obtain ⟨b'', onward', l'', readers', writer', stack'⟩ := ih l' idle' shorter
      exact ⟨b'', onward.trans onward', l'', readers', writer'.trans writer, stack'.trans stack⟩

/-- The writer goes through its section, once there is no reader. -/
theorem Locked.leave {w : Nat} (l : Locked b) (holds : b.writer = some w) (other : w ≠ t)
    (free : b.readers = []) :
    ∃ b', Onward t b b' ∧ b'.readers = [] ∧ b'.writer = none ∧ b'.frames t = b.frames t := by
  have inside := (l.writer w).mp holds
  have last : ∀ {b : Bus F P} {rest : List (Frame F P)}, b.frames w = .unlocking :: rest →
      b.readers = [] → ∃ b', Onward t b b' ∧ b'.readers = [] ∧ b'.writer = none ∧
        b'.frames t = b.frames t := by
    intro b rest stack free
    have taken : b.next (w, .go) = some { b.goto w rest with writer := none } := by
      simp only [next, stack, advance]
    exact ⟨_, .step w other taken (.refl _), free, rfl, Function.update_of_ne other.symm ..⟩
  have middle : ∀ {b : Bus F P} {topic : String} {fn : F} {rest : List (Frame F P)},
      b.frames w = .appending topic fn :: rest → b.readers = [] →
      ∃ b', Onward t b b' ∧ b'.readers = [] ∧ b'.writer = none ∧ b'.frames t = b.frames t := by
    intro b topic fn rest stack free
    have taken : b.next (w, .go) = some { b.goto w (.unlocking :: rest) with
        handlers := Function.update b.handlers topic (b.handlers topic ++ [fn]) } := by
      simp only [next, stack, advance]
    obtain ⟨b', onward, readers, writer, same⟩ :=
      last (b := { b.goto w (.unlocking :: rest) with
        handlers := Function.update b.handlers topic (b.handlers topic ++ [fn]) })
        (Function.update_self ..) free
    exact ⟨b', .step w other taken onward, readers, writer,
      same.trans (Function.update_of_ne other.symm ..)⟩
  cases stack : b.frames w with
  | nil =>
      rw [stack] at inside
      cases inside
  | cons f rest =>
      rw [stack] at inside
      cases f with
      | draining topic fn =>
          have taken : b.next (w, .go) = some (b.goto w (.appending topic fn :: rest)) := by
            simp only [next, stack, advance, free]
          obtain ⟨b', onward, readers, writer, same⟩ :=
            middle (b := b.goto w (.appending topic fn :: rest)) (Function.update_self ..) free
          exact ⟨b', .step w other taken onward, readers, writer,
            same.trans (Function.update_of_ne other.symm ..)⟩
      | appending topic fn => exact middle stack free
      | unlocking => exact last stack free
      | _ => cases inside

/-- **The bus never waits for a handler.**  In every run, whatever handlers call while they
run: a goroutine that runs a handler neither holds nor claims the lock, and one that stands
at a statement of the bus gets to execute it after statements of the bus on other goroutines
alone.  No handler has to do anything for it, and it never waits for itself. -/
theorem bus_never_stuck (reached : machine.Reachable b) :
    (∀ t fn payload rest, b.frames t = .handling fn payload :: rest →
      b.writer ≠ some t ∧ t ∉ b.readers) ∧
    ∀ t f rest, b.frames t = f :: rest → (∀ fn payload, f ≠ .handling fn payload) →
      ∃ b' b'', Onward t b b' ∧ b'.frames t = b.frames t ∧ b'.next (t, .go) = some b'' := by
  have l := locked reached
  refine ⟨?_, ?_⟩
  · intro t fn payload rest stack
    refine ⟨fun holds => ?_, fun reads => ?_⟩
    · have inside := (l.writer t).mp holds
      rw [stack] at inside
      cases inside
    · have inside := (l.reader t).mp reads
      rw [stack] at inside
      cases inside
  intro t f rest stack busy
  by_cases reads : t ∈ b.readers
  · -- a reader inside its section goes on at once
    have inside := (l.reader t).mp reads
    rw [stack] at inside
    refine ⟨b, ?_⟩
    cases f with
    | copying id topic payload => exact ⟨_, .refl b, rfl, by simp only [next, stack, advance]; rfl⟩
    | runlocking id payload handlers =>
        exact ⟨_, .refl b, rfl, by simp only [next, stack, advance]; rfl⟩
    | _ => cases inside
  obtain ⟨b', onward, l', readers, writer, same⟩ := l.drain reads
  have stack' : b'.frames t = f :: rest := same.trans stack
  by_cases claims : b'.writer = some t
  · -- so does the writer, once it has the lock for itself
    have inside := (l'.writer t).mp claims
    rw [stack'] at inside
    refine ⟨b', ?_⟩
    cases f with
    | draining topic fn =>
        exact ⟨_, onward, same, by simp only [next, stack', advance, readers]; rfl⟩
    | appending topic fn => exact ⟨_, onward, same, by simp only [next, stack', advance]; rfl⟩
    | unlocking => exact ⟨_, onward, same, by simp only [next, stack', advance]; rfl⟩
    | _ => cases inside
  -- anyone else finds the lock free after the writer
  obtain ⟨b₁, onward₁, readers₁, writer₁, same₁⟩ : ∃ b₁, Onward t b b₁ ∧ b₁.readers = [] ∧
      b₁.writer = none ∧ b₁.frames t = b.frames t := by
    cases holds : b'.writer with
    | none => exact ⟨b', onward, readers, holds, same⟩
    | some w =>
        have other : w ≠ t := by
          rintro rfl
          exact claims holds
        obtain ⟨b₁, onward₁, readers₁, writer₁, same₁⟩ := l'.leave holds other readers
        exact ⟨b₁, onward.trans onward₁, readers₁, writer₁, same₁.trans same⟩
  have stack₁ : b₁.frames t = f :: rest := same₁.trans stack
  refine ⟨b₁, ?_⟩
  cases f with
  | handling fn payload => exact absurd rfl (busy fn payload)
  | ranging id payload handlers =>
      cases handlers <;>
        exact ⟨_, onward₁, same₁, by simp only [next, stack₁, advance]; rfl⟩
  | draining topic fn =>
      exact ⟨_, onward₁, same₁, by simp only [next, stack₁, advance, readers₁]; rfl⟩
  | locking topic fn =>
      exact ⟨_, onward₁, same₁, by simp only [next, stack₁, advance, writer₁]; rfl⟩
  | rlocking id topic payload =>
      exact ⟨_, onward₁, same₁, by simp only [next, stack₁, advance, writer₁]; rfl⟩
  | _ => exact ⟨_, onward₁, same₁, by simp only [next, stack₁, advance]; rfl⟩

/-- A subscriber waits for a reader, and behind it a second publisher that came later. -/
theorem bus_never_stuck_queued :
    ∃ b : Bus Nat Nat, machine.Reachable b ∧ b.next (2, .go) = none ∧ b.next (1, .go) = none ∧
      ∃ b' b'', Onward 2 b b' ∧ b'.frames 2 = b.frames 2 ∧ b'.next (2, .go) = some b'' := by
  obtain ⟨b, reached, waits, queued, stack⟩ : ∃ b : Bus Nat Nat, machine.Reachable b ∧
      b.next (2, .go) = none ∧ b.next (1, .go) = none ∧
      b.frames 2 = [.rlocking 1 "transfer" 8] := by
    have reached : machine.Reachable _ :=
      Machine.exec_reach ([(0, .publish "transfer" 7), (0, .go), (1, .subscribe "transfer" 1),
        (1, .go), (2, .publish "transfer" 8)] : List (Nat × Input Nat Nat)) rfl
    exact ⟨_, reached, rfl, rfl, rfl⟩
  exact ⟨b, reached, waits, queued, (bus_never_stuck reached).2 2 _ [] stack (by simp)⟩

end Bus

end Portal.Event
