/-
# Theory.Codec — writers, readers, and objects filled in place

A `Prim` writes and reads values of one type; its reader may panic.  `Inverse`
says that it reads back what it wrote, whatever follows.

A `Decoder` is a sequence of statements that read into an object that already
exists.  It returns what it leaves of the object also where it panics, so an
object that is used again may start the next decode half filled.

* `Fills d bytes s s'`: on `bytes`, whatever follows them, `d` turns the object
  `s` into `s'` and consumes exactly `bytes`.  One rule for each statement.
* `Uniform R d R'`: on objects related by `R`, `d` consumes the same bytes or
  panics in the same way, and leaves them related by `R'`.  Again one rule for
  each statement; where `R` and `R'` relate everything, whether the bytes decode
  does not depend on the object.
-/
import Mathlib.Logic.Nontrivial.Defs

namespace Portal.Theory.Codec

set_option autoImplicit false

universe u v w

variable {β : Type u} {α : Type v} {σ : Type w}

/-! ## Primitives -/

/-- A writer and a reader of one type; `.error` is a panic of the reader. -/
structure Prim (β : Type u) (α : Type v) where
  write : α → List β
  read : List β → Except String (α × List β)

/-- The reader reads back what the writer wrote. -/
def Prim.Inverse (p : Prim β α) : Prop := ∀ x rest, p.read (p.write x ++ rest) = .ok (x, rest)

/-- A read that does not panic takes bytes off the front, and their number meets `size`. -/
def Prim.Takes (p : Prim β α) (size : Nat → Prop) : Prop :=
  ∀ bs x rest, p.read bs = .ok (x, rest) → ∃ used, bs = used ++ rest ∧ size used.length

/-- An empty encoding would be read out of any other. -/
theorem Prim.Inverse.write_ne_nil [Nontrivial α] {p : Prim β α} (inverse : p.Inverse) (x : α) :
    p.write x ≠ [] := by
  intro empty
  obtain ⟨y, other⟩ := exists_ne x
  have first : p.read (p.write y) = .ok (x, p.write y) := by
    have read := inverse x (p.write y)
    rwa [empty, List.nil_append] at read
  have second : p.read (p.write y) = .ok (y, []) := by
    have read := inverse y []
    rwa [List.append_nil] at read
  rw [first, Except.ok.injEq, Prod.mk.injEq] at second
  exact other second.1.symm

/-! ## Decoders -/

/-- Statements that read into an object: what they leave of it, and the bytes that
are left or the panic. -/
def Decoder (β : Type u) (σ : Type w) := σ → List β → σ × Except String (List β)

namespace Decoder

/-- A statement that reads nothing. -/
def assign (f : σ → σ) : Decoder β σ := fun s bs => (f s, .ok bs)

/-- Read a local variable and go on with it. -/
def bind (p : Prim β α) (k : α → Decoder β σ) : Decoder β σ := fun s bs =>
  match p.read bs with
  | .error e => (s, .error e)
  | .ok (x, rest) => k x s rest

/-- Read a field. -/
def field (p : Prim β α) (set : σ → α → σ) : Decoder β σ := bind p fun x => assign (set · x)

def seq (d e : Decoder β σ) : Decoder β σ := fun s bs =>
  match d s bs with
  | (s', .error err) => (s', .error err)
  | (s', .ok rest) => e s' rest

/-- Statements under a condition on the fields read so far. -/
def onlyIf (cond : σ → Bool) (d : Decoder β σ) : Decoder β σ := fun s bs =>
  if cond s then d s bs else (s, .ok bs)

/-- Statements executed `n` times. -/
def loop : Nat → Decoder β σ → Decoder β σ
  | 0, _ => assign id
  | n + 1, d => seq d (loop n d)

/-! ## What a decoder does to well-formed bytes -/

def Fills (d : Decoder β σ) (bytes : List β) (s s' : σ) : Prop :=
  ∀ rest, d s (bytes ++ rest) = (s', .ok rest)

variable {d e : Decoder β σ} {p : Prim β α} {bytes more : List β} {s s' s'' : σ}

theorem Fills.assign (f : σ → σ) : Fills (β := β) (Decoder.assign f) [] s (f s) :=
  fun _ => rfl

theorem Fills.bind {k : α → Decoder β σ} (inverse : p.Inverse) {x : α}
    (then_ : Fills (k x) more s s') : Fills (Decoder.bind p k) (p.write x ++ more) s s' := by
  intro rest
  rw [List.append_assoc, Decoder.bind, inverse]
  exact then_ rest

theorem Fills.field {set : σ → α → σ} (inverse : p.Inverse) (x : α) :
    Fills (Decoder.field p set) (p.write x) s (set s x) := by
  intro rest
  rw [Decoder.field, Decoder.bind, inverse]
  rfl

theorem Fills.seq (first : Fills d bytes s s') (second : Fills e more s' s'') :
    Fills (Decoder.seq d e) (bytes ++ more) s s'' := by
  intro rest
  rw [List.append_assoc, Decoder.seq, first]
  exact second rest

theorem Fills.onlyIf {cond : σ → Bool} (holds : cond s = true) (inner : Fills d bytes s s') :
    Fills (Decoder.onlyIf cond d) bytes s s' := by
  intro rest
  rw [Decoder.onlyIf, if_pos holds]
  exact inner rest

theorem Fills.skipped {cond : σ → Bool} (fails : cond s = false) :
    Fills (Decoder.onlyIf cond d) [] s s := by
  intro rest
  rw [Decoder.onlyIf, if_neg (by rw [fails]; exact Bool.false_ne_true)]
  rfl

/-- A loop that appends one element in each round. -/
theorem Fills.loop {write : α → List β} {push : σ → α → σ}
    (round : ∀ s x, Fills d (write x) s (push s x)) (xs : List α) :
    Fills (Decoder.loop xs.length d) (xs.flatMap write) s (xs.foldl push s) := by
  induction xs generalizing s with
  | nil => exact Fills.assign id
  | cons x xs ih => exact (round s x).seq ih

/-! ## What does not depend on the object -/

def Uniform (R : σ → σ → Prop) (d : Decoder β σ) (R' : σ → σ → Prop) : Prop :=
  ∀ s t bs, R s t → (d s bs).2 = (d t bs).2 ∧
    ∀ rest, (d s bs).2 = .ok rest → R' (d s bs).1 (d t bs).1

variable {R R' R'' : σ → σ → Prop}

theorem Uniform.assign {f : σ → σ} (keeps : ∀ s t, R s t → R' (f s) (f t)) :
    Uniform (β := β) R (Decoder.assign f) R' :=
  fun s t _ related => ⟨rfl, fun _ _ => keeps s t related⟩

theorem Uniform.bind {k : α → Decoder β σ} (then_ : ∀ x, Uniform R (k x) R') :
    Uniform R (Decoder.bind p k) R' := by
  intro s t bs related
  unfold Decoder.bind
  split
  · exact ⟨rfl, fun _ ok => by cases ok⟩
  · rename_i x rest _
    exact then_ x s t rest related

theorem Uniform.field {set : σ → α → σ} (keeps : ∀ s t x, R s t → R' (set s x) (set t x)) :
    Uniform R (Decoder.field p set) R' :=
  Uniform.bind fun x => Uniform.assign fun s t => keeps s t x

theorem Uniform.seq (first : Uniform R d R') (second : Uniform R' e R'') :
    Uniform R (Decoder.seq d e) R'' := by
  intro s t bs related
  obtain ⟨same, keeps⟩ := first s t bs related
  unfold Decoder.seq
  cases left : d s bs with
  | mk s' out =>
      cases right : d t bs with
      | mk t' out' =>
          rw [left, right] at same
          simp only at same
          subst same
          cases out with
          | error err => exact ⟨rfl, fun _ ok => by cases ok⟩
          | ok rest =>
              have after := keeps rest (by rw [left])
              rw [left, right] at after
              exact second s' t' rest after

theorem Uniform.onlyIf {cond : σ → Bool} (agree : ∀ s t, R s t → cond s = cond t)
    (inner : Uniform R d R') (weaker : ∀ s t, R s t → R' s t) :
    Uniform R (Decoder.onlyIf cond d) R' := by
  intro s t bs related
  unfold Decoder.onlyIf
  rw [← agree s t related]
  split
  · exact inner s t bs related
  · exact ⟨rfl, fun _ _ => weaker s t related⟩

theorem Uniform.loop (round : Uniform R d R) (n : Nat) : Uniform R (Decoder.loop n d) R := by
  induction n with
  | zero => exact Uniform.assign fun _ _ related => related
  | succ n ih => exact round.seq ih

end Decoder

end Portal.Theory.Codec
