/-
# Theory.Carrier — exchanging two values of a type from within a narrower one

A program that exchanges two values `a` and `b` of a type `β` meets them in a
narrower type `α` as well: it widens, exchanges and narrows again.  A `Carrier` is
that pair of conversions, with the values of `α` it applies to; the others it
leaves alone.  Widening loses nothing.  Narrowing does, so the exchange within `α`
(`exchange`) is not an exchange any more if the carrier holds only one of `a` and `b`:
what the other one is narrowed to is then a value that already stands for itself.

`exchange_lossless_iff` says when it is harmless: the carrier holds both values or
neither, or it cannot tell them apart.
-/
import Mathlib.Logic.Equiv.Basic

namespace Portal.Theory

set_option autoImplicit false

/-- Nothing is lost by `f`: it is injective, and applying it again undoes it. -/
def Lossless {α : Type} (f : α → α) : Prop := f.Injective ∧ f.Involutive

theorem lossless_iff {α : Type} {f : α → α} : Lossless f ↔ f.Involutive :=
  ⟨fun lossless => lossless.2, fun involutive => ⟨involutive.injective, involutive⟩⟩

/-- A conversion of some values of `α` to a wider type and back. -/
structure Carrier (α β : Type) where
  carries : α → Bool
  widen : α → β
  narrow : β → α
  narrow_widen : ∀ x, carries x = true → narrow (widen x) = x

namespace Carrier

variable {α β : Type} (c : Carrier α β)

/-- The value comes from a value of the narrow type. -/
def Holds (v : β) : Prop := ∃ x, c.carries x = true ∧ c.widen x = v

variable {c} in
/-- Widening loses nothing. -/
theorem eq_of_widen_eq {x y : α} (carried_x : c.carries x = true) (carried_y : c.carries y = true)
    (same : c.widen x = c.widen y) : x = y := by
  rw [← c.narrow_widen x carried_x, same, c.narrow_widen y carried_y]

variable {c} in
/-- Only what a value is narrowed to can widen to it. -/
theorem holds_iff {v : β} :
    c.Holds v ↔ c.carries (c.narrow v) = true ∧ c.widen (c.narrow v) = v := by
  constructor
  · rintro ⟨x, carried, rfl⟩
    rw [c.narrow_widen x carried]
    exact ⟨carried, rfl⟩
  · rintro ⟨carried, widened⟩
    exact ⟨_, carried, widened⟩

variable [DecidableEq β] (a b : β)

/-- Widen, exchange `a` with `b`, and narrow. -/
def exchange (x : α) : α := if c.carries x then c.narrow (Equiv.swap a b (c.widen x)) else x

variable {c a b} {x : α}

theorem exchange_comm : c.exchange a b = c.exchange b a := by
  funext x
  simp only [exchange, Equiv.swap_comm]

/-- A value that is neither `a` nor `b` on the wide side stays. -/
theorem exchange_fixes (left : c.carries x = true → c.widen x ≠ a)
    (right : c.carries x = true → c.widen x ≠ b) : c.exchange a b x = x := by
  unfold exchange
  split
  · rename_i carried
    rw [Equiv.swap_apply_of_ne_of_ne (left carried) (right carried), c.narrow_widen x carried]
  · rfl

theorem exchange_of_eq (carried : c.carries x = true) (left : c.widen x = a) :
    c.exchange a b x = c.narrow b := by
  rw [exchange, if_pos carried, left, Equiv.swap_apply_left]

/-- The carrier holds `a` and `b`: the exchange within the narrow type is one. -/
theorem exchange_involutive_of_holds (left : c.Holds a) (right : c.Holds b) :
    (c.exchange a b).Involutive := by
  obtain ⟨y, carried_y, rfl⟩ := left
  obtain ⟨z, carried_z, rfl⟩ := right
  have onto_z : c.exchange (c.widen y) (c.widen z) y = z :=
    (exchange_of_eq carried_y rfl).trans (c.narrow_widen z carried_z)
  have onto_y : c.exchange (c.widen y) (c.widen z) z = y := by
    rw [exchange_comm]
    exact (exchange_of_eq carried_z rfl).trans (c.narrow_widen y carried_y)
  intro x
  by_cases first : x = y
  · rw [first, onto_z, onto_y]
  · by_cases second : x = z
    · rw [second, onto_y, onto_z]
    · have fixed : c.exchange (c.widen y) (c.widen z) x = x :=
        exchange_fixes (fun carried same => first (eq_of_widen_eq carried carried_y same))
          fun carried same => second (eq_of_widen_eq carried carried_z same)
      rw [fixed, fixed]

/-- The carrier holds neither: nothing happens. -/
theorem exchange_involutive_of_not_holds (left : ¬ c.Holds a) (right : ¬ c.Holds b) :
    (c.exchange a b).Involutive := by
  have fixed : ∀ x, c.exchange a b x = x := fun x =>
    exchange_fixes (fun carried same => left ⟨x, carried, same⟩)
      fun carried same => right ⟨x, carried, same⟩
  intro x
  rw [fixed, fixed]

/-- The carrier holds `a` only: its value moves to what `b` is narrowed to and stays
there. -/
theorem exchange_involutive_of_left (left : c.Holds a) (right : ¬ c.Holds b) :
    (c.exchange a b).Involutive ↔ c.narrow a = c.narrow b := by
  obtain ⟨y, carried, rfl⟩ := left
  have moved : c.exchange (c.widen y) b y = c.narrow b := exchange_of_eq carried rfl
  have fixed : ∀ x, x ≠ y → c.exchange (c.widen y) b x = x := fun x apart =>
    exchange_fixes (fun carried_x same => apart (eq_of_widen_eq carried_x carried same))
      fun carried_x same => right ⟨x, carried_x, same⟩
  rw [c.narrow_widen y carried]
  constructor
  · intro involutive
    apply Classical.byContradiction
    intro apart
    have back := involutive y
    rw [moved, fixed _ (Ne.symm apart)] at back
    exact apart back.symm
  · intro same x
    by_cases own : x = y
    · rw [own, moved, ← same, moved, ← same]
    · rw [fixed x own, fixed x own]

/-- **When an exchange survives narrowing.** -/
theorem exchange_lossless_iff :
    Lossless (c.exchange a b) ↔ (c.Holds a ↔ c.Holds b) ∨ c.narrow a = c.narrow b := by
  rw [lossless_iff]
  by_cases left : c.Holds a <;> by_cases right : c.Holds b
  · exact iff_of_true (exchange_involutive_of_holds left right) (.inl (iff_of_true left right))
  · rw [exchange_involutive_of_left left right]
    simp [left, right]
  · rw [exchange_comm, exchange_involutive_of_left right left, eq_comm]
    simp [left, right]
  · exact iff_of_true (exchange_involutive_of_not_holds left right) (.inl (iff_of_false left right))

end Carrier

end Portal.Theory
