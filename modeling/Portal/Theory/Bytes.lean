/-
# Theory.Bytes — little-endian numbers, and primitives made of them

`le k n` are the `k` low bytes of `n`, lowest first, and `ofLE` puts them together
again (`ofLE_le`).  `fixed` makes a primitive of any type that a number of `k` bytes
represents; `counted` writes a list as its length and its elements.
-/
import Mathlib
import Portal.Theory.Codec

namespace Portal.Theory.Codec

set_option autoImplicit false

variable {α : Type}

/-! ## Little-endian numbers -/

def le : Nat → Nat → List UInt8
  | 0, _ => []
  | k + 1, n => UInt8.ofNat n :: le k (n / 256)

def ofLE : List UInt8 → Nat
  | [] => 0
  | b :: bs => b.toNat + 256 * ofLE bs

@[simp] theorem length_le (k n : Nat) : (le k n).length = k := by
  induction k generalizing n with
  | zero => rfl
  | succ k ih => rw [le, List.length_cons, ih]

theorem ofLE_le (k n : Nat) : ofLE (le k n) = n % 256 ^ k := by
  induction k generalizing n with
  | zero => simp [le, ofLE, Nat.mod_one]
  | succ k ih =>
      have low : (UInt8.ofNat n).toNat = n % 256 := UInt8.toNat_ofNat'
      rw [le, ofLE, ih, low, Nat.pow_succ', Nat.mod_mul]

theorem ofLE_le_of_lt {k n : Nat} (small : n < 256 ^ k) : ofLE (le k n) = n := by
  rw [ofLE_le, Nat.mod_eq_of_lt small]

/-! ## Primitives -/

/-- A type whose values are numbers of `k` bytes. -/
def fixed (k : Nat) (toNat : α → Nat) (ofNat : Nat → α) : Prim UInt8 α where
  write x := le k (toNat x)
  read bs :=
    if bs.length < k then .error "EOF" else .ok (ofNat (ofLE (bs.take k)), bs.drop k)

theorem fixed_inverse {k : Nat} {toNat : α → Nat} {ofNat : Nat → α}
    (small : ∀ x, toNat x < 256 ^ k) (back : ∀ x, ofNat (toNat x) = x) :
    (fixed k toNat ofNat).Inverse := by
  intro x rest
  have long : ¬ (le k (toNat x) ++ rest).length < k := by
    rw [List.length_append, length_le]
    omega
  have taken : (le k (toNat x) ++ rest).take k = le k (toNat x) := by
    rw [List.take_append_of_le_length (by rw [length_le]), List.take_of_length_le (by rw [length_le])]
  have dropped : (le k (toNat x) ++ rest).drop k = rest := by
    rw [List.drop_append_of_le_length (by rw [length_le]), List.drop_of_length_le (by rw [length_le]),
      List.nil_append]
  simp only [fixed, if_neg long, taken, dropped, ofLE_le_of_lt (small x), back]

theorem fixed_takes (k : Nat) (toNat : α → Nat) (ofNat : Nat → α) :
    (fixed k toNat ofNat).Takes (· = k) := by
  intro bs x rest read
  simp only [fixed] at read
  split at read
  · cases read
  · rename_i long
    obtain ⟨-, rfl⟩ := Prod.mk.inj (Except.ok.inj read)
    refine ⟨bs.take k, (List.take_append_drop k bs).symm, ?_⟩
    show (bs.take k).length = k
    rw [List.length_take]
    omega

/-- The number of elements in unary, then the elements. -/
def counted (p : Prim UInt8 α) : Prim UInt8 (List α) where
  write xs := List.replicate xs.length 1 ++ 0 :: xs.flatMap p.write
  read bs := do
    let (n, rest) ← count bs
    elements n rest
where
  count : List UInt8 → Except String (Nat × List UInt8)
    | [] => .error "EOF"
    | b :: bs => if b = 0 then .ok (0, bs) else (count bs).map fun (n, rest) => (n + 1, rest)
  elements : Nat → List UInt8 → Except String (List α × List UInt8)
    | 0, bs => .ok ([], bs)
    | n + 1, bs => do
        let (x, bs) ← p.read bs
        let (xs, bs) ← elements n bs
        return (x :: xs, bs)

theorem counted_count (n : Nat) (rest : List UInt8) :
    counted.count (List.replicate n 1 ++ 0 :: rest) = .ok (n, rest) := by
  induction n with
  | zero => rfl
  | succ n ih =>
      rw [List.replicate_succ, List.cons_append, counted.count, if_neg (by decide), ih]
      rfl

theorem counted_elements {p : Prim UInt8 α} (inverse : p.Inverse) (xs : List α)
    (rest : List UInt8) :
    counted.elements p xs.length (xs.flatMap p.write ++ rest) = .ok (xs, rest) := by
  induction xs with
  | nil => rfl
  | cons x xs ih =>
      rw [List.length_cons, List.flatMap_cons, List.append_assoc, counted.elements, inverse]
      simp only [bind, Except.bind, ih]
      rfl

theorem counted_count_takes {bs rest : List UInt8} {n : Nat}
    (read : counted.count bs = .ok (n, rest)) : ∃ used, bs = used ++ rest ∧ 1 ≤ used.length := by
  induction bs generalizing n with
  | nil => cases read
  | cons b bs ih =>
      rw [counted.count] at read
      split at read
      · obtain ⟨-, rfl⟩ := Prod.mk.inj (Except.ok.inj read)
        exact ⟨[b], rfl, Nat.le_refl 1⟩
      · cases inner : counted.count bs with
        | error err =>
            rw [inner] at read
            cases read
        | ok counted =>
            rw [inner] at read
            obtain ⟨-, rfl⟩ := Prod.mk.inj (Except.ok.inj read)
            obtain ⟨used, rfl, -⟩ := ih inner
            exact ⟨b :: used, rfl, Nat.le_add_left _ _⟩

theorem counted_elements_takes {p : Prim UInt8 α} {size : Nat → Prop} (takes : p.Takes size) {n : Nat}
    {bs rest : List UInt8} {xs : List α} (read : counted.elements p n bs = .ok (xs, rest)) :
    ∃ used, bs = used ++ rest := by
  induction n generalizing bs xs with
  | zero =>
      obtain ⟨-, rfl⟩ := Prod.mk.inj (Except.ok.inj read)
      exact ⟨[], rfl⟩
  | succ n ih =>
      rw [counted.elements] at read
      cases first : p.read bs with
      | error err =>
          rw [first] at read
          cases read
      | ok one =>
          rw [first] at read
          simp only [bind, Except.bind] at read
          cases others : counted.elements p n one.2 with
          | error err =>
              rw [others] at read
              cases read
          | ok more =>
              rw [others] at read
              obtain ⟨-, rfl⟩ := Prod.mk.inj (Except.ok.inj read)
              obtain ⟨used, rfl, -⟩ := takes bs one.1 one.2 first
              obtain ⟨used', same⟩ := ih others
              exact ⟨used ++ used', by rw [List.append_assoc, ← same]⟩

theorem counted_takes {p : Prim UInt8 α} {size : Nat → Prop} (takes : p.Takes size) :
    (counted p).Takes (1 ≤ ·) := by
  intro bs xs rest read
  simp only [counted] at read
  cases count : counted.count bs with
  | error err =>
      rw [count] at read
      cases read
  | ok counted =>
      rw [count] at read
      obtain ⟨used, rfl, positive⟩ := counted_count_takes count
      obtain ⟨used', same⟩ := counted_elements_takes takes read
      refine ⟨used ++ used', by rw [List.append_assoc, ← same], ?_⟩
      show 1 ≤ (used ++ used').length
      rw [List.length_append]
      omega

theorem counted_inverse {p : Prim UInt8 α} (inverse : p.Inverse) : (counted p).Inverse := by
  intro xs rest
  simp only [counted, List.append_assoc, List.cons_append, counted_count, bind, Except.bind]
  exact counted_elements inverse xs rest

end Portal.Theory.Codec
