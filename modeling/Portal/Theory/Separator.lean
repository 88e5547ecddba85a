/-
# Theory.Separator — two texts joined by a separator

`cut sep` splits a text at its first separator.  It inverts the join
`a ++ sep :: b` exactly when `a` is free of separators (`cut_join_iff`), and then
a text free of separators is a head of the join only if it is `a`
(`head_of_join`).  What has no separator and stands somewhere in the join stands in one
of its parts (`infix_join`).

Words with a separator behind each are told apart in the same way, however many they are
(`terminated_inj`).
-/
import Mathlib.Data.List.Basic

namespace Portal.Theory.Separator

set_option autoImplicit false

variable {α : Type} [DecidableEq α] {sep : α} {a b c : List α}

/-- Before and after the first separator, if there is one. -/
def cut (sep : α) : List α → Option (List α × List α)
  | [] => none
  | x :: xs => if x = sep then some ([], xs) else (cut sep xs).map fun p => (x :: p.1, p.2)

theorem cut_join (free : sep ∉ a) : cut sep (a ++ sep :: b) = some (a, b) := by
  induction a with
  | nil => simp [cut]
  | cons x a ih =>
      obtain ⟨ne, free⟩ := not_or.mp (List.mem_cons.not.mp free)
      simp [cut, Ne.symm ne, ih free]

theorem cut_free {whole : List α} (split : cut sep whole = some (a, b)) : sep ∉ a := by
  induction whole generalizing a with
  | nil => cases split
  | cons x whole ih =>
      unfold cut at split
      split at split
      · cases split
        exact List.not_mem_nil
      · rename_i ne
        obtain ⟨p, tail, rfl, rfl⟩ := by simpa using split
        simp [Ne.symm ne, ih tail]

theorem cut_eq_none_iff {whole : List α} : cut sep whole = none ↔ sep ∉ whole := by
  induction whole with
  | nil => simp [cut]
  | cons x whole ih =>
      by_cases same : x = sep
      · simp [cut, same]
      · simp [cut, same, Ne.symm same, ih]

theorem join_of_cut {whole : List α} (split : cut sep whole = some (a, b)) : whole = a ++ sep :: b := by
  induction whole generalizing a with
  | nil => cases split
  | cons x whole ih =>
      unfold cut at split
      split at split
      · rename_i same
        cases split
        rw [same, List.nil_append]
      · obtain ⟨p, tail, rfl, rfl⟩ := by simpa using split
        rw [List.cons_append, ← ih tail]

theorem cut_join_iff : cut sep (a ++ sep :: b) = some (a, b) ↔ sep ∉ a :=
  ⟨cut_free, cut_join⟩

theorem join_inj {d : List α} (free : sep ∉ a) (free' : sep ∉ c)
    (same : a ++ sep :: b = c ++ sep :: d) : a = c ∧ b = d := by
  have cuts := congrArg (cut sep) same
  rw [cut_join free, cut_join free', Option.some.injEq] at cuts
  exact Prod.mk.inj cuts

/-- Two joins agree on their first part if the parts are free of separators. -/
theorem head_of_join (free : sep ∉ a) (free' : sep ∉ b) (head : (a ++ [sep]) <+: (b ++ sep :: c)) :
    a = b := by
  obtain ⟨rest, same⟩ := head
  rw [List.append_assoc, List.singleton_append] at same
  exact (join_inj free free' same).1

/-- Words, each with a separator behind it. -/
def terminated (sep : α) (words : List (List α)) : List α := words.flatMap (· ++ [sep])

omit [DecidableEq α] in
theorem terminated_cons (sep : α) (word : List α) (words : List (List α)) :
    terminated sep (word :: words) = word ++ sep :: terminated sep words := by
  rw [terminated, List.flatMap_cons, List.append_assoc]
  rfl

/-- The words can be told apart if none of them contains a separator. -/
theorem terminated_inj {words words' : List (List α)} (free : ∀ word ∈ words, sep ∉ word)
    (free' : ∀ word ∈ words', sep ∉ word) (same : terminated sep words = terminated sep words') :
    words = words' := by
  induction words generalizing words' with
  | nil =>
      cases words' with
      | nil => rfl
      | cons word words' =>
          rw [terminated_cons] at same
          exact absurd same.symm (List.append_ne_nil_of_right_ne_nil _ (List.cons_ne_nil _ _))
  | cons word words ih =>
      cases words' with
      | nil =>
          rw [terminated_cons] at same
          exact absurd same (List.append_ne_nil_of_right_ne_nil _ (List.cons_ne_nil _ _))
      | cons word' words' =>
          rw [terminated_cons, terminated_cons] at same
          obtain ⟨first, others⟩ := List.forall_mem_cons.mp free
          obtain ⟨first', others'⟩ := List.forall_mem_cons.mp free'
          obtain ⟨rfl, rest⟩ := join_inj first first' same
          rw [ih others others' rest]

omit [DecidableEq α] in
theorem infix_join (free : sep ∉ c) (inside : c <:+: a ++ sep :: b) : c <:+: a ∨ c <:+: b := by
  obtain ⟨before, after, whole⟩ := inside
  obtain ⟨tail, front, back⟩ | ⟨tail, front, back⟩ := List.append_eq_append_iff.mp whole
  · exact .inl ⟨before, tail, front.symm⟩
  · cases tail with
    | nil => exact .inl ⟨before, [], by simpa using front⟩
    | cons x tail =>
        obtain ⟨rfl, rest⟩ := List.cons.inj back
        -- `c` reaches beyond the separator, so it begins behind it
        obtain ⟨gap, left, right⟩ | ⟨gap, left, right⟩ := List.append_eq_append_iff.mp front
        · exact absurd (right ▸ by simp) free
        · cases gap with
          | nil =>
              rw [List.nil_append] at right
              exact absurd (right ▸ List.mem_cons_self) free
          | cons y gap =>
              obtain ⟨-, rfl⟩ := List.cons.inj right
              exact .inr ⟨gap, after, rest.symm⟩

end Portal.Theory.Separator
