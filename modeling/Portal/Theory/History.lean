/-
# Theory.History — what every entry of a log has, given the entries before it

A log grows at its end, so an entry keeps the entries before it.  `Each P log` says of
every entry that it has `P` in view of those; one more entry needs one more reason
(`each_concat`).
-/
import Mathlib.Init

namespace Portal.Theory.History

set_option autoImplicit false

universe u

variable {ε : Type u}

/-- Every entry has `P`, given the entries before it. -/
def Each (P : List ε → ε → Prop) (log : List ε) : Prop :=
  ∀ before entry after, log = before ++ entry :: after → P before entry

variable {P Q : List ε → ε → Prop} {log : List ε} {entry : ε}

theorem each_nil : Each P [] := by
  intro before entry after split
  simp at split

theorem each_concat (each : Each P log) (last : P log entry) : Each P (log ++ [entry]) := by
  intro before entry' after split
  rcases List.eq_nil_or_concat after with rfl | ⟨after, tail, rfl⟩
  · obtain ⟨rfl, same⟩ := List.append_inj' split rfl
    cases same
    exact last
  · rw [List.concat_eq_append, ← List.cons_append, ← List.append_assoc] at split
    exact each before entry' after (List.append_inj' split rfl).1

/-- An entry of the log, with the entries before it. -/
theorem Each.of_mem (each : Each P log) (member : entry ∈ log) :
    ∃ before after, log = before ++ entry :: after ∧ P before entry := by
  obtain ⟨before, after, split⟩ := List.append_of_mem member
  exact ⟨before, after, split, each before entry after split⟩

theorem Each.mono (each : Each P log) (imp : ∀ before entry, P before entry → Q before entry) :
    Each Q log :=
  fun before entry after split => imp _ _ (each before entry after split)

end Portal.Theory.History
