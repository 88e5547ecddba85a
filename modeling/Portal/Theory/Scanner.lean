/-
# Theory.Scanner — the lines of a stream that arrives in pieces

A scanner reads a stream into a buffer and hands out what stands before each separator.  The
buffer starts empty and doubles when it is full; at its limit a full buffer without a separator
ends the scan.  When the stream has ended or failed, what is left is handed out as a last line.

`Scanned` says how the stream, as far as it was read, is made of the lines handed out and of
what is in the buffer.  It holds whatever the sizes of the pieces were (`Scanned.step`), so the
lines are those of the text (`Scanned.lines_eq`).
-/
import Portal.Theory.Separator

namespace Portal.Theory

open Portal.Theory.Separator

set_option autoImplicit false

structure Scanner (α : Type) where
  /-- what was read and not handed out -/
  data : List α
  /-- the size of the buffer -/
  size : Nat
  /-- reading has failed, or the stream is at its end -/
  ended : Bool
  /-- nothing more is handed out -/
  stopped : Bool

namespace Scanner

/-- How large a buffer is at first, and at most. -/
structure Limits where
  first : Nat
  most : Nat

inductive Move (α : Type) where
  /-- a read returns these -/
  | read (piece : List α)
  /-- a read returns an error, the end of the stream among them -/
  | fail
  | grow
  /-- the buffer is full and cannot grow -/
  | overflow
  /-- a line is handed out -/
  | line
  /-- nothing is left -/
  | stop

/-- What a move reads. -/
def Move.piece {α : Type} : Move α → List α
  | .read piece => piece
  | _ => []

variable {α : Type} [DecidableEq α] (lim : Limits) (sep : α)

def new : Scanner α := ⟨[], 0, false, false⟩

/-- The line handed out next, and what is left in the buffer. -/
def token (s : Scanner α) : Option (List α × List α) :=
  match cut sep s.data with
  | some (line, rest) => some (line, rest)
  | none => if s.ended && !s.data.isEmpty then some (s.data, []) else none

/-- The next statement; the scanner reads only if it has no line to hand out. -/
def next (s : Scanner α) (move : Move α) : Option (Scanner α) :=
  if s.stopped then none
  else
    match move, s.token sep with
    | .line, some (_, rest) => some { s with data := rest }
    | .stop, none => if s.ended then some { s with stopped := true } else none
    | .read piece, none =>
        if s.ended = false ∧ piece ≠ [] ∧ s.data.length + piece.length ≤ s.size then
          some { s with data := s.data ++ piece }
        else none
    | .fail, none =>
        if s.ended = false ∧ s.data.length < s.size then some { s with ended := true } else none
    | .grow, none =>
        if s.ended = false ∧ s.data.length = s.size ∧ s.size < lim.most then
          some { s with size := min (if s.size = 0 then lim.first else 2 * s.size) lim.most }
        else none
    | .overflow, none =>
        if s.ended = false ∧ s.data.length = s.size ∧ lim.most ≤ s.size then
          some { s with stopped := true }
        else none
    | _, _ => none

/-- The line a move hands out. -/
def handed (s : Scanner α) : Move α → Option (List α)
  | .line => (s.token sep).map Prod.fst
  | _ => none

/-- The lines of a whole text; the last may have no separator behind it. -/
def linesOf : List α → List (List α)
  | [] => []
  | x :: xs =>
      if x = sep then [] :: linesOf xs
      else
        match linesOf xs with
        | [] => [[x]]
        | line :: lines => (x :: line) :: lines

/-- The stream so far is the lines handed out and what is in the buffer; the last line may have
no separator behind it.  The scan is over once there is nothing left, or if a line has no end
within the limit. -/
structure Scanned (s : Scanner α) (text : List α) (lines : List (List α)) : Prop where
  made : text = terminated sep lines ++ s.data ∨
    ∃ whole tail, lines = whole ++ [tail] ∧ tail ≠ [] ∧ text = terminated sep whole ++ tail ∧
      s.ended = true ∧ s.data = []
  free : ∀ line ∈ lines, sep ∉ line ∧ line.length < lim.most
  fits : s.data.length ≤ s.size ∧ s.size ≤ lim.most
  below : s.ended = true → s.data.length < lim.most
  stopped : s.stopped = true →
    (s.ended = true ∧ s.data = []) ∨ (s.ended = false ∧ s.data.length = lim.most ∧ sep ∉ s.data)

variable {lim : Limits} {sep : α} {s s' : Scanner α} {text : List α} {lines : List (List α)}

omit [DecidableEq α] in
theorem scanned_new : Scanned lim sep new [] [] where
  made := .inl rfl
  free := by rintro line ⟨⟩
  fits := ⟨Nat.le_refl 0, Nat.zero_le _⟩
  below := by rintro ⟨⟩
  stopped := by rintro ⟨⟩

/-- Without a line to hand out there is no separator, and at the end nothing at all. -/
theorem token_none (none_ : s.token sep = none) :
    sep ∉ s.data ∧ (s.ended = true → s.data = []) := by
  unfold token at none_
  split at none_
  · cases none_
  · rename_i uncut
    refine ⟨cut_eq_none_iff.mp uncut, fun ended => ?_⟩
    simpa [ended] using none_

/-- A line ends at a separator, or with the stream. -/
theorem token_some {line rest : List α} (found : s.token sep = some (line, rest)) :
    sep ∉ line ∧ (s.data = line ++ sep :: rest ∨
      (s.ended = true ∧ s.data = line ∧ line ≠ [] ∧ rest = [])) := by
  unfold token at found
  split at found
  · rename_i front back split_
    cases found
    exact ⟨cut_free split_, .inl (join_of_cut split_)⟩
  · rename_i uncut
    split at found
    · rename_i left
      cases found
      simp only [Bool.and_eq_true, Bool.not_eq_true', List.isEmpty_eq_false_iff] at left
      exact ⟨cut_eq_none_iff.mp uncut, .inr ⟨left.1, rfl, left.2, rfl⟩⟩
    · cases found

omit [DecidableEq α] in
theorem terminated_concat (words : List (List α)) (word : List α) :
    terminated sep (words ++ [word]) = terminated sep words ++ (word ++ [sep]) := by
  simp [terminated]

omit [DecidableEq α] in
/-- What is not in the buffer was handed out with separators, unless the stream has ended. -/
theorem Scanned.reading (scanned : Scanned lim sep s text lines)
    (more : s.ended = false ∨ s.data ≠ []) : text = terminated sep lines ++ s.data := by
  obtain made | ⟨_, _, _, _, _, ended, empty⟩ := scanned.made
  · exact made
  · rcases more with more | more
    · exact absurd ended (by simp [more])
    · exact absurd empty more

/-- **A line is handed out.** -/
theorem Scanned.line {line rest : List α} (scanned : Scanned lim sep s text lines)
    (running : s.stopped = false) (found : s.token sep = some (line, rest)) :
    Scanned lim sep { s with data := rest } text (lines ++ [line]) := by
  obtain ⟨free, whole | ⟨ended, whole, some_, rfl⟩⟩ := token_some found
  · have made := scanned.reading (.inr (by simp [whole]))
    have shorter : line.length + 1 + rest.length = s.data.length := by
      rw [whole, List.length_append, List.length_cons]
      omega
    obtain ⟨fits, most⟩ := scanned.fits
    refine ⟨.inl ?_, ?_, ⟨?_, most⟩, ?_, ?_⟩
    · rw [made, terminated_concat, whole]
      simp
    · intro l member
      rcases List.mem_append.mp member with before | last
      · exact scanned.free l before
      · cases List.mem_singleton.mp last
        exact ⟨free, by omega⟩
    · show rest.length ≤ s.size
      omega
    · intro ended
      show rest.length < lim.most
      have := scanned.below ended
      omega
    · intro over_
      exact absurd over_ (by simp [running])
  · have made := scanned.reading (.inr (by rw [whole]; exact some_))
    refine ⟨.inr ⟨lines, line, rfl, some_, ?_, ended, rfl⟩, ?_, ⟨Nat.zero_le _, scanned.fits.2⟩,
      ?_, ?_⟩
    · rw [made, whole]
    · intro l member
      rcases List.mem_append.mp member with before | last
      · exact scanned.free l before
      · cases List.mem_singleton.mp last
        exact ⟨free, whole ▸ scanned.below ended⟩
    · intro _
      exact Nat.lt_of_le_of_lt (Nat.zero_le _) (scanned.below ended)
    · intro over_
      exact absurd over_ (by simp [running])

omit [DecidableEq α] in
/-- While the stream goes on, what is read stands behind what is in the buffer. -/
theorem Scanned.goes (scanned : Scanned lim sep s text lines) (going : s.ended = false)
    (piece : List α) (data : s'.data = s.data ++ piece)
    (fits : s'.data.length ≤ s'.size ∧ s'.size ≤ lim.most)
    (below : s'.ended = true → s'.data.length < lim.most)
    (full : s'.stopped = true → s'.ended = false ∧ s'.data.length = lim.most ∧ sep ∉ s'.data) :
    Scanned lim sep s' (text ++ piece) lines where
  made := by
    rw [scanned.reading (.inl going), data, List.append_assoc]
    exact .inl rfl
  free := scanned.free
  fits := fits
  below := below
  stopped := fun stops => .inr (full stops)

/-- **Every move** keeps the account of the stream. -/
theorem Scanned.step {move : Move α} (scanned : Scanned lim sep s text lines)
    (taken : s.next lim sep move = some s') :
    Scanned lim sep s' (text ++ move.piece) (lines ++ (s.handed sep move).toList) := by
  unfold next at taken
  split at taken
  · cases taken
  rename_i running
  simp only [Bool.not_eq_true] at running
  obtain ⟨fits, most⟩ := scanned.fits
  cases found : s.token sep with
  | some pair =>
      obtain ⟨line, rest⟩ := pair
      cases move with
      | line =>
          simp only [found, Option.some.injEq] at taken
          subst taken
          simpa [handed, found, Move.piece] using scanned.line running found
      | _ => simp [found] at taken
  | none =>
      obtain ⟨free, over_⟩ := token_none found
      -- nothing is handed out
      have quiet : (s.handed sep move).toList = [] := by cases move <;> simp [handed, found]
      rw [quiet, List.append_nil]
      cases move with
      | line => simp [found] at taken
      | read piece =>
          simp only [found] at taken
          split at taken <;> cases taken
          rename_i may
          refine scanned.goes may.1 piece rfl ⟨?_, most⟩ (by simp [may.1]) (by simp [running])
          rw [List.length_append]
          exact may.2.2
      | fail =>
          simp only [found] at taken
          split at taken <;> cases taken
          rename_i may
          have below : s.data.length < lim.most := Nat.lt_of_lt_of_le may.2 most
          exact scanned.goes may.1 [] (List.append_nil _).symm ⟨fits, most⟩ (fun _ => below)
            (by simp [running])
      | grow =>
          simp only [found] at taken
          split at taken <;> cases taken
          rename_i may
          refine scanned.goes may.1 [] (List.append_nil _).symm ⟨?_, Nat.min_le_right ..⟩
            (by simp [may.1]) (by simp [running])
          show s.data.length ≤ min _ _
          split <;> omega
      | overflow =>
          simp only [found] at taken
          split at taken <;> cases taken
          rename_i may
          have full : s.data.length = lim.most := by omega
          exact scanned.goes may.1 [] (List.append_nil _).symm ⟨fits, most⟩ scanned.below
            fun _ => ⟨may.1, full, free⟩
      | stop =>
          simp only [found] at taken
          split at taken <;> cases taken
          rename_i ended
          show Scanned lim sep _ (text ++ []) lines
          rw [List.append_nil]
          exact ⟨scanned.made, scanned.free, scanned.fits, scanned.below,
            fun _ => .inl ⟨ended, over_ ended⟩⟩

/-! ### The whole text -/

theorem linesOf_cons {x : α} (other : x ≠ sep) {line text : List α} {rest : List (List α)}
    (lines : linesOf sep text = line :: rest) : linesOf sep (x :: text) = (x :: line) :: rest := by
  simp [linesOf, other, lines]

theorem linesOf_join {line : List α} (free : sep ∉ line) (text : List α) :
    linesOf sep (line ++ sep :: text) = line :: linesOf sep text := by
  induction line with
  | nil => simp [linesOf]
  | cons x line ih =>
      obtain ⟨other, free⟩ := not_or.mp (List.mem_cons.not.mp free)
      exact linesOf_cons (Ne.symm other) (ih free)

theorem linesOf_free {line : List α} (free : sep ∉ line) (some_ : line ≠ []) :
    linesOf sep line = [line] := by
  induction line with
  | nil => exact absurd rfl some_
  | cons x line ih =>
      obtain ⟨other, free⟩ := not_or.mp (List.mem_cons.not.mp free)
      cases line with
      | nil => simp [linesOf, Ne.symm other]
      | cons y line => exact linesOf_cons (Ne.symm other) (ih free (List.cons_ne_nil y line))

theorem linesOf_terminated {words : List (List α)} (free : ∀ word ∈ words, sep ∉ word)
    (tail : List α) : linesOf sep (terminated sep words ++ tail) = words ++ linesOf sep tail := by
  induction words with
  | nil => rfl
  | cons word words ih =>
      obtain ⟨first, rest⟩ := List.forall_mem_cons.mp free
      rw [terminated_cons, List.append_assoc, List.cons_append, linesOf_join first, ih rest]
      rfl

/-- With an empty buffer, the lines handed out are those of the text. -/
theorem Scanned.lines_eq (scanned : Scanned lim sep s text lines) (empty : s.data = []) :
    lines = linesOf sep text := by
  have free : ∀ line ∈ lines, sep ∉ line := fun line member => (scanned.free line member).1
  obtain made | ⟨whole, tail, rfl, some_, made, -, -⟩ := scanned.made
  · rw [made, empty, linesOf_terminated free]
    simp [linesOf]
  · obtain ⟨before, last⟩ := List.forall_mem_append.mp free
    rw [made, linesOf_terminated before, linesOf_free (last tail (List.mem_singleton_self tail)) some_]

end Scanner

end Portal.Theory
