/-
# Theory.Frames — counted frames, and sends that may stop inside one

A frame is a payload after its length, a little-endian number of `width` bytes.  `parse`
is what a receiver makes of the bytes it has: the payloads of the whole frames at their
front, until less than a frame is left.

An `Attempt` is a send of one frame of which the first `sent` bytes went out.  As long as
nothing is sent after an attempt that stopped inside its frame, the receiver parses
exactly the frames that went out whole (`parse_attempts`).
-/
import Portal.Theory.Bytes

namespace Portal.Theory.Frames

open Portal.Theory.Codec

set_option autoImplicit false

variable {width : Nat}

def frame (width : Nat) (payload : List UInt8) : List UInt8 := le width payload.length ++ payload

theorem length_frame (width : Nat) (payload : List UInt8) :
    (frame width payload).length = width + payload.length := by
  rw [frame, List.length_append, length_le]

/-! ## The receiver -/

def parseFrom (width : Nat) : Nat → List UInt8 → List (List UInt8)
  | 0, _ => []
  | fuel + 1, bytes =>
      let size := ofLE (bytes.take width)
      if width ≤ bytes.length ∧ size ≤ bytes.length - width then
        (bytes.drop width).take size :: parseFrom width fuel ((bytes.drop width).drop size)
      else []

/-- There are no more frames than bytes. -/
def parse (width : Nat) (bytes : List UInt8) : List (List UInt8) :=
  parseFrom width bytes.length bytes

theorem parseFrom_short {bytes : List UInt8} (short : bytes.length < width) (fuel : Nat) :
    parseFrom width fuel bytes = [] := by
  cases fuel with
  | zero => rfl
  | succ fuel => rw [parseFrom, if_neg (by omega)]

/-- More fuel than bytes changes nothing. -/
theorem parseFrom_fuel (positive : 0 < width) {fuel fuel' : Nat} {bytes : List UInt8}
    (enough : bytes.length ≤ fuel) (enough' : bytes.length ≤ fuel') :
    parseFrom width fuel bytes = parseFrom width fuel' bytes := by
  induction fuel generalizing fuel' bytes with
  | zero => rw [parseFrom_short (by omega), parseFrom_short (by omega)]
  | succ fuel ih =>
      cases fuel' with
      | zero => rw [parseFrom_short (by omega), parseFrom_short (by omega)]
      | succ fuel' =>
          simp only [parseFrom]
          split
          · have less : ((bytes.drop width).drop (ofLE (bytes.take width))).length < bytes.length := by
              simp only [List.length_drop]
              omega
            exact congrArg _ (ih (by omega) (by omega))
          · rfl

section Payload

variable {payload : List UInt8}

theorem take_frame_append (payload rest : List UInt8) :
    (frame width payload ++ rest).take width = le width payload.length := by
  rw [frame, List.append_assoc, List.take_append_of_le_length (by rw [length_le]),
    List.take_of_length_le (by rw [length_le])]

theorem drop_frame_append (payload rest : List UInt8) :
    (frame width payload ++ rest).drop width = payload ++ rest := by
  rw [frame, List.append_assoc, List.drop_append_of_le_length (by rw [length_le]),
    List.drop_of_length_le (by rw [length_le]), List.nil_append]

/-- A whole frame is parsed, then what follows it. -/
theorem parse_frame_append (positive : 0 < width) (counts : payload.length < 256 ^ width)
    (rest : List UInt8) :
    parse width (frame width payload ++ rest) = payload :: parse width rest := by
  have total : (frame width payload ++ rest).length = width + payload.length + rest.length := by
    rw [List.length_append, length_frame]
  have enough : (frame width payload ++ rest).length ≤
      (width + payload.length + rest.length - 1) + 1 := by omega
  rw [parse, parseFrom_fuel positive (Nat.le_refl _) enough, parseFrom]
  simp only [take_frame_append, drop_frame_append, ofLE_le_of_lt counts, total]
  rw [if_pos (by omega), List.take_left, List.drop_left]
  rw [parse, parseFrom_fuel positive (by omega) (Nat.le_refl _)]

/-- Less than a frame is not parsed. -/
theorem parse_take_frame (counts : payload.length < 256 ^ width) {n : Nat}
    (less : n < width + payload.length) : parse width ((frame width payload).take n) = [] := by
  have size : ((frame width payload).take n).length = n := by
    rw [List.length_take, length_frame]
    omega
  rw [parse, size]
  cases n with
  | zero => rfl
  | succ n =>
      by_cases short : n + 1 < width
      · exact parseFrom_short (by omega) _
      · have head : ((frame width payload).take (n + 1)).take width = le width payload.length := by
          have whole : (frame width payload ++ []).take width = _ := take_frame_append payload []
          rw [List.append_nil] at whole
          rw [List.take_take, Nat.min_eq_left (by omega), whole]
        rw [parseFrom]
        simp only [head, size, ofLE_le_of_lt counts]
        rw [if_neg (by omega)]

end Payload

/-! ## Sends that may fail -/

/-- A send of one frame: how many of its bytes went out. -/
structure Attempt where
  payload : List UInt8
  sent : Nat
  deriving DecidableEq, Repr

namespace Attempt

def bytes (width : Nat) (a : Attempt) : List UInt8 := (frame width a.payload).take a.sent

def whole (width : Nat) (a : Attempt) : Bool := width + a.payload.length ≤ a.sent

/-- It stopped inside the frame. -/
def torn (width : Nat) (a : Attempt) : Bool := 0 < a.sent && !a.whole width

theorem bytes_whole {a : Attempt} (whole : a.whole width = true) :
    a.bytes width = frame width a.payload := by
  have all : width + a.payload.length ≤ a.sent := of_decide_eq_true whole
  rw [bytes, List.take_of_length_le (by rw [length_frame]; exact all)]

theorem flatMap_bytes_unsent {attempts : List Attempt} (unsent : ∀ a ∈ attempts, a.sent = 0) :
    attempts.flatMap (bytes width) = [] := by
  refine List.flatMap_eq_nil_iff.mpr fun a member => ?_
  rw [bytes, unsent a member, List.take_zero]

theorem not_whole_unsent (positive : 0 < width) {a : Attempt} (unsent : a.sent = 0) :
    a.whole width = false := by
  refine decide_eq_false ?_
  omega

end Attempt

/-- **The receiver parses the frames that went out whole**, if nothing was sent after a
send that stopped inside its frame. -/
theorem parse_attempts (positive : 0 < width) (attempts : List Attempt)
    (counts : ∀ a ∈ attempts, a.payload.length < 256 ^ width)
    (tidy : attempts.Pairwise fun a b => a.torn width = true → b.sent = 0) :
    parse width (attempts.flatMap (Attempt.bytes width)) =
      (attempts.filter (Attempt.whole width)).map Attempt.payload := by
  induction attempts with
  | nil => rfl
  | cons a attempts ih =>
      obtain ⟨after, tidy⟩ := List.pairwise_cons.mp tidy
      have count := counts a (List.mem_cons_self ..)
      have rest := ih (fun b member => counts b (List.mem_cons_of_mem _ member)) tidy
      rw [List.flatMap_cons]
      cases whole : a.whole width with
      | true =>
          rw [Attempt.bytes_whole whole, parse_frame_append positive count, rest,
            List.filter_cons_of_pos whole, List.map_cons]
      | false =>
          rw [List.filter_cons_of_neg (by rw [whole]; exact Bool.false_ne_true)]
          by_cases unsent : a.sent = 0
          · rw [Attempt.bytes, unsent, List.take_zero, List.nil_append, rest]
          · have torn : a.torn width = true := by
              simp only [Attempt.torn, whole, Bool.not_false, Bool.and_true, decide_eq_true_iff]
              omega
            have nothing : ∀ b ∈ attempts, b.sent = 0 := fun b member => after b member torn
            have none : attempts.filter (Attempt.whole width) = [] := by
              refine List.filter_eq_nil_iff.mpr fun b member => ?_
              rw [Attempt.not_whole_unsent positive (nothing b member)]
              exact Bool.false_ne_true
            have part : a.sent < width + a.payload.length := Nat.lt_of_not_le (of_decide_eq_false whole)
            rw [Attempt.flatMap_bytes_unsent nothing, List.append_nil, none, Attempt.bytes,
              parse_take_frame count part, List.map_nil]

end Portal.Theory.Frames
