/-
# Transport — the UDP ports of the NetherNet listener

`parseNetherNetPortRange` reads `Options.NetherNet.UDPPorts`: nothing, one port, or the two
ends of a range.  `strconv.ParseUint` is a parameter; `ParsesUint16` is what is assumed of
it.  The parser accepts exactly these three forms, and what it returns is never an empty
range (`portRange_accepts`).
-/
import Portal.Theory.Separator

namespace Portal

open Portal.Theory.Separator

set_option autoImplicit false

/-- `netherNetPortRange`. -/
structure NetherNetPortRange where
  min : UInt16
  max : UInt16
  deriving DecidableEq, Repr

/-- `parseNetherNetPortRange`; `parseUint s` is `strconv.ParseUint(s, 10, 16)`. -/
def parseNetherNetPortRange (parseUint : String → Except String UInt64) (s : String) :
    Except String NetherNetPortRange :=
  if s = "" then .ok ⟨0, 0⟩
  else
    match cut '-' s.toList with
    | none =>
        match parseUint s with
        | .error err => .error ("parse port: " ++ err)
        | .ok v => .ok ⟨v.toUInt16, v.toUInt16⟩
    | some (min, max) =>
        match parseUint (String.ofList min) with
        | .error err => .error ("parse minimum port: " ++ err)
        | .ok minV =>
            match parseUint (String.ofList max) with
            | .error err => .error ("parse maximum port: " ++ err)
            | .ok maxV =>
                if minV > maxV then
                  .error ("invalid port range: " ++ toString minV ++ "-" ++ toString maxV)
                else .ok ⟨minV.toUInt16, maxV.toUInt16⟩

/-- A text of decimal digits, with its value. -/
def Digits (s : String) (value : Nat) : Prop :=
  s ≠ "" ∧ (∀ c ∈ s.toList, c.isDigit = true) ∧ Nat.ofDigitChars 10 s.toList 0 = value

/-- `strconv.ParseUint(s, 10, 16)` accepts the texts of digits whose value is at most 65535,
and returns the value. -/
def ParsesUint16 (parseUint : String → Except String UInt64) : Prop :=
  ∀ s v, parseUint s = .ok v ↔ Digits s v.toNat ∧ v.toNat ≤ 65535

theorem Digits.no_minus {s : String} {value : Nat} (digits : Digits s value) : '-' ∉ s.toList := by
  intro minus
  have digit := digits.2.1 _ minus
  revert digit
  decide

theorem digits_toString (n : Nat) : Digits (toString n) n := by
  have text : (toString n).toList = Nat.toDigits 10 n := by
    rw [Nat.toString_eq_repr, Nat.toList_repr]
  refine ⟨?_, ?_, ?_⟩
  · intro empty
    rw [empty] at text
    exact Nat.toDigits_ne_nil text.symm
  · intro c in_
    rw [text] at in_
    exact Nat.isDigit_of_mem_toDigits (by decide) (by decide) in_
  · rw [text]
    exact Nat.ofDigitChars_toDigits (by decide) (by decide)

section Accepts

variable {parseUint : String → Except String UInt64} {s t u : String} {r : NetherNetPortRange}
  {a b : UInt16}

/-- A port as it is parsed. -/
theorem ParsesUint16.accepts (parses : ParsesUint16 parseUint) (digits : Digits s a.toNat) :
    parseUint s = .ok a.toUInt64 := by
  have bound := a.toNat_lt
  refine (parses s a.toUInt64).mpr ?_
  rw [UInt16.toNat_toUInt64]
  exact ⟨digits, by omega⟩

/-- What is parsed is a port, and the conversion to `uint16` keeps it. -/
theorem ParsesUint16.port (parses : ParsesUint16 parseUint) {v : UInt64} (ok : parseUint s = .ok v) :
    Digits s v.toUInt16.toNat ∧ v.toUInt16.toNat = v.toNat := by
  obtain ⟨digits, bound⟩ := (parses s v).mp ok
  have kept : v.toUInt16.toNat = v.toNat := by
    rw [UInt64.toNat_toUInt16]
    omega
  rw [kept]
  exact ⟨digits, rfl⟩

theorem portRange_single (parses : ParsesUint16 parseUint) (digits : Digits s a.toNat) :
    parseNetherNetPortRange parseUint s = .ok ⟨a, a⟩ := by
  rw [parseNetherNetPortRange, if_neg digits.1, cut_eq_none_iff.mpr digits.no_minus,
    parses.accepts digits]
  simp only [UInt16.toUInt16_toUInt64]

theorem portRange_range (parses : ParsesUint16 parseUint) (first : Digits t a.toNat)
    (second : Digits u b.toNat) (le : a ≤ b) :
    parseNetherNetPortRange parseUint (t ++ "-" ++ u) = .ok ⟨a, b⟩ := by
  have text : (t ++ "-" ++ u).toList = t.toList ++ '-' :: u.toList := by
    simp
  have nonempty : t ++ "-" ++ u ≠ "" := by
    intro empty
    rw [empty] at text
    simp at text
  have ordered : ¬ a.toUInt64 > b.toUInt64 := by
    rw [gt_iff_lt, UInt64.lt_iff_toNat_lt, UInt16.toNat_toUInt64, UInt16.toNat_toUInt64]
    have le := UInt16.le_iff_toNat_le.mp le
    omega
  rw [parseNetherNetPortRange, if_neg nonempty, text, cut_join first.no_minus]
  simp only [String.ofList_toList, parses.accepts first, parses.accepts second, if_neg ordered,
    UInt16.toUInt16_toUInt64]

/-- What is accepted is one of the three forms. -/
theorem portRange_ok (parses : ParsesUint16 parseUint)
    (ok : parseNetherNetPortRange parseUint s = .ok r) :
    (s = "" ∧ r = ⟨0, 0⟩) ∨ (∃ a : UInt16, Digits s a.toNat ∧ r = ⟨a, a⟩) ∨
      ∃ (t u : String) (a b : UInt16), s = t ++ "-" ++ u ∧ Digits t a.toNat ∧ Digits u b.toNat ∧
        a ≤ b ∧ r = ⟨a, b⟩ := by
  unfold parseNetherNetPortRange at ok
  by_cases empty : s = ""
  · rw [if_pos empty] at ok
    exact .inl ⟨empty, (Except.ok.inj ok).symm⟩
  · rw [if_neg empty] at ok
    right
    cases split : cut '-' s.toList with
    | none =>
        rw [split] at ok
        left
        cases parsed : parseUint s with
        | error err =>
            rw [parsed] at ok
            cases ok
        | ok v =>
            rw [parsed] at ok
            exact ⟨v.toUInt16, (parses.port parsed).1, (Except.ok.inj ok).symm⟩
    | some parts =>
        obtain ⟨min, max⟩ := parts
        rw [split] at ok
        simp only at ok
        right
        cases first : parseUint (String.ofList min) with
        | error err =>
            rw [first] at ok
            cases ok
        | ok minV =>
            rw [first] at ok
            simp only at ok
            cases second : parseUint (String.ofList max) with
            | error err =>
                rw [second] at ok
                cases ok
            | ok maxV =>
                rw [second] at ok
                simp only at ok
                split at ok
                · cases ok
                · rename_i ordered
                  obtain ⟨minDigits, minKept⟩ := parses.port first
                  obtain ⟨maxDigits, maxKept⟩ := parses.port second
                  refine ⟨String.ofList min, String.ofList max, minV.toUInt16, maxV.toUInt16, ?_,
                    minDigits, maxDigits, ?_, (Except.ok.inj ok).symm⟩
                  · apply String.toList_inj.mp
                    rw [join_of_cut split]
                    simp
                  · rw [gt_iff_lt, UInt64.lt_iff_toNat_lt] at ordered
                    rw [UInt16.le_iff_toNat_le, minKept, maxKept]
                    omega

end Accepts

/-- **What the parser accepts.**  Every text: it is accepted exactly if it is empty, a port,
or two ports with a `-` between them of which the first is not the larger one, and the
result is the range it denotes.  The rendering of any range is read back. -/
theorem portRange_accepts (parseUint : String → Except String UInt64)
    (parses : ParsesUint16 parseUint) :
    (∀ s r, parseNetherNetPortRange parseUint s = .ok r ↔
      (s = "" ∧ r = ⟨0, 0⟩) ∨ (∃ a : UInt16, Digits s a.toNat ∧ r = ⟨a, a⟩) ∨
        ∃ (t u : String) (a b : UInt16), s = t ++ "-" ++ u ∧ Digits t a.toNat ∧
          Digits u b.toNat ∧ a ≤ b ∧ r = ⟨a, b⟩) ∧
    (∀ s r, parseNetherNetPortRange parseUint s = .ok r → r.min ≤ r.max) ∧
    ∀ a b : UInt16, a ≤ b →
      parseNetherNetPortRange parseUint (toString a.toNat ++ "-" ++ toString b.toNat) = .ok ⟨a, b⟩ := by
  refine ⟨?_, ?_, ?_⟩
  · intro s r
    refine ⟨portRange_ok parses, ?_⟩
    rintro (⟨rfl, rfl⟩ | ⟨a, digits, rfl⟩ | ⟨t, u, a, b, rfl, first, second, le, rfl⟩)
    · rfl
    · exact portRange_single parses digits
    · exact portRange_range parses first second le
  · intro s r ok
    rcases portRange_ok parses ok with ⟨-, rfl⟩ | ⟨a, -, rfl⟩ | ⟨-, -, a, b, -, -, -, le, rfl⟩
    · exact UInt16.le_refl 0
    · exact UInt16.le_refl a
    · exact le
  · intro a b le
    exact portRange_range parses (digits_toString _) (digits_toString _) le

/-- A `ParseUint` to run the parser with. -/
def parseUint16 (s : String) : Except String UInt64 :=
  let value := Nat.ofDigitChars 10 s.toList 0
  if s ≠ "" ∧ s.toList.all Char.isDigit = true ∧ value ≤ 65535 then .ok (UInt64.ofNat value)
  else .error "invalid port"

theorem parsesUint16 : ParsesUint16 parseUint16 := by
  intro s v
  unfold parseUint16
  constructor
  · intro ok
    simp only at ok
    split at ok
    · rename_i accepted
      obtain ⟨nonempty, digits, bound⟩ := accepted
      obtain rfl := Except.ok.inj ok
      rw [UInt64.toNat_ofNat_of_lt' (Nat.lt_of_le_of_lt bound (by decide))]
      exact ⟨⟨nonempty, List.all_eq_true.mp digits, rfl⟩, bound⟩
    · cases ok
  · rintro ⟨⟨nonempty, digits, value⟩, bound⟩
    simp only [value]
    rw [if_pos ⟨nonempty, List.all_eq_true.mpr digits, bound⟩, UInt64.ofNat_toNat]

/-- A range, a port with leading zeros, and a range the wrong way round. -/
theorem portRange_accepts_some :
    parseNetherNetPortRange parseUint16 "19132-19200" = .ok ⟨19132, 19200⟩ ∧
      parseNetherNetPortRange parseUint16 "00080" = .ok ⟨80, 80⟩ ∧
      parseNetherNetPortRange parseUint16 "2-1" = .error "invalid port range: 2-1" :=
  ⟨(portRange_accepts parseUint16 parsesUint16).2.2 19132 19200 (by decide), by decide, by decide⟩

end Portal
