/-
# Session.Carriers — entity IDs that a packet has in another integer type

A runtime ID is a `uint64` and a unique ID an `int64`, but `AddVolumeEntity` and
`RemoveVolumeEntity` have the first as a `uint32`, `Event` as an `int64`, and entity
metadata either of them in any integer type.  The translator converts to 64 bits,
exchanges, and converts back, so each of these types is a `Carrier`.

An ID that does not fit the type is cut off on the way back.  If only one of the
player's two IDs fits, the other one becomes the number of some other entity, and what
was translated cannot be translated back (`volume_ids_collide`).
`narrow_carriers_lossless` lists for each type what the two IDs must be like
(`RuntimeIDsFit`, `UniqueIDsFit`); 64-bit carriers that skip no value need nothing.

Of a metadata map only the values under six keys are IDs.  They are looked up one after
the other, which gives what a scan over all entries would (`entityMetadata_eq_scan`).
-/
import Mathlib
import Portal.Theory.Carrier
import Portal.Session.Involution

namespace Portal

open Portal.Theory

set_option autoImplicit false

/-! ## The conversions -/

theorem toInt_toInt64 (v : UInt64) :
    v.toInt64.toInt = if v.toNat < 2 ^ 63 then (v.toNat : Int) else v.toNat - 2 ^ 64 := by
  show v.toBitVec.toInt = _
  rw [BitVec.toInt_eq_toNat_cond]
  show (if 2 * v.toNat < 2 ^ 64 then (v.toNat : Int) else v.toNat - (2 ^ 64 : Nat)) = _
  split <;> split <;> omega

theorem toInt_toInt32 (v : UInt32) :
    v.toInt32.toInt = if v.toNat < 2 ^ 31 then (v.toNat : Int) else v.toNat - 2 ^ 32 := by
  show v.toBitVec.toInt = _
  rw [BitVec.toInt_eq_toNat_cond]
  show (if 2 * v.toNat < 2 ^ 32 then (v.toNat : Int) else v.toNat - (2 ^ 32 : Nat)) = _
  split <;> split <;> omega

theorem toInt_eq_toUInt64 (v : Int64) :
    v.toInt = if v.toUInt64.toNat < 2 ^ 63 then (v.toUInt64.toNat : Int)
      else v.toUInt64.toNat - 2 ^ 64 := by
  have back := toInt_toInt64 v.toUInt64
  rwa [Int64.toInt64_toUInt64] at back

/-! ## The carriers of a runtime ID -/

/-- `uint32(t.translateRuntimeID(uint64(id)))`. -/
def carrierUInt32 : Carrier UInt32 UInt64 where
  carries := fun _ => true
  widen := UInt32.toUInt64
  narrow := UInt64.toUInt32
  narrow_widen := by simp

/-- `int64(t.translateRuntimeID(uint64(id)))`, unless `id` is negative. -/
def carrierInt64 : Carrier Int64 UInt64 where
  carries := fun id => !decide (id < 0)
  widen := Int64.toUInt64
  narrow := UInt64.toInt64
  narrow_widen := by simp

/-- `int32(t.translateRuntimeID(uint64(id)))`, unless `id` is negative. -/
def carrierInt32 : Carrier Int32 UInt64 where
  carries := fun id => !decide (id < 0)
  widen := fun id => id.toInt64.toUInt64
  narrow := fun v => v.toUInt32.toInt32
  narrow_widen := by
    intro id _
    have cut : id.toInt64.toUInt64.toUInt32.toInt32 = id.toInt64.toInt32 :=
      Int32.toBitVec_inj.mp (BitVec.signExtend_eq_setWidth_of_le id.toInt64.toBitVec (by omega)).symm
    exact cut.trans (Int32.toInt32_toInt64 id)

theorem holds_carrierUInt32 (v : UInt64) : carrierUInt32.Holds v ↔ v.toNat < 2 ^ 32 := by
  rw [Carrier.holds_iff]
  simp only [carrierUInt32, true_and]
  rw [← UInt64.toNat_inj, UInt32.toNat_toUInt64, UInt64.toNat_toUInt32]
  omega

theorem holds_carrierInt64 (v : UInt64) : carrierInt64.Holds v ↔ v.toNat < 2 ^ 63 := by
  have value := toInt_toInt64 v
  have bound := v.toNat_lt
  rw [Carrier.holds_iff]
  simp only [carrierInt64, UInt64.toUInt64_toInt64, Bool.not_eq_true', decide_eq_false_iff_not,
    Int64.not_lt, Int64.le_iff_toInt_le, Int64.toInt_zero, and_true]
  split at value <;> omega

theorem holds_carrierInt32 (v : UInt64) : carrierInt32.Holds v ↔ v.toNat < 2 ^ 31 := by
  have narrowed := toInt_toInt32 v.toUInt32
  have widened := toInt_eq_toUInt64 v.toUInt32.toInt32.toInt64
  have bound := v.toUInt32.toInt32.toInt64.toUInt64.toNat_lt
  rw [UInt64.toNat_toUInt32] at narrowed
  rw [Int32.toInt_toInt64] at widened
  rw [Carrier.holds_iff]
  simp only [carrierInt32, Bool.not_eq_true', decide_eq_false_iff_not, Int32.not_lt,
    Int32.le_iff_toInt_le, Int32.toInt_zero, ← UInt64.toNat_inj]
  split at narrowed <;> split at widened <;> omega

/-! ## The carriers of a unique ID -/

/-- `int32(t.translateUniqueID(int64(id)))`. -/
def carrierUniqueInt32 : Carrier Int32 Int64 where
  carries := fun _ => true
  widen := Int32.toInt64
  narrow := Int64.toInt32
  narrow_widen := by simp

/-- `uint32(t.translateUniqueID(int64(id)))`. -/
def carrierUniqueUInt32 : Carrier UInt32 Int64 where
  carries := fun _ => true
  widen := fun id => id.toUInt64.toInt64
  narrow := fun v => v.toUInt64.toUInt32
  narrow_widen := by simp

theorem holds_carrierUniqueInt32 (v : Int64) :
    carrierUniqueInt32.Holds v ↔ -2 ^ 31 ≤ v.toInt ∧ v.toInt < 2 ^ 31 := by
  rw [Carrier.holds_iff]
  simp only [carrierUniqueInt32, true_and]
  rw [← Int64.toInt_inj, Int32.toInt_toInt64, Int64.toInt_toInt32]
  constructor
  · intro kept
    have lower := @Int.le_bmod v.toInt (2 ^ 32) (by omega)
    have upper := @Int.bmod_lt v.toInt (2 ^ 32) (by omega)
    omega
  · rintro ⟨lower, upper⟩
    rw [Int.bmod_eq_of_le] <;> omega

theorem holds_carrierUniqueUInt32 (v : Int64) :
    carrierUniqueUInt32.Holds v ↔ 0 ≤ v.toInt ∧ v.toInt < 2 ^ 32 := by
  have narrowed := toInt_toInt64 v.toUInt64.toUInt32.toUInt64
  have value := toInt_eq_toUInt64 v
  have bound := v.toUInt64.toNat_lt
  rw [UInt32.toNat_toUInt64, UInt64.toNat_toUInt32] at narrowed
  rw [Carrier.holds_iff]
  simp only [carrierUniqueUInt32, true_and]
  rw [← Int64.toInt_inj]
  split at narrowed <;> split at value <;> omega

/-! ## The translator on each of them -/

namespace Translator

variable (t : Translator)

/-- `t.translateRuntimeID32(id)`. -/
def runtimeID32 (id : UInt32) : UInt32 :=
  (translateRuntimeID32 t.original id).eval t.current.register

/-- `t.translateRuntimeIDInt64(id)`. -/
def runtimeIDInt64 (id : Int64) : Int64 :=
  (translateRuntimeIDInt64 t.original id).eval t.current.register

/-- `t.translateMetadataUniqueID(v)`. -/
def metadataUniqueID (v : MetadataValue) : MetadataValue :=
  (translateMetadataUniqueID t.original v).eval t.current.register

/-- `t.translateMetadataRuntimeID(v)`. -/
def metadataRuntimeID (v : MetadataValue) : MetadataValue :=
  (translateMetadataRuntimeID t.original v).eval t.current.register

theorem runtimeID32_eq :
    t.runtimeID32 = carrierUInt32.exchange t.original.runtimeID t.current.runtimeID := by
  funext id
  simp [runtimeID32, translateRuntimeID32, Carrier.exchange, carrierUInt32, EntityIDs.swapRuntimeID]

theorem runtimeIDInt64_eq :
    t.runtimeIDInt64 = carrierInt64.exchange t.original.runtimeID t.current.runtimeID := by
  funext id
  by_cases negative : id < 0 <;>
    simp [runtimeIDInt64, translateRuntimeIDInt64, Carrier.exchange, carrierInt64,
      EntityIDs.swapRuntimeID, negative]

theorem metadataRuntimeID_int32 (id : Int32) :
    t.metadataRuntimeID (.int32 id) =
      .int32 (carrierInt32.exchange t.original.runtimeID t.current.runtimeID id) := by
  by_cases negative : id < 0 <;>
    simp [metadataRuntimeID, translateMetadataRuntimeID, Carrier.exchange, carrierInt32,
      EntityIDs.swapRuntimeID, negative]

theorem metadataRuntimeID_uint32 (id : UInt32) :
    t.metadataRuntimeID (.uint32 id) = .uint32 (t.runtimeID32 id) := by
  simp [metadataRuntimeID, translateMetadataRuntimeID, runtimeID32]

theorem metadataRuntimeID_int64 (id : Int64) :
    t.metadataRuntimeID (.int64 id) = .int64 (t.runtimeIDInt64 id) := by
  simp [metadataRuntimeID, translateMetadataRuntimeID, runtimeIDInt64]

theorem metadataRuntimeID_uint64 (id : UInt64) :
    t.metadataRuntimeID (.uint64 id) = .uint64 (t.original.swapRuntimeID t.current id) := by
  simp [metadataRuntimeID, translateMetadataRuntimeID]

theorem metadataRuntimeID_int (id : Int64) :
    t.metadataRuntimeID (.int id) =
      .int (carrierInt64.exchange t.original.runtimeID t.current.runtimeID id) := by
  by_cases negative : id < 0 <;>
    simp [metadataRuntimeID, translateMetadataRuntimeID, Carrier.exchange, carrierInt64,
      EntityIDs.swapRuntimeID, negative]

theorem metadataUniqueID_int32 (id : Int32) :
    t.metadataUniqueID (.int32 id) =
      .int32 (carrierUniqueInt32.exchange t.original.uniqueID t.current.uniqueID id) := by
  simp [metadataUniqueID, translateMetadataUniqueID, Carrier.exchange, carrierUniqueInt32,
    EntityIDs.swapUniqueID]

theorem metadataUniqueID_uint32 (id : UInt32) :
    t.metadataUniqueID (.uint32 id) =
      .uint32 (carrierUniqueUInt32.exchange t.original.uniqueID t.current.uniqueID id) := by
  simp [metadataUniqueID, translateMetadataUniqueID, Carrier.exchange, carrierUniqueUInt32,
    EntityIDs.swapUniqueID]

theorem metadataUniqueID_int64 (id : Int64) :
    t.metadataUniqueID (.int64 id) = .int64 (t.original.swapUniqueID t.current id) := by
  simp [metadataUniqueID, translateMetadataUniqueID]

theorem metadataUniqueID_int (id : Int64) :
    t.metadataUniqueID (.int id) = .int (t.original.swapUniqueID t.current id) := by
  simp [metadataUniqueID, translateMetadataUniqueID]

theorem metadataUniqueID_uint64 (id : UInt64) :
    t.metadataUniqueID (.uint64 id) =
      .uint64 (mapUInt64 (t.original.swapUniqueID t.current) id) := by
  simp [metadataUniqueID, translateMetadataUniqueID]

theorem metadataUniqueID_uint (id : UInt64) :
    t.metadataUniqueID (.uint id) = .uint (mapUInt64 (t.original.swapUniqueID t.current) id) := by
  simp [metadataUniqueID, translateMetadataUniqueID]

end Translator

/-! ## Which IDs survive which type -/

/-- The integer types `translateMetadataUniqueID` and `translateMetadataRuntimeID` are
given. -/
inductive IntegerType where
  | int32
  | uint32
  | int64
  | uint64
  | int
  | uint
  deriving DecidableEq, Repr

/-- The integers of a type; `int` and `uint` are 64 bits wide here. -/
def IntegerType.Value : IntegerType → Type
  | .int32 => Int32
  | .uint32 => UInt32
  | .int64 | .int => Int64
  | .uint64 | .uint => UInt64

def IntegerType.wrap : (T : IntegerType) → T.Value → MetadataValue
  | .int32, id => .int32 id
  | .uint32, id => .uint32 id
  | .int64, id => .int64 id
  | .uint64, id => .uint64 id
  | .int, id => .int id
  | .uint, id => .uint id

theorem IntegerType.wrap_injective (T : IntegerType) : T.wrap.Injective := by
  intro x y same
  cases T <;> injection same

/-- On the values of one type `f` stays in the type, is injective, and undoes itself. -/
structure LosslessOn (f : MetadataValue → MetadataValue) (T : IntegerType) : Prop where
  typed : ∀ x, ∃ y, f (T.wrap x) = T.wrap y
  injective : ∀ x y, f (T.wrap x) = f (T.wrap y) → x = y
  involutive : ∀ x, f (f (T.wrap x)) = T.wrap x

/-- A metadata translation is as good as what it does to the integers of the type. -/
theorem losslessOn_iff {f : MetadataValue → MetadataValue} {T : IntegerType}
    {g : T.Value → T.Value} (acts : ∀ x, f (T.wrap x) = T.wrap (g x)) :
    LosslessOn f T ↔ Lossless g := by
  constructor
  · intro lossless
    constructor
    · intro x y same
      apply lossless.injective x y
      rw [acts, acts, same]
    · intro x
      apply T.wrap_injective
      have back := lossless.involutive x
      rwa [acts, acts] at back
  · rintro ⟨injective, involutive⟩
    constructor
    · exact fun x => ⟨g x, acts x⟩
    · intro x y same
      rw [acts, acts] at same
      exact injective (T.wrap_injective same)
    · intro x
      rw [acts, acts, involutive x]

theorem lossless_swapRuntimeID (original ids : EntityIDs) :
    Lossless (original.swapRuntimeID ids) :=
  lossless_iff.mpr (Equiv.swap_apply_self _ _)

theorem lossless_swapUniqueID (original ids : EntityIDs) : Lossless (original.swapUniqueID ids) :=
  lossless_iff.mpr (Equiv.swap_apply_self _ _)

theorem lossless_mapUInt64 {f : Int64 → Int64} (lossless : Lossless f) :
    Lossless (mapUInt64 f) := by
  have twice := mapUInt64_comp f f
  rw [show f ∘ f = id from funext lossless.2, mapUInt64_id] at twice
  exact lossless_iff.mpr (congrFun twice)

namespace Translator

/-- Both runtime IDs of the player fit the type or neither does, or the type cannot
tell them apart. -/
def RuntimeIDsFit (t : Translator) : IntegerType → Prop
  | .uint32 =>
      (t.original.runtimeID.toNat < 2 ^ 32 ↔ t.current.runtimeID.toNat < 2 ^ 32) ∨
        t.original.runtimeID.toUInt32 = t.current.runtimeID.toUInt32
  | .int32 =>
      (t.original.runtimeID.toNat < 2 ^ 31 ↔ t.current.runtimeID.toNat < 2 ^ 31) ∨
        t.original.runtimeID.toUInt32 = t.current.runtimeID.toUInt32
  | .int64 | .int => t.original.runtimeID.toNat < 2 ^ 63 ↔ t.current.runtimeID.toNat < 2 ^ 63
  | .uint64 | .uint => True

/-- The same for the unique IDs. -/
def UniqueIDsFit (t : Translator) : IntegerType → Prop
  | .int32 =>
      ((-2 ^ 31 ≤ t.original.uniqueID.toInt ∧ t.original.uniqueID.toInt < 2 ^ 31) ↔
        (-2 ^ 31 ≤ t.current.uniqueID.toInt ∧ t.current.uniqueID.toInt < 2 ^ 31)) ∨
        t.original.uniqueID.toInt32 = t.current.uniqueID.toInt32
  | .uint32 =>
      ((0 ≤ t.original.uniqueID.toInt ∧ t.original.uniqueID.toInt < 2 ^ 32) ↔
        (0 ≤ t.current.uniqueID.toInt ∧ t.current.uniqueID.toInt < 2 ^ 32)) ∨
        t.original.uniqueID.toUInt64.toUInt32 = t.current.uniqueID.toUInt64.toUInt32
  | .int64 | .int | .uint64 | .uint => True

variable (t : Translator)

theorem lossless_runtimeID32 : Lossless t.runtimeID32 ↔ t.RuntimeIDsFit .uint32 := by
  rw [runtimeID32_eq, Carrier.exchange_lossless_iff, holds_carrierUInt32, holds_carrierUInt32]
  rfl

/-- Two IDs that an `int64` cannot tell apart are one. -/
theorem lossless_carrierInt64 :
    Lossless (carrierInt64.exchange t.original.runtimeID t.current.runtimeID) ↔
      t.RuntimeIDsFit .int64 := by
  rw [Carrier.exchange_lossless_iff, holds_carrierInt64, holds_carrierInt64]
  refine or_iff_left_of_imp fun same => ?_
  have equal : t.original.runtimeID = t.current.runtimeID := by
    rw [← UInt64.toUInt64_toInt64 t.original.runtimeID, ← UInt64.toUInt64_toInt64 t.current.runtimeID]
    exact congrArg Int64.toUInt64 same
  rw [equal]

theorem lossless_runtimeIDInt64 : Lossless t.runtimeIDInt64 ↔ t.RuntimeIDsFit .int64 := by
  rw [runtimeIDInt64_eq, lossless_carrierInt64]

theorem lossless_carrierInt32 :
    Lossless (carrierInt32.exchange t.original.runtimeID t.current.runtimeID) ↔
      t.RuntimeIDsFit .int32 := by
  rw [Carrier.exchange_lossless_iff, holds_carrierInt32, holds_carrierInt32]
  refine or_congr_right ⟨fun same => ?_, fun same => congrArg UInt32.toInt32 same⟩
  have cut := congrArg Int32.toUInt32 same
  simpa only [carrierInt32, UInt32.toUInt32_toInt32] using cut

theorem lossless_carrierUniqueInt32 :
    Lossless (carrierUniqueInt32.exchange t.original.uniqueID t.current.uniqueID) ↔
      t.UniqueIDsFit .int32 := by
  rw [Carrier.exchange_lossless_iff, holds_carrierUniqueInt32, holds_carrierUniqueInt32]
  rfl

theorem lossless_carrierUniqueUInt32 :
    Lossless (carrierUniqueUInt32.exchange t.original.uniqueID t.current.uniqueID) ↔
      t.UniqueIDsFit .uint32 := by
  rw [Carrier.exchange_lossless_iff, holds_carrierUniqueUInt32, holds_carrierUniqueUInt32]
  rfl

theorem losslessOn_metadataRuntimeID (T : IntegerType) :
    LosslessOn t.metadataRuntimeID T ↔ t.RuntimeIDsFit T := by
  cases T with
  | int32 =>
      apply (losslessOn_iff (T := .int32) t.metadataRuntimeID_int32).trans
      exact t.lossless_carrierInt32
  | uint32 =>
      apply (losslessOn_iff (T := .uint32) t.metadataRuntimeID_uint32).trans
      exact t.lossless_runtimeID32
  | int64 =>
      apply (losslessOn_iff (T := .int64) t.metadataRuntimeID_int64).trans
      exact t.lossless_runtimeIDInt64
  | int =>
      apply (losslessOn_iff (T := .int) t.metadataRuntimeID_int).trans
      exact t.lossless_carrierInt64
  | uint64 =>
      apply (losslessOn_iff (T := .uint64) t.metadataRuntimeID_uint64).trans
      exact iff_of_true (lossless_swapRuntimeID t.original t.current) trivial
  | uint =>
      -- the one integer type without a case of its own: such a value stays as it is
      apply (losslessOn_iff (T := .uint) (g := id) fun _ => rfl).trans
      exact iff_of_true (lossless_iff.mpr fun _ => rfl) trivial

theorem losslessOn_metadataUniqueID (T : IntegerType) :
    LosslessOn t.metadataUniqueID T ↔ t.UniqueIDsFit T := by
  cases T with
  | int32 =>
      apply (losslessOn_iff (T := .int32) t.metadataUniqueID_int32).trans
      exact t.lossless_carrierUniqueInt32
  | uint32 =>
      apply (losslessOn_iff (T := .uint32) t.metadataUniqueID_uint32).trans
      exact t.lossless_carrierUniqueUInt32
  | int64 =>
      apply (losslessOn_iff (T := .int64) t.metadataUniqueID_int64).trans
      exact iff_of_true (lossless_swapUniqueID t.original t.current) trivial
  | int =>
      apply (losslessOn_iff (T := .int) t.metadataUniqueID_int).trans
      exact iff_of_true (lossless_swapUniqueID t.original t.current) trivial
  | uint64 =>
      apply (losslessOn_iff (T := .uint64) t.metadataUniqueID_uint64).trans
      exact iff_of_true (lossless_mapUInt64 (lossless_swapUniqueID t.original t.current)) trivial
  | uint =>
      apply (losslessOn_iff (T := .uint) t.metadataUniqueID_uint).trans
      exact iff_of_true (lossless_mapUInt64 (lossless_swapUniqueID t.original t.current)) trivial

/-- **Narrow carriers.**  In every state of the translator, and for each function and
integer type: nothing is lost exactly if the player's two IDs fit the type alike. -/
theorem narrow_carriers_lossless :
    (Lossless t.runtimeID32 ↔ t.RuntimeIDsFit .uint32) ∧
      (Lossless t.runtimeIDInt64 ↔ t.RuntimeIDsFit .int64) ∧
      (∀ T, LosslessOn t.metadataRuntimeID T ↔ t.RuntimeIDsFit T) ∧
      ∀ T, LosslessOn t.metadataUniqueID T ↔ t.UniqueIDsFit T :=
  ⟨t.lossless_runtimeID32, t.lossless_runtimeIDInt64, t.losslessOn_metadataRuntimeID,
    t.losslessOn_metadataUniqueID⟩

/-- The player is entity 1 for the client and 2^32 + 5 on the server: the volume
entities 1 and 5 then become one.  With 2^63 on the server, the entity 1 of an `Event`
becomes a negative number and stays it. -/
theorem volume_ids_collide :
    let t : Translator := ⟨⟨1, 1⟩, ⟨0x100000005, 1⟩⟩
    let u : Translator := ⟨⟨1, 1⟩, ⟨0x8000000000000000, 1⟩⟩
    t.runtimeID32 1 = 5 ∧ t.runtimeID32 5 = 5 ∧ u.runtimeIDInt64 1 = -0x8000000000000000 ∧
      u.runtimeIDInt64 (u.runtimeIDInt64 1) = -0x8000000000000000 := by
  decide

end Translator

/-! ## Entity metadata

`translateEntityMetadata` looks the keys up that may hold an ID.  A scan looks at every
entry instead. -/

/-- Rewrite the entry under a key, if there is one. -/
def rewriteEntry (f : MetadataValue → MetadataValue) (x : EntityMetadata) (k : UInt32) :
    EntityMetadata :=
  match x k with
  | none => x
  | some v => Function.update x k (some (f v))

theorem rewriteEntry_self (f : MetadataValue → MetadataValue) (x : EntityMetadata) (k : UInt32) :
    rewriteEntry f x k k = (x k).map f := by
  unfold rewriteEntry
  cases held : x k with
  | none => exact held
  | some v => exact Function.update_self ..

theorem rewriteEntry_of_ne (f : MetadataValue → MetadataValue) (x : EntityMetadata)
    {k other : UInt32} (apart : other ≠ k) : rewriteEntry f x k other = x other := by
  unfold rewriteEntry
  cases x k with
  | none => rfl
  | some v => exact Function.update_of_ne apart ..

/-- By induction on the keys: each entry is rewritten when its key comes, and not again. -/
theorem foldl_rewriteEntry (rule : UInt32 → MetadataValue → MetadataValue) {keys : List UInt32}
    (once : keys.Nodup) (x : EntityMetadata) (k : UInt32) :
    keys.foldl (fun x k => rewriteEntry (rule k) x k) x k =
      if k ∈ keys then (x k).map (rule k) else x k := by
  induction keys generalizing x with
  | nil => rfl
  | cons key keys ih =>
      obtain ⟨fresh, once⟩ := List.nodup_cons.mp once
      rw [List.foldl_cons, ih once]
      by_cases same : k = key
      · subst same
        rw [if_neg fresh, if_pos List.mem_cons_self, rewriteEntry_self]
      · rw [rewriteEntry_of_ne _ _ same]
        simp only [List.mem_cons, same, false_or]

theorem eval_rewriteMetadata (f : MetadataValue → Loads MetadataValue) (x : EntityMetadata)
    (k : UInt32) (ids : EntityIDs) :
    (rewriteMetadata f x k).eval ids.register = rewriteEntry (fun v => (f v).eval ids.register) x k := by
  unfold rewriteMetadata rewriteEntry
  cases x k with
  | none => rfl
  | some v => rw [Query.eval_bind, Query.eval_pure]

theorem eval_foldlM_rewriteMetadata (f : MetadataValue → Loads MetadataValue) (keys : List UInt32)
    (x : EntityMetadata) (ids : EntityIDs) :
    (keys.foldlM (rewriteMetadata f) x).eval ids.register =
      keys.foldl (rewriteEntry fun v => (f v).eval ids.register) x := by
  induction keys generalizing x with
  | nil => rfl
  | cons key keys ih => rw [List.foldlM_cons, Query.eval_bind, eval_rewriteMetadata, ih, List.foldl_cons]

namespace Translator

variable (t : Translator)

/-- `t.translateEntityMetadata(x)`. -/
def entityMetadata (x : EntityMetadata) : EntityMetadata :=
  (translateEntityMetadata t.original x).eval t.current.register

/-- What a scan does with an entry. -/
def scanned (k : UInt32) (v : MetadataValue) : MetadataValue :=
  if k ∈ entityMetadataUniqueIDKeys then t.metadataUniqueID v
  else if k = 124 then t.metadataRuntimeID v
  else v

/-- A scan over the entries, in place, whose keys come in this order. -/
def scanEntityMetadata (keys : List UInt32) (x : EntityMetadata) : EntityMetadata :=
  keys.foldl (fun x k => rewriteEntry (t.scanned k) x k) x

theorem entityMetadata_apply (x : EntityMetadata) (k : UInt32) :
    t.entityMetadata x k = (x k).map (t.scanned k) := by
  have direct : t.entityMetadata x = (entityMetadataUniqueIDKeys ++ [124]).foldl
      (fun x k => rewriteEntry (t.scanned k) x k) x := by
    rw [List.foldl_append, entityMetadata, translateEntityMetadata, Query.eval_bind,
      eval_rewriteMetadata, eval_foldlM_rewriteMetadata]
    rfl
  rw [direct, foldl_rewriteEntry _ (by decide)]
  split
  · rfl
  · rename_i unlisted
    obtain ⟨noUniqueID, noRuntimeID⟩ := not_or.mp fun listed => unlisted (List.mem_append.mpr listed)
    have kept : t.scanned k = id := by
      funext v
      rw [scanned, if_neg noUniqueID, if_neg fun same => noRuntimeID (List.mem_singleton.mpr same), id]
    rw [kept, Option.map_id]
    rfl

end Translator

/-- The type of a value, if it is an integer. -/
def MetadataValue.integerType : MetadataValue → Option IntegerType
  | .int32 _ => some .int32
  | .uint32 _ => some .uint32
  | .int64 _ => some .int64
  | .uint64 _ => some .uint64
  | .int _ => some .int
  | .uint _ => some .uint
  | .other _ => none

/-- The second value is of the type of the first; of a type that is no integer it is the
first. -/
def MetadataValue.KeepsType (v v' : MetadataValue) : Prop :=
  v'.integerType = v.integerType ∧ (v.integerType = none → v' = v)

namespace Translator

variable (t : Translator)

theorem keepsType_metadataUniqueID (v : MetadataValue) : v.KeepsType (t.metadataUniqueID v) := by
  cases v with
  | int32 v => rw [metadataUniqueID_int32]; exact ⟨rfl, nofun⟩
  | uint32 v => rw [metadataUniqueID_uint32]; exact ⟨rfl, nofun⟩
  | int64 v => rw [metadataUniqueID_int64]; exact ⟨rfl, nofun⟩
  | uint64 v => rw [metadataUniqueID_uint64]; exact ⟨rfl, nofun⟩
  | int v => rw [metadataUniqueID_int]; exact ⟨rfl, nofun⟩
  | uint v => rw [metadataUniqueID_uint]; exact ⟨rfl, nofun⟩
  | other v => exact ⟨rfl, fun _ => rfl⟩

theorem keepsType_metadataRuntimeID (v : MetadataValue) : v.KeepsType (t.metadataRuntimeID v) := by
  cases v with
  | int32 v => rw [metadataRuntimeID_int32]; exact ⟨rfl, nofun⟩
  | uint32 v => rw [metadataRuntimeID_uint32]; exact ⟨rfl, nofun⟩
  | int64 v => rw [metadataRuntimeID_int64]; exact ⟨rfl, nofun⟩
  | uint64 v => rw [metadataRuntimeID_uint64]; exact ⟨rfl, nofun⟩
  | int v => rw [metadataRuntimeID_int]; exact ⟨rfl, nofun⟩
  | uint v => exact ⟨rfl, nofun⟩
  | other v => exact ⟨rfl, fun _ => rfl⟩

theorem keepsType_scanned (k : UInt32) (v : MetadataValue) : v.KeepsType (t.scanned k v) := by
  unfold scanned
  split
  · exact t.keepsType_metadataUniqueID v
  · split
    · exact t.keepsType_metadataRuntimeID v
    · exact ⟨rfl, fun _ => rfl⟩

/-- **The direct lookup agrees with a scan.**  In every state of the translator and for
every map: the result is that of a scan over all entries in any order, it has the keys of
the map, and each of its values is the scanned one, of the type it had. -/
theorem entityMetadata_eq_scan (x : EntityMetadata) :
    (∀ keys : List UInt32, keys.Nodup → (∀ k, (x k).isSome = true → k ∈ keys) →
      t.entityMetadata x = t.scanEntityMetadata keys x) ∧
    (∀ k, (t.entityMetadata x k).isSome = (x k).isSome) ∧
    ∀ k v, x k = some v →
      t.entityMetadata x k = some (t.scanned k v) ∧ v.KeepsType (t.scanned k v) := by
  refine ⟨?_, ?_, ?_⟩
  · intro keys once all
    funext k
    rw [entityMetadata_apply, scanEntityMetadata, foldl_rewriteEntry _ once]
    split
    · rfl
    · rename_i unlisted
      cases held : x k with
      | none => rfl
      | some v => exact absurd (all k (by rw [held]; rfl)) unlisted
  · intro k
    rw [entityMetadata_apply, Option.isSome_map]
  · intro k v held
    refine ⟨?_, t.keepsType_scanned k v⟩
    rw [entityMetadata_apply, held]
    rfl

/-- An owner as an `int32`, a runtime ID and a text. -/
theorem entityMetadata_eq_scan_mixed :
    let t : Translator := ⟨⟨11, 22⟩, ⟨33, 44⟩⟩
    let x : EntityMetadata := fun k =>
      if k = 5 then some (.int32 22) else if k = 124 then some (.uint32 11)
      else if k = 999 then some (.other "keep-me") else none
    t.entityMetadata x = t.scanEntityMetadata [999, 5, 124] x ∧
      t.scanEntityMetadata [999, 5, 124] x 5 = some (.int32 44) ∧
      t.scanEntityMetadata [999, 5, 124] x 124 = some (.uint32 33) ∧
      t.scanEntityMetadata [999, 5, 124] x 999 = some (.other "keep-me") := by
  intro t x
  refine ⟨(t.entityMetadata_eq_scan x).1 _ (by decide) ?_, by decide, by decide, by decide⟩
  intro k held
  simp only [x] at held
  split at held
  · simp [*]
  · split at held
    · simp [*]
    · split at held
      · simp [*]
      · cases held

end Translator

end Portal
