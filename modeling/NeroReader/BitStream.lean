import Mathlib.Data.List.Basic
import Mathlib.Data.List.GetD

/-!
Bytes as a stream of bits, least significant bit first, and the Manchester code over such a stream. A stream is
read by position: `HasBits bytes p bits` says that these bits stand from bit `p` on. Every bit is two chips of
the code, so a pair of equal chips belongs to no data.
-/

namespace BitStream

abbrev Octet := BitVec 8

/-! ### Bits of bytes -/

def byteBits (b : Octet) : List Bool := (List.range 8).map b.getLsbD

def bitsOf (bytes : List Octet) : List Bool := bytes.flatMap byteBits

/-- The bit at a position, false behind the last byte. -/
def bitAt (bytes : List Octet) (p : Nat) : Bool := (bytes.getD (p / 8) 0).getLsbD (p % 8)

@[simp] theorem byteBits_length (b : Octet) : (byteBits b).length = 8 := by simp [byteBits]

@[simp] theorem bitsOf_nil : bitsOf [] = [] := rfl

@[simp] theorem bitsOf_cons (b : Octet) (bytes : List Octet) :
    bitsOf (b :: bytes) = byteBits b ++ bitsOf bytes := rfl

@[simp] theorem bitsOf_append (xs ys : List Octet) : bitsOf (xs ++ ys) = bitsOf xs ++ bitsOf ys := by
  simp [bitsOf]

@[simp] theorem bitsOf_length (bytes : List Octet) : (bitsOf bytes).length = 8 * bytes.length := by
  induction bytes with
  | nil => rfl
  | cons b bytes ih =>
      rw [bitsOf_cons, List.length_append, byteBits_length, ih, List.length_cons]
      omega

theorem byteBits_injective : Function.Injective byteBits := by
  intro a b h
  apply BitVec.eq_of_getLsbD_eq
  intro i hi
  have hget := congrArg (·[i]?) h
  simpa [byteBits, List.getElem?_range hi] using hget

theorem bitAt_nil (p : Nat) : bitAt [] p = false := by simp [bitAt]

theorem bitAt_cons_lt (b : Octet) (bytes : List Octet) {p : Nat} (hp : p < 8) :
    bitAt (b :: bytes) p = b.getLsbD p := by
  rw [bitAt, Nat.div_eq_of_lt hp, Nat.mod_eq_of_lt hp]
  rfl

theorem bitAt_cons_add (b : Octet) (bytes : List Octet) (p : Nat) : bitAt (b :: bytes) (8 + p) = bitAt bytes p := by
  rw [bitAt, bitAt, show (8 + p) / 8 = p / 8 + 1 by omega, Nat.add_mod_left]
  rfl

theorem bitsOf_getD (bytes : List Octet) (p : Nat) : (bitsOf bytes).getD p false = bitAt bytes p := by
  induction bytes generalizing p with
  | nil => rw [bitAt_nil, bitsOf_nil, List.getD_nil]
  | cons b bytes ih =>
      rw [bitsOf_cons]
      rcases Nat.lt_or_ge p 8 with hp | hp
      · rw [List.getD_append _ _ _ _ (by simpa using hp), bitAt_cons_lt b bytes hp]
        simp [byteBits, List.getElem?_range hp, List.getD_eq_getElem?_getD]
      · obtain ⟨q, rfl⟩ := Nat.exists_eq_add_of_le hp
        rw [List.getD_append_right _ _ _ _ (by simp), byteBits_length, Nat.add_sub_cancel_left, ih, bitAt_cons_add]

theorem bitsOf_injective : Function.Injective bitsOf := by
  intro xs
  induction xs with
  | nil =>
      intro ys h
      have hlen := congrArg List.length h
      rw [bitsOf_length, bitsOf_length, List.length_nil] at hlen
      exact (List.eq_nil_of_length_eq_zero (by omega)).symm
  | cons b xs ih =>
      intro ys h
      cases ys with
      | nil =>
          have hlen := congrArg List.length h
          simp at hlen
      | cons c ys =>
          rw [bitsOf_cons, bitsOf_cons] at h
          obtain ⟨hhead, htail⟩ := List.append_inj h (by simp)
          rw [byteBits_injective hhead, ih htail]

theorem exists_bytes (n : Nat) {bits : List Bool} (h : bits.length = 8 * n) : ∃ bytes, bitsOf bytes = bits := by
  induction n generalizing bits with
  | zero => exact ⟨[], (List.eq_nil_of_length_eq_zero h).symm⟩
  | succ n ih =>
      have hrest : (bits.drop 8).length = 8 * n := by
        rw [List.length_drop]
        omega
      obtain ⟨bytes, hbytes⟩ := ih hrest
      refine ⟨(BitVec.ofBoolListLE (bits.take 8)).setWidth 8 :: bytes, ?_⟩
      have hbyte : byteBits ((BitVec.ofBoolListLE (bits.take 8)).setWidth 8) = bits.take 8 := by
        apply List.ext_getElem
        · simp
          omega
        · intro i hi _
          have hi' : i < 8 := by simpa using hi
          simp [byteBits, hi', List.getElem_take, BitVec.getLsbD_ofBoolListLE,
            List.getElem?_take_of_lt hi', List.getElem?_eq_getElem (show i < bits.length by omega)]
      rw [bitsOf_cons, hbyte, hbytes, List.take_append_drop]

/-- The bytes with one bit set. -/
def setBit (bytes : List Octet) (p : Nat) : List Octet :=
  bytes.set (p / 8) (bytes.getD (p / 8) 0 ||| (1 : Octet) <<< (p % 8))

@[simp] theorem setBit_length (bytes : List Octet) (p : Nat) : (setBit bytes p).length = bytes.length := by
  simp [setBit]

theorem bitAt_setBit (bytes : List Octet) {p : Nat} (hp : p < 8 * bytes.length) (q : Nat) :
    bitAt (setBit bytes p) q = (decide (q = p) || bitAt bytes q) := by
  have hlen : p / 8 < bytes.length := by omega
  rw [bitAt, bitAt, setBit]
  rcases Nat.decEq (p / 8) (q / 8) with hne | heq
  · rw [decide_eq_false (fun h => hne (by rw [h])), Bool.false_or, List.getD_eq_getElem?_getD,
      List.getElem?_set_ne hne, ← List.getD_eq_getElem?_getD]
  · have hbit : ((1 : Octet) <<< (p % 8)).getLsbD (q % 8) = decide (q = p) := by
      rw [show (1 : Octet) <<< (p % 8) = BitVec.twoPow 8 (p % 8) from (BitVec.twoPow_eq _ _).symm,
        BitVec.getLsbD_twoPow]
      rw [Bool.eq_iff_iff]
      simp only [Bool.and_eq_true, decide_eq_true_eq]
      omega
    rw [List.getD_eq_getElem?_getD, ← heq, List.getElem?_set_self hlen, Option.getD_some, BitVec.getLsbD_or, hbit,
      Bool.or_comm]

/-! ### Bits from a position on -/

def HasBits (bytes : List Octet) : Nat → List Bool → Prop
  | p, [] => p ≤ 8 * bytes.length
  | p, b :: bits => bitAt bytes p = b ∧ HasBits bytes (p + 1) bits

theorem HasBits.length_le {bytes : List Octet} {p : Nat} {bits : List Bool} (h : HasBits bytes p bits) :
    p + bits.length ≤ 8 * bytes.length := by
  induction bits generalizing p with
  | nil => exact h
  | cons b bits ih =>
      have := ih h.2
      rw [List.length_cons]
      omega

theorem hasBits_append (bytes : List Octet) (p : Nat) (xs ys : List Bool) :
    HasBits bytes p (xs ++ ys) ↔ HasBits bytes p xs ∧ HasBits bytes (p + xs.length) ys := by
  induction xs generalizing p with
  | nil =>
      refine ⟨fun h => ⟨?_, h⟩, And.right⟩
      exact Nat.le_trans (Nat.le_add_right p ys.length) h.length_le
  | cons b xs ih =>
      rw [List.cons_append, HasBits, HasBits, ih, and_assoc, List.length_cons, Nat.add_right_comm, Nat.add_assoc]

theorem hasBits_iff_drop {bytes : List Octet} {p : Nat} (hp : p ≤ 8 * bytes.length) (bits : List Bool) :
    HasBits bytes p bits ↔ bits <+: (bitsOf bytes).drop p := by
  induction bits generalizing p with
  | nil => simpa [HasBits] using hp
  | cons b bits ih =>
      rcases Nat.lt_or_ge p (bitsOf bytes).length with hlt | hge
      · have hlt' : p < 8 * bytes.length := by simpa using hlt
        have hget : (bitsOf bytes)[p] = bitAt bytes p := by
          rw [← bitsOf_getD, List.getD_eq_getElem _ _ hlt]
        rw [List.drop_eq_getElem_cons hlt, List.cons_prefix_cons, HasBits, ih hlt', hget, eq_comm]
      · refine iff_of_false (fun h => ?_) (fun h => ?_)
        · have := h.length_le
          rw [bitsOf_length] at hge
          rw [List.length_cons] at this
          omega
        · rw [List.drop_eq_nil_of_le hge] at h
          simp at h

/-! ### Manchester code -/

/-- Each bit as two chips: zero is on and off, one is off and on. -/
def manchester (bits : List Bool) : List Bool := bits.flatMap fun b => [!b, b]

@[simp] theorem manchester_nil : manchester [] = [] := rfl

@[simp] theorem manchester_cons (b : Bool) (bits : List Bool) : manchester (b :: bits) = (!b) :: b :: manchester bits :=
  rfl

@[simp] theorem manchester_append (xs ys : List Bool) : manchester (xs ++ ys) = manchester xs ++ manchester ys := by
  simp [manchester]

@[simp] theorem manchester_length (bits : List Bool) : (manchester bits).length = 2 * bits.length := by
  induction bits with
  | nil => rfl
  | cons b bits ih =>
      rw [manchester_cons, List.length_cons, List.length_cons, ih, List.length_cons]
      omega

end BitStream
