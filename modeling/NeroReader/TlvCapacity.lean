import Mathlib.Order.Bounds.Basic
import NeroReader.NdefTlv

/-!
The message capacity of a data area, `nfc_ndef_tlv_max_payload_for_data_area`, beside the envelope the TLV builder
asks for. The builder's length field grows with the message, the capacity's overhead with the area: between 255 and
258 bytes the two part.
-/

namespace NeroReader.Ndef

open Storage (Word)

/-! ### Greatest arguments under a bound -/

/-- The greatest argument a monotone cost admits is the one whose successor costs too much. -/
theorem isGreatest_of_monotone {cost : Nat → Nat} (hmono : Monotone cost) {bound n : Nat} (hfits : cost n ≤ bound)
    (hnext : bound < cost (n + 1)) : IsGreatest {k | cost k ≤ bound} n := by
  refine ⟨hfits, fun k hk => ?_⟩
  by_contra hlater
  have hcost : cost (n + 1) ≤ cost k := hmono (Nat.lt_of_not_le hlater)
  exact Nat.lt_irrefl bound (Nat.lt_of_lt_of_le hnext (Nat.le_trans hcost hk))

theorem le_iff_of_isGreatest {cost : Nat → Nat} (hmono : Monotone cost) {bound n : Nat}
    (h : IsGreatest {k | cost k ≤ bound} n) (k : Nat) : cost k ≤ bound ↔ k ≤ n := by
  constructor
  · intro hk
    exact h.2 hk
  · intro hk
    exact Nat.le_trans (hmono hk) h.1

/-! ### The envelope -/

theorem tlvEnvelopeLen_short {n : Nat} (h : n < 255) : tlvEnvelopeLen n = n + 3 := by
  rw [tlvEnvelopeLen, if_pos (show n < tlvExtendedLen.toNat from h), tlvShortEnvelopeOverhead]

theorem tlvEnvelopeLen_extended {n : Nat} (h : 255 ≤ n) : tlvEnvelopeLen n = n + 5 := by
  rw [tlvEnvelopeLen, if_neg (show ¬n < tlvExtendedLen.toNat from Nat.not_lt.mpr h), tlvExtendedEnvelopeOverhead]

theorem tlvEnvelopeLen_mono : Monotone tlvEnvelopeLen := by
  apply monotone_nat_of_le_succ
  intro n
  rcases Nat.lt_trichotomy n 254 with h | rfl | h
  · rw [tlvEnvelopeLen_short (by omega), tlvEnvelopeLen_short (by omega)]
    omega
  · decide
  · rw [tlvEnvelopeLen_extended (by omega), tlvEnvelopeLen_extended (by omega)]
    omega

theorem buildMessageTlv_ok_iff {m out : Frame} (hcap : out.length ≤ 0xFFFF) :
    (buildMessageTlv m out).ok = true ↔ tlvEnvelopeLen m.length ≤ out.length := by
  constructor
  · intro h
    exact (buildMessageTlv_ok hcap h).1
  · intro h
    rw [buildMessageTlv_of_fits hcap h]

/-! ### The capacity -/

def tlvOneByteLenMax : Nat := 254

/-- `nfc_ndef_tlv_max_payload_for_data_area`. -/
def tlvMaxPayloadForDataArea (dataAreaSize : Word) : Word :=
  if dataAreaSize.toNat ≤ tlvShortEnvelopeOverhead then 0
  else if dataAreaSize.toNat ≤ tlvOneByteLenMax then dataAreaSize - BitVec.ofNat 16 tlvShortEnvelopeOverhead
  else dataAreaSize - BitVec.ofNat 16 tlvExtendedEnvelopeOverhead

/-- The longest message whose envelope fits in so many bytes. -/
def longestMessage (bound : Nat) : Nat :=
  if bound < 258 then bound - 3 else if bound < 260 then 254 else bound - 5

theorem longestMessage_isGreatest {bound : Nat} (h : 3 ≤ bound) :
    IsGreatest {n | tlvEnvelopeLen n ≤ bound} (longestMessage bound) := by
  apply isGreatest_of_monotone tlvEnvelopeLen_mono
  · rw [longestMessage]
    split
    · rw [tlvEnvelopeLen_short (by omega)]
      omega
    split
    · rw [tlvEnvelopeLen_short (by decide)]
      omega
    · rw [tlvEnvelopeLen_extended (by omega)]
      omega
  · rw [longestMessage]
    split
    · rcases Nat.lt_or_ge (bound - 3 + 1) 255 with hshort | hlong
      · rw [tlvEnvelopeLen_short hshort]
        omega
      · rw [tlvEnvelopeLen_extended hlong]
        omega
    split
    · rw [tlvEnvelopeLen_extended (by decide)]
      omega
    · rw [tlvEnvelopeLen_extended (by omega)]
      omega

theorem tlvMaxPayloadForDataArea_toNat (dataAreaSize : Word) : (tlvMaxPayloadForDataArea dataAreaSize).toNat =
    if dataAreaSize.toNat < 255 then dataAreaSize.toNat - 3 else dataAreaSize.toNat - 5 := by
  rw [tlvMaxPayloadForDataArea, tlvShortEnvelopeOverhead, tlvOneByteLenMax, tlvExtendedEnvelopeOverhead]
  split
  · rw [if_pos (by omega)]
    change 0 = _
    omega
  split
  · rw [if_pos (by omega)]
    bv_omega
  · rw [if_neg (by omega)]
    bv_omega

/-- The capacity is the longest message everywhere but in the four areas. -/
theorem tlvMaxPayloadForDataArea_eq_iff (dataAreaSize : Word) :
    (tlvMaxPayloadForDataArea dataAreaSize).toNat = longestMessage dataAreaSize.toNat ↔
      dataAreaSize.toNat < 255 ∨ 258 < dataAreaSize.toNat := by
  rw [tlvMaxPayloadForDataArea_toNat, longestMessage]
  split <;> split <;> try split
  all_goals omega

/-- The capacity is the greatest message length whose envelope fits, and the builder
takes just the messages up to it. -/
structure CapacityAgrees (dataAreaSize : Word) : Prop where
  greatest : (∃ n, 1 ≤ n ∧ tlvEnvelopeLen n ≤ dataAreaSize.toNat) →
    IsGreatest {n | tlvEnvelopeLen n ≤ dataAreaSize.toNat} (tlvMaxPayloadForDataArea dataAreaSize).toNat
  nothing : (∀ n, 1 ≤ n → dataAreaSize.toNat < tlvEnvelopeLen n) → tlvMaxPayloadForDataArea dataAreaSize = 0
  builds : ∀ m out : Frame, 1 ≤ m.length → out.length = dataAreaSize.toNat →
    ((buildMessageTlv m out).ok = true ↔ m.length ≤ (tlvMaxPayloadForDataArea dataAreaSize).toNat)

/-- An area takes a byte from four bytes on. -/
theorem four_le_of_fits {bound n : Nat} (hn : 1 ≤ n) (h : tlvEnvelopeLen n ≤ bound) : 4 ≤ bound :=
  Nat.le_trans (tlvEnvelopeLen_mono hn) h

/-- **TLV capacity.** -/
theorem capacityAgrees_iff (dataAreaSize : Word) :
    CapacityAgrees dataAreaSize ↔ dataAreaSize.toNat < 255 ∨ 258 < dataAreaSize.toNat := by
  rw [← tlvMaxPayloadForDataArea_eq_iff]
  constructor
  · intro h
    by_cases hroom : 4 ≤ dataAreaSize.toNat
    · exact (h.greatest ⟨1, Nat.le_refl 1, hroom⟩).unique (longestMessage_isGreatest (by omega))
    · rw [tlvMaxPayloadForDataArea_toNat, longestMessage, if_pos (by omega), if_pos (by omega)]
  · intro heq
    refine ⟨fun ⟨n, hn, hfits⟩ => ?_, fun hnone => ?_, fun m out hm hout => ?_⟩
    · have hroom := four_le_of_fits hn hfits
      rw [heq]
      exact longestMessage_isGreatest (by omega)
    · have hroom : dataAreaSize.toNat < 4 := hnone 1 (Nat.le_refl 1)
      apply BitVec.eq_of_toNat_eq
      rw [tlvMaxPayloadForDataArea_toNat, if_pos (by omega)]
      change _ = 0
      omega
    · rw [buildMessageTlv_ok_iff (by rw [hout]; exact Nat.le_of_lt_succ dataAreaSize.isLt), hout, heq]
      by_cases hroom : 3 ≤ dataAreaSize.toNat
      · exact le_iff_of_isGreatest tlvEnvelopeLen_mono (longestMessage_isGreatest hroom) m.length
      · refine iff_of_false (fun hfits => ?_) fun hle => ?_
        · have := four_le_of_fits hm hfits
          omega
        · rw [longestMessage, if_pos (by omega)] at hle
          omega

/-- A message of 253 bytes fits in 256 bytes; the capacity says 251. -/
theorem area256_disagrees : ¬CapacityAgrees 256 := by
  intro h
  have hmessage : (List.replicate 253 (0 : Byte)).length = 253 := List.length_replicate
  have harea : (List.replicate 256 (0 : Byte)).length = 256 := List.length_replicate
  have hfits : tlvEnvelopeLen 253 ≤ 256 := by decide
  have hok : (buildMessageTlv (List.replicate 253 0) (List.replicate 256 0)).ok = true := by
    rw [buildMessageTlv_ok_iff (by rw [harea]; decide), hmessage, harea]
    exact hfits
  have hlimit := (h.builds _ _ (by rw [hmessage]; decide) harea).mp hok
  rw [hmessage, tlvMaxPayloadForDataArea_toNat] at hlimit
  exact absurd hlimit (by decide)

end NeroReader.Ndef
