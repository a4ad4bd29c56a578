import NeroReader.BitStream
import NeroReader.IsoDepFrame

/-!
The answers of an ISO 15693 tag as the front end samples them: a start of frame, the bytes of the answer and of its
CRC in Manchester code, and an end of frame. None of the three is aligned to the bytes of the sample, and both ends
are found among the chips. `streamDecode` follows `st25_iso15693_stream_decode`; it accepts a sample exactly when
the sample starts with the frame of the bytes it gives back (`stream_decode_exact`).
-/

namespace NeroReader.Iso15693

open BitStream

def crcInit : BitVec 16 := 0xFFFF
def crcPoly : BitVec 16 := 0x8408
def crcLen : Nat := 2
def maxStreamFrame : Nat := 128
def manchesterStartPos : Nat := 5
def streamMinInLen : Nat := 3
def sofMask : Byte := 0x1F
def sofExpect : Byte := 0x17
def eofHighMask : Byte := 0xE0
def eofHighExpect : Byte := 0xA0
def eofLowExpect : Byte := 0x03
def manOne : Byte := 0x02
def manStep : Nat := 2

/-! ### The checksum -/

def crcShift (crc : BitVec 16) : BitVec 16 :=
  if crc &&& 0x0001 ≠ 0 then (crc >>> 1) ^^^ crcPoly else crc >>> 1

def crcByte (crc : BitVec 16) (b : Byte) : BitVec 16 :=
  (List.range 8).foldl (fun crc _ => crcShift crc) (crc ^^^ b.setWidth 16)

/-- `st25_iso15693_crc16`. -/
def crc16 (data : Frame) : BitVec 16 := ~~~(data.foldl crcByte crcInit)

def crcLow (data : Frame) : Byte := (crc16 data &&& 0x00FF).setWidth 8

def crcHigh (data : Frame) : Byte := (crc16 data >>> 8).setWidth 8

/-! ### The decoder -/

/-- `st25_iso15693_stream_bit`. -/
def streamBit (buf : Frame) (bitPos : Nat) : Byte :=
  if buf.length ≤ bitPos / 8 then 0 else (u8At buf (bitPos / 8) >>> (bitPos % 8)) &&& 0x01

/-- The end of frame, looked for where a data byte would start. -/
def eofAt (inp : Frame) (bitPos manchesterPos : Nat) : Bool :=
  bitPos % 8 = 0 ∧ manchesterPos / 8 + 1 < inp.length ∧
    u8At inp (manchesterPos / 8) &&& eofHighMask = eofHighExpect ∧
    u8At inp (manchesterPos / 8 + 1) = eofLowExpect

/-- Two chips as one number, the earlier one low. -/
def chipPair (inp : Frame) (manchesterPos : Nat) : Byte :=
  streamBit inp manchesterPos ||| (streamBit inp (manchesterPos + 1) <<< 1)

/-- The loop of `st25_iso15693_stream_decode`: the bytes collected and the number of their bits, or none where a
pair of chips is no bit. -/
def decodeBits (inp tmp : Frame) (bitPos manchesterPos : Nat) : Option (Frame × Nat) :=
  if manchesterPos + 1 < inp.length * 8 then
    if eofAt inp bitPos manchesterPos then some (tmp, bitPos)
    else if maxStreamFrame * 8 ≤ bitPos then none
    else if chipPair inp manchesterPos = manOne then
      decodeBits inp (setBit tmp bitPos) (bitPos + 1) (manchesterPos + manStep)
    else if chipPair inp manchesterPos ≠ 0x01 then none
    else decodeBits inp tmp (bitPos + 1) (manchesterPos + manStep)
  else some (tmp, bitPos)
termination_by inp.length * 8 - manchesterPos
decreasing_by all_goals simp only [manStep]; omega

/-- `st25_iso15693_stream_decode`: the bytes written to the output, without their CRC. -/
def streamDecode (inp : Frame) (outMax : Nat) : Option Frame :=
  if inp.length < streamMinInLen ∨ maxStreamFrame < inp.length ∨ u8At inp 0 &&& sofMask ≠ sofExpect then none
  else
    match decodeBits inp (List.replicate maxStreamFrame 0) 0 manchesterStartPos with
    | none => none
    | some (tmp, bitPos) =>
        if bitPos = 0 ∨ bitPos % 8 ≠ 0 then none
        else if bitPos / 8 ≤ crcLen ∨ outMax < bitPos / 8 - crcLen then none
        else if u8At tmp (bitPos / 8 - crcLen) ≠ crcLow (tmp.take (bitPos / 8 - crcLen)) ∨
            u8At tmp (bitPos / 8 - 1) ≠ crcHigh (tmp.take (bitPos / 8 - crcLen)) then none
        else some (tmp.take (bitPos / 8 - crcLen))

/-! ### The frame of an answer -/

def sof : List Bool := [true, true, true, false, true]

def eof : List Bool := [true, false, true, true, true, false, false, false, false, false, false]

def crcBytes (payload : Frame) : Frame := [crcLow payload, crcHigh payload]

@[simp] theorem crcBytes_length (payload : Frame) : (crcBytes payload).length = 2 := rfl

/-- The chips of a tag's answer. -/
def viccFrame (payload : Frame) : List Bool := sof ++ manchester (bitsOf (payload ++ crcBytes payload)) ++ eof

/-! ### The patterns of the code as chips -/

theorem u8At_bit (inp : Frame) (p : Nat) : (u8At inp (p / 8)).getLsbD (p % 8) = bitAt inp p := rfl

private theorem shift_and_one : ∀ (b : Byte) (i : Fin 8),
    (b >>> (i : Nat)) &&& 0x01 = if b.getLsbD i then 1 else 0 := by
  decide

theorem streamBit_eq (inp : Frame) (p : Nat) : streamBit inp p = if bitAt inp p then 1 else 0 := by
  rw [streamBit]
  split
  next hlen =>
    rw [bitAt, List.getD_eq_default _ _ hlen]
    simp
  next => exact shift_and_one (u8At inp (p / 8)) ⟨p % 8, Nat.mod_lt p (by omega)⟩

theorem chipPair_one_iff (inp : Frame) (p : Nat) :
    chipPair inp p = manOne ↔ bitAt inp p = false ∧ bitAt inp (p + 1) = true := by
  rw [chipPair, streamBit_eq, streamBit_eq]
  cases bitAt inp p <;> cases bitAt inp (p + 1) <;> simp [manOne]

theorem chipPair_zero_iff (inp : Frame) (p : Nat) :
    chipPair inp p = 0x01 ↔ bitAt inp p = true ∧ bitAt inp (p + 1) = false := by
  rw [chipPair, streamBit_eq, streamBit_eq]
  cases bitAt inp p <;> cases bitAt inp (p + 1) <;> simp

private theorem sof_bits : ∀ b : Byte, b &&& sofMask = sofExpect ↔
    b.getLsbD 0 = true ∧ b.getLsbD 1 = true ∧ b.getLsbD 2 = true ∧ b.getLsbD 3 = false ∧ b.getLsbD 4 = true := by
  decide

private theorem eof_high_bits : ∀ b : Byte, b &&& eofHighMask = eofHighExpect ↔
    b.getLsbD 5 = true ∧ b.getLsbD 6 = false ∧ b.getLsbD 7 = true := by
  decide

private theorem eof_low_bits : ∀ b : Byte, b = eofLowExpect ↔
    b.getLsbD 0 = true ∧ b.getLsbD 1 = true ∧ b.getLsbD 2 = false ∧ b.getLsbD 3 = false ∧ b.getLsbD 4 = false ∧
      b.getLsbD 5 = false ∧ b.getLsbD 6 = false ∧ b.getLsbD 7 = false := by
  decide

theorem sof_iff {inp : Frame} (hlen : 3 ≤ inp.length) : u8At inp 0 &&& sofMask = sofExpect ↔ HasBits inp 0 sof := by
  have hbit (i : Nat) (hi : i < 8) : bitAt inp i = (u8At inp 0).getLsbD i := by
    rw [bitAt, Nat.div_eq_of_lt hi, Nat.mod_eq_of_lt hi]
    rfl
  rw [sof_bits]
  simp only [sof, HasBits, Nat.zero_add, Nat.reduceAdd, hbit 0 (by omega), hbit 1 (by omega), hbit 2 (by omega),
    hbit 3 (by omega), hbit 4 (by omega)]
  simp only [show 5 ≤ 8 * inp.length by omega, and_true]

/-- The code's two byte patterns are the end of frame, wherever a byte may start. -/
theorem eofAt_iff {inp : Frame} {bitPos : Nat} (hbyte : bitPos % 8 = 0) :
    eofAt inp bitPos (manchesterStartPos + 2 * bitPos) ↔ HasBits inp (manchesterStartPos + 2 * bitPos) eof := by
  generalize hp : manchesterStartPos + 2 * bitPos = p
  rw [manchesterStartPos] at hp
  have hhigh (i : Nat) (hi : i < 3) : bitAt inp (p + i) = (u8At inp (p / 8)).getLsbD (5 + i) := by
    rw [← u8At_bit]
    congr 2 <;> omega
  have hlow (i : Nat) (hi : i < 8) : bitAt inp (p + (3 + i)) = (u8At inp (p / 8 + 1)).getLsbD i := by
    rw [← u8At_bit]
    congr 2 <;> omega
  have hend : p / 8 + 1 < inp.length ↔ p + 11 ≤ 8 * inp.length := by omega
  have hfirst := hhigh 0 (by omega)
  rw [Nat.add_zero] at hfirst
  rw [eofAt, decide_eq_true_iff, eof_high_bits, eof_low_bits, hend]
  simp only [eof, HasBits, Nat.add_assoc, Nat.reduceAdd, hfirst, hhigh 1 (by omega), hhigh 2 (by omega),
    hlow 0 (by omega), hlow 1 (by omega), hlow 2 (by omega), hlow 3 (by omega), hlow 4 (by omega), hlow 5 (by omega),
    hlow 6 (by omega), hlow 7 (by omega)]
  constructor
  · rintro ⟨-, hend, ⟨h0, h1, h2⟩, h3, h4, h5, h6, h7, h8, h9, h10⟩
    exact ⟨h0, h1, h2, h3, h4, h5, h6, h7, h8, h9, h10, hend⟩
  · rintro ⟨h0, h1, h2, h3, h4, h5, h6, h7, h8, h9, h10, hend⟩
    exact ⟨hbyte, hend, ⟨h0, h1, h2⟩, h3, h4, h5, h6, h7, h8, h9, h10⟩

/-- Two data bits never look like the end of frame: its second pair of chips is no bit. -/
theorem eof_not_data (inp : Frame) (p : Nat) (b c : Bool) (rest : List Bool)
    (h : HasBits inp p (manchester (b :: c :: rest))) :
    ¬ HasBits inp p eof := by
  intro heof
  simp only [manchester_cons, HasBits] at h
  simp only [eof, HasBits] at heof
  obtain ⟨-, -, hfirst, hsecond, -⟩ := h
  obtain ⟨-, -, hthird, hfourth, -⟩ := heof
  have hc : c = true := hsecond.symm.trans hfourth
  have hnc : (!c) = true := hfirst.symm.trans hthird
  rw [hc] at hnc
  exact absurd hnc (by simp)

theorem eofAt_data {inp : Frame} {bitPos : Nat} {bits : List Bool}
    (h : HasBits inp (manchesterStartPos + 2 * bitPos) (manchester bits)) (hmod : (bitPos + bits.length) % 8 = 0)
    (hne : bits ≠ []) : eofAt inp bitPos (manchesterStartPos + 2 * bitPos) = false := by
  apply Bool.eq_false_iff.mpr
  intro heof
  have hbyte : bitPos % 8 = 0 := (of_decide_eq_true heof).1
  have hread := (eofAt_iff hbyte).mp heof
  rcases bits with _ | ⟨b, _ | ⟨c, rest⟩⟩
  · exact hne rfl
  · rw [List.length_singleton] at hmod
    omega
  · exact eof_not_data inp _ b c rest h hread

/-! ### The loop -/

/-- What the loop has collected after `bits.length` bits, and where it stands. -/
structure Collected (inp tmp : Frame) (bits : List Bool) : Prop where
  size : tmp.length = maxStreamFrame
  bit (q : Nat) : bitAt tmp q = bits.getD q false
  chips : HasBits inp manchesterStartPos (manchester bits)

theorem collected_start {inp : Frame} (hlen : 3 ≤ inp.length) :
    Collected inp (List.replicate maxStreamFrame 0) [] := by
  refine ⟨List.length_replicate, fun q => ?_, ?_⟩
  · rw [bitAt, List.getD_nil]
    rcases Nat.lt_or_ge (q / 8) maxStreamFrame with hq | hq
    · rw [List.getD_eq_getElem _ _ (by simpa using hq), List.getElem_replicate]
      simp
    · rw [List.getD_eq_default _ _ (by simpa using hq)]
      simp
  · rw [manchester_nil, HasBits, manchesterStartPos]
    omega

def putBit (tmp : Frame) (bitPos : Nat) (b : Bool) : Frame := if b then setBit tmp bitPos else tmp

theorem Collected.put {inp tmp : Frame} {bits : List Bool} (h : Collected inp tmp bits) {b : Bool}
    (hroom : bits.length < maxStreamFrame * 8)
    (hchips : HasBits inp (manchesterStartPos + 2 * bits.length) [!b, b]) :
    Collected inp (putBit tmp bits.length b) (bits ++ [b]) := by
  refine ⟨?_, fun q => ?_, ?_⟩
  · rw [putBit]
    split
    · rw [setBit_length, h.size]
    · exact h.size
  · have hlast : (bits ++ [b]).getD q false = (decide (q = bits.length) && b || bits.getD q false) := by
      rcases Nat.lt_trichotomy q bits.length with hq | rfl | hq
      · rw [List.getD_append _ _ _ _ hq]
        simp [Nat.ne_of_lt hq]
      · rw [List.getD_append_right _ _ _ _ (Nat.le_refl _), List.getD_eq_default bits _ (Nat.le_refl _)]
        simp
      · rw [List.getD_eq_default bits _ (Nat.le_of_lt hq), List.getD_eq_default _ _ (by simp; omega)]
        simp [Nat.ne_of_gt hq]
    rw [hlast, ← h.bit q, putBit]
    cases b with
    | false => simp
    | true => rw [if_pos rfl, bitAt_setBit _ (by rw [h.size]; omega), Bool.and_true]
  · rw [manchester_append, hasBits_append, manchester_length]
    exact ⟨h.chips, hchips⟩

/-- One turn of the loop over the two chips of a bit. -/
theorem decodeBits_step {inp : Frame} (tmp : Frame) {bitPos manchesterPos : Nat} {b : Bool}
    (hchips : HasBits inp manchesterPos [!b, b]) (heof : eofAt inp bitPos manchesterPos = false)
    (hroom : bitPos < maxStreamFrame * 8) :
    decodeBits inp tmp bitPos manchesterPos =
      decodeBits inp (putBit tmp bitPos b) (bitPos + 1) (manchesterPos + manStep) := by
  have hlen := hchips.length_le
  simp only [List.length_cons, List.length_nil] at hlen
  simp only [HasBits] at hchips
  rw [decodeBits, if_pos (by omega), heof, if_neg Bool.false_ne_true, if_neg (Nat.not_le.mpr hroom)]
  cases b with
  | true => rw [if_pos ((chipPair_one_iff inp _).mpr ⟨hchips.1, hchips.2.1⟩), putBit, if_pos rfl]
  | false =>
      have hzero := (chipPair_zero_iff inp manchesterPos).mpr ⟨hchips.1, hchips.2.1⟩
      rw [hzero, if_neg (by decide), if_neg (not_not.mpr rfl), putBit, if_neg Bool.false_ne_true]

/-- A pair of equal chips ends the decoding. -/
theorem decodeBits_bad {inp : Frame} (tmp : Frame) {bitPos manchesterPos : Nat}
    (hmore : manchesterPos + 1 < inp.length * 8) (heof : eofAt inp bitPos manchesterPos = false)
    (hsame : bitAt inp manchesterPos = bitAt inp (manchesterPos + 1)) :
    decodeBits inp tmp bitPos manchesterPos = none := by
  have hone : chipPair inp manchesterPos ≠ manOne := by
    intro hpair
    rw [chipPair_one_iff, hsame] at hpair
    exact absurd (hpair.1.symm.trans hpair.2) (by simp)
  have hzero : chipPair inp manchesterPos ≠ 0x01 := by
    intro hpair
    rw [chipPair_zero_iff, hsame] at hpair
    exact absurd (hpair.1.symm.trans hpair.2) (by simp)
  rw [decodeBits, if_pos hmore, heof, if_neg Bool.false_ne_true, if_neg hone, if_pos hzero, ite_self]

/-- The loop ends at an end of frame, or in the middle of a byte. -/
theorem decodeBits_sound {inp tmp tmp' : Frame} {bits : List Bool} {n : Nat} (hcol : Collected inp tmp bits)
    (h : decodeBits inp tmp bits.length (manchesterStartPos + 2 * bits.length) = some (tmp', n)) (hn : n % 8 = 0) :
    ∃ all, all.length = n ∧ Collected inp tmp' all ∧ HasBits inp (manchesterStartPos + 2 * n) eof := by
  induction hk : 8 * inp.length - 2 * bits.length using Nat.strong_induction_on generalizing tmp bits with
  | _ k ih =>
      have hlen := hcol.chips.length_le
      rw [manchester_length, manchesterStartPos] at hlen
      rcases Nat.lt_or_ge (manchesterStartPos + 2 * bits.length + 1) (inp.length * 8) with hmore | hend
      · by_cases heof : eofAt inp bits.length (manchesterStartPos + 2 * bits.length) = true
        · rw [decodeBits, if_pos hmore, heof, if_pos rfl] at h
          obtain ⟨rfl, rfl⟩ := Prod.mk.inj (Option.some.inj h)
          exact ⟨bits, rfl, hcol, (eofAt_iff (of_decide_eq_true heof).1).mp heof⟩
        · rw [Bool.not_eq_true] at heof
          rcases Nat.lt_or_ge bits.length (maxStreamFrame * 8) with hroom | hfull
          · by_cases hsame : bitAt inp (manchesterStartPos + 2 * bits.length) =
                bitAt inp (manchesterStartPos + 2 * bits.length + 1)
            · rw [decodeBits_bad tmp hmore heof hsame] at h
              exact absurd h (by simp)
            · have hchips : HasBits inp (manchesterStartPos + 2 * bits.length)
                  [!bitAt inp (manchesterStartPos + 2 * bits.length + 1),
                    bitAt inp (manchesterStartPos + 2 * bits.length + 1)] := by
                refine ⟨Bool.eq_not_of_ne hsame, rfl, ?_⟩
                rw [HasBits]
                omega
              have hnext := hcol.put hroom hchips
              rw [decodeBits_step tmp hchips heof hroom] at h
              refine ih _ ?_ hnext ?_ rfl
              · rw [List.length_append, List.length_singleton]
                rw [manchesterStartPos] at hmore
                omega
              · rw [List.length_append, List.length_singleton]
                exact h
          · rw [decodeBits, if_pos hmore, heof, if_neg Bool.false_ne_true, if_pos hfull] at h
            exact absurd h (by simp)
      · rw [decodeBits, if_neg (Nat.not_lt.mpr hend)] at h
        obtain ⟨rfl, rfl⟩ := Prod.mk.inj (Option.some.inj h)
        rw [manchesterStartPos] at hend
        omega

theorem decodeBits_complete {inp tmp : Frame} {bits : List Bool} (rest : List Bool) (hcol : Collected inp tmp bits)
    (hrest : HasBits inp (manchesterStartPos + 2 * bits.length) (manchester rest ++ eof))
    (hmod : (bits.length + rest.length) % 8 = 0) (hroom : bits.length + rest.length ≤ maxStreamFrame * 8) :
    ∃ tmp', decodeBits inp tmp bits.length (manchesterStartPos + 2 * bits.length) =
        some (tmp', bits.length + rest.length) ∧ Collected inp tmp' (bits ++ rest) := by
  induction rest generalizing tmp bits with
  | nil =>
      rw [List.length_nil, Nat.add_zero] at hmod ⊢
      have heof := (eofAt_iff hmod).mpr hrest
      have hlen := HasBits.length_le hrest
      refine ⟨tmp, ?_, by rwa [List.append_nil]⟩
      rw [decodeBits, if_pos, heof, if_pos rfl]
      rw [manchester_nil, List.nil_append, eof] at hlen
      simp only [List.length_cons, List.length_nil] at hlen
      omega
  | cons b rest ih =>
      rw [List.length_cons] at hmod hroom
      have hdata := ((hasBits_append _ _ _ _).mp hrest).1
      have heof := eofAt_data hdata (by rwa [List.length_cons]) (List.cons_ne_nil b rest)
      have hfirst : HasBits inp (manchesterStartPos + 2 * bits.length) [!b, b] :=
        ((hasBits_append inp _ [!b, b] (manchester rest)).mp hdata).1
      have hcol' := hcol.put (by omega) hfirst
      obtain ⟨tmp', hrun, hall⟩ := ih hcol' (by
        have hbehind := ((hasBits_append inp _ [!b, b] (manchester rest ++ eof)).mp hrest).2
        rw [List.length_append, List.length_singleton]
        exact hbehind) (by rw [List.length_append, List.length_singleton]; omega)
        (by rw [List.length_append, List.length_singleton]; omega)
      rw [List.length_append, List.length_singleton] at hrun
      refine ⟨tmp', ?_, by rwa [List.append_assoc] at hall⟩
      rw [decodeBits_step tmp hfirst heof (by omega), List.length_cons, Nat.add_comm rest.length,
        ← Nat.add_assoc, ← hrun]
      rfl

/-! ### The decoder and the frame -/

/-- The collected bytes are the bytes of the collected bits. -/
theorem Collected.take {inp tmp : Frame} {data : Frame} (h : Collected inp tmp (bitsOf data))
    (hlen : data.length ≤ maxStreamFrame) : tmp.take data.length = data := by
  apply bitsOf_injective
  apply List.ext_getElem
  · rw [bitsOf_length, bitsOf_length, List.length_take, h.size, Nat.min_eq_left hlen]
  · intro q hq hq'
    have hbyte : q / 8 < data.length := by
      rw [bitsOf_length] at hq'
      omega
    rw [← List.getD_eq_getElem _ false hq, ← List.getD_eq_getElem _ false hq', ← h.bit q, bitsOf_getD, bitAt, bitAt,
      List.getD_eq_getElem?_getD, List.getElem?_take_of_lt hbyte, ← List.getD_eq_getElem?_getD]

theorem viccFrame_prefix_iff (inp payload : Frame) :
    viccFrame payload <+: bitsOf inp ↔
      HasBits inp 0 sof ∧ HasBits inp manchesterStartPos (manchester (bitsOf (payload ++ crcBytes payload))) ∧
        HasBits inp (manchesterStartPos + 2 * (8 * (payload.length + 2))) eof := by
  have hpre := hasBits_iff_drop (Nat.zero_le (8 * inp.length)) (viccFrame payload)
  rw [List.drop_zero] at hpre
  rw [← hpre, viccFrame, hasBits_append, hasBits_append, and_assoc]
  simp only [List.length_append, manchester_length, bitsOf_length]
  rw [Nat.zero_add, Nat.zero_add]
  rfl

theorem viccFrame_length (payload : Frame) : (viccFrame payload).length = 8 * (2 * (payload.length + 3)) := by
  rw [viccFrame, List.length_append, List.length_append, manchester_length, bitsOf_length, List.length_append]
  simp only [sof, eof, crcBytes, List.length_cons, List.length_nil]
  omega

private theorem take_last_two {data : Frame} (hlen : 2 ≤ data.length) :
    data = data.take (data.length - 2) ++ [u8At data (data.length - 2), u8At data (data.length - 1)] := by
  conv_lhs => rw [← List.take_append_drop (data.length - 2) data]
  congr 1
  have hfirst : data.length - 2 < data.length := by omega
  have hsecond : data.length - 2 + 1 < data.length := by omega
  rw [List.drop_eq_getElem_cons hfirst, List.drop_eq_getElem_cons hsecond, List.drop_eq_nil_of_le (by omega),
    u8At, u8At, List.getD_eq_getElem _ _ hfirst,
    List.getD_eq_getElem _ _ (show data.length - 1 < data.length by omega)]
  congr 3
  omega

theorem streamDecode_sound {inp payload : Frame} {outMax : Nat} (h : streamDecode inp outMax = some payload) :
    payload ≠ [] ∧ payload.length ≤ outMax ∧ inp.length ≤ maxStreamFrame ∧ viccFrame payload <+: bitsOf inp := by
  rw [streamDecode] at h
  split at h
  next => exact absurd h (by simp)
  next hhead =>
    obtain ⟨hmin, hmax, hsof⟩ : 3 ≤ inp.length ∧ inp.length ≤ maxStreamFrame ∧ u8At inp 0 &&& sofMask = sofExpect := by
      rw [streamMinInLen] at hhead
      refine ⟨by omega, by omega, ?_⟩
      by_contra hne
      exact hhead (Or.inr (Or.inr hne))
    split at h
    next => exact absurd h (by simp)
    next tmp bitPos hrun =>
      split at h
      next => exact absurd h (by simp)
      next hwhole =>
        split at h
        next => exact absurd h (by simp)
        next hfit =>
          split at h
          next => exact absurd h (by simp)
          next hcrc =>
            obtain ⟨hlow, hhigh⟩ := not_or.mp hcrc
            rw [not_not] at hlow hhigh
            have hmod : bitPos % 8 = 0 := by omega
            obtain ⟨bits, hbits, hcol, heof⟩ := decodeBits_sound (collected_start hmin) hrun hmod
            obtain ⟨data, rfl⟩ := exists_bytes (bitPos / 8) (show bits.length = 8 * (bitPos / 8) by omega)
            have hroom := heof.length_le
            have hcount : bitPos / 8 = data.length := by
              rw [bitsOf_length] at hbits
              omega
            have hdata : tmp.take data.length = data := hcol.take (by omega)
            rw [hcount] at h hlow hhigh hfit
            rw [crcLen] at h hlow hhigh hfit
            have htwo : 2 ≤ data.length := by omega
            have hpayload : tmp.take (data.length - 2) = data.take (data.length - 2) :=
              calc
                tmp.take (data.length - 2) = (tmp.take data.length).take (data.length - 2) := by
                  rw [List.take_take, Nat.min_eq_left (Nat.sub_le _ _)]
                _ = data.take (data.length - 2) := by rw [hdata]
            have hat (i : Nat) (hi : i < data.length) : u8At tmp i = u8At data i := by
              rw [← u8At_take tmp hi, hdata]
            rw [hpayload, Option.some.injEq] at h
            rw [hat _ (by omega), hpayload, h] at hlow hhigh
            have hlen : payload.length = data.length - 2 := by
              rw [← h, List.length_take, Nat.min_eq_left (Nat.sub_le _ _)]
            have hall : data = payload ++ crcBytes payload := by
              rw [take_last_two htwo, h, hlow, hhigh]
              rfl
            refine ⟨?_, by omega, hmax, ?_⟩
            · intro hnil
              rw [hnil, List.length_nil] at hlen
              omega
            · rw [viccFrame_prefix_iff, ← hall]
              refine ⟨(sof_iff hmin).mp hsof, hcol.chips, ?_⟩
              rwa [show payload.length + 2 = data.length by omega, ← bitsOf_length, hbits]

theorem streamDecode_complete {inp payload : Frame} {outMax : Nat} (hne : payload ≠ []) (hfit : payload.length ≤ outMax)
    (hmax : inp.length ≤ maxStreamFrame) (hframe : viccFrame payload <+: bitsOf inp) :
    streamDecode inp outMax = some payload := by
  have hpos := List.length_pos_of_ne_nil hne
  have hlen := hframe.length_le
  rw [viccFrame_length, bitsOf_length] at hlen
  have hmin : 3 ≤ inp.length := by omega
  obtain ⟨hsof, hchips, heof⟩ := (viccFrame_prefix_iff inp payload).mp hframe
  have hsize : (payload ++ crcBytes payload).length = payload.length + 2 := by
    rw [List.length_append, crcBytes_length]
  have hbits : (bitsOf (payload ++ crcBytes payload)).length = 8 * (payload.length + 2) := by
    rw [bitsOf_length, hsize]
  have hroom : 8 * (payload.length + 2) ≤ maxStreamFrame * 8 := by omega
  obtain ⟨tmp, hrun, hcol⟩ := decodeBits_complete (bitsOf (payload ++ crcBytes payload)) (collected_start hmin)
    ((hasBits_append _ _ _ _).mpr ⟨hchips, by rwa [manchester_length, hbits]⟩)
    (by rw [hbits, List.length_nil]; omega) (by rw [hbits, List.length_nil]; omega)
  rw [List.nil_append] at hcol
  rw [List.length_nil, Nat.zero_add, Nat.mul_zero, Nat.add_zero, hbits] at hrun
  have htake := hcol.take (by omega)
  rw [hsize] at htake
  have hdiv : 8 * (payload.length + 2) / 8 = payload.length + 2 := by omega
  have hpayload : tmp.take payload.length = payload :=
    calc
      tmp.take payload.length = (tmp.take (payload.length + 2)).take payload.length := by
        rw [List.take_take, Nat.min_eq_left (Nat.le_add_right _ _)]
      _ = payload := by rw [htake, List.take_left]
  have hlow : u8At tmp payload.length = crcLow payload := by
    rw [← u8At_take tmp (show payload.length < payload.length + 2 by omega), htake,
      u8At_append_right _ _ (Nat.le_refl _), Nat.sub_self]
    rfl
  have hhigh : u8At tmp (payload.length + 1) = crcHigh payload := by
    rw [← u8At_take tmp (show payload.length + 1 < payload.length + 2 by omega), htake,
      u8At_append_right _ _ (Nat.le_add_right _ _), Nat.add_sub_cancel_left]
    rfl
  have hhead : ¬(inp.length < streamMinInLen ∨ maxStreamFrame < inp.length ∨ u8At inp 0 &&& sofMask ≠ sofExpect) := by
    rintro (hshort | hlong | hno)
    · exact absurd hmin (Nat.not_le.mpr hshort)
    · omega
    · exact hno ((sof_iff hmin).mpr hsof)
  rw [streamDecode, if_neg hhead, hrun]
  dsimp only
  rw [hdiv, crcLen, Nat.add_sub_cancel, show payload.length + 2 - 1 = payload.length + 1 from rfl, hpayload,
    hlow, hhigh, if_neg (by omega), if_neg (by omega), if_neg (by simp)]

/-- **Decoding a sample.** The decoder accepts a sample with these bytes exactly when they are not empty, fit the
output, and the sample starts with their frame. A tag's answer is decoded wherever the sample ends behind it, and
a sample without a start of frame, with a pair of equal chips, with a wrong CRC, cut off within a byte or without an
end of frame is refused. No data byte is taken for the end of frame, and every payload has a sample of whole bytes
that is its frame. -/
theorem stream_decode_exact :
    (∀ (inp payload : Frame) (outMax : Nat), streamDecode inp outMax = some payload ↔
      payload ≠ [] ∧ payload.length ≤ outMax ∧ inp.length ≤ maxStreamFrame ∧ viccFrame payload <+: bitsOf inp) ∧
    (∀ (inp : Frame) (bitPos : Nat) (b : Byte),
      manchester (byteBits b) <+: (bitsOf inp).drop (manchesterStartPos + 2 * bitPos) →
        eofAt inp bitPos (manchesterStartPos + 2 * bitPos) = false) ∧
    ∀ payload : Frame, ∃ inp : Frame, bitsOf inp = viccFrame payload ∧ inp.length = 2 * (payload.length + 3) := by
  refine ⟨fun inp payload outMax => ⟨streamDecode_sound, ?_⟩, fun inp bitPos b hdata => ?_, fun payload => ?_⟩
  · rintro ⟨hne, hfit, hmax, hframe⟩
    exact streamDecode_complete hne hfit hmax hframe
  · by_cases hbyte : bitPos % 8 = 0
    · have hlen := hdata.length_le
      rw [manchester_length, byteBits_length, List.length_drop, bitsOf_length] at hlen
      have hread := (hasBits_iff_drop (by omega) _).mpr hdata
      apply eofAt_data hread
      · rw [byteBits_length]
        omega
      · simp [byteBits]
    · rw [eofAt, decide_eq_false_iff_not]
      exact fun h => hbyte h.1
  · obtain ⟨inp, hinp⟩ := exists_bytes (2 * (payload.length + 3)) (viccFrame_length payload)
    refine ⟨inp, hinp, ?_⟩
    have hlen := congrArg List.length hinp
    rw [bitsOf_length, viccFrame_length] at hlen
    omega

end NeroReader.Iso15693
