import NeroReader.IsoDepSession

/-!
The wait in front of the first I-block. The reader takes it from the TB byte that its ATS parser finds; the
Type 4 writer walks over the ATS on its own and starts at the format byte itself, so that it reads the high
nibble of the byte in front of the TB byte.
-/

namespace NeroReader.IsoDep

/-! ### The wait -/

def preIblockDelayMinMs : Nat := 18
def preIblockDelayMaxMs : Nat := 200

def preFirstIblockDelayMs (fwtUs : Nat) : Nat :=
  let ms := (fwtUs + 999) / 1000
  min (max ms preIblockDelayMinMs) preIblockDelayMaxMs

def preFirstIblockDelayDefaultMs : Nat := preFirstIblockDelayMs (fwtUsFromFwi fwiDefault)

def fwiClamp (fwi : Nat) : Nat := if fwiMax < fwi then fwiDefault else fwi

/-- The FWI in the high nibble of a byte. -/
def fwiOf (tb : Byte) : Nat := (tb >>> 4).toNat

/-- `writer_iso_dep_pre_first_iblock_delay_ms`. -/
def writerPreFirstIblockDelayMs (ats : Frame) : Nat :=
  if ats.length < atsMinLen then preFirstIblockDelayDefaultMs
  else
    let t0 := u8At ats 1
    -- the first interface byte is at 2; the walk starts at T0 and skips one byte for the bit of TA
    let idx := if t0 &&& atsT0TaMask ≠ 0 then 2 else 1
    let fwi := if t0 &&& atsT0TbMask ≠ 0 ∧ idx < ats.length then fwiOf (u8At ats idx) else fwiDefault
    preFirstIblockDelayMs (fwtUsFromFwi (fwiClamp fwi))

/-- The profile of an ATS that the parser rejects. -/
def AtsProfile.reset : AtsProfile := ⟨fscMax, fwtUsFromFwi fwiDefault, none⟩

/-- The profile that `reader_iso_dep_parse_ats_profile` leaves, whatever it returns. -/
def atsProfile (ats : Frame) : AtsProfile := (parseAtsProfile ats).getD .reset

/-! ### Waits that are alike -/

/-- The waits there are: up to FWI 5, and for the reserved FWI, the shortest; from FWI 10 on the longest. -/
def delayClass (fwi : Nat) : Nat := if fwi ≤ 5 ∨ fwiMax < fwi then 5 else min fwi 10

def delayOfClass (delay : Nat) : Nat := [18, 18, 18, 18, 18, 18, 20, 39, 78, 155, 200].getD delay 0

theorem delay_fwtUsFromFwi {fwi : Nat} (h : fwi < 16) :
    preFirstIblockDelayMs (fwtUsFromFwi fwi) = delayOfClass (delayClass fwi) := by
  have hall : ∀ fwi : Fin 16, preFirstIblockDelayMs (fwtUsFromFwi fwi) = delayOfClass (delayClass fwi) := by
    decide
  exact hall ⟨fwi, h⟩

theorem delayClass_bounds (fwi : Nat) : 5 ≤ delayClass fwi ∧ delayClass fwi ≤ 10 := by
  rw [delayClass]
  split <;> omega

theorem delayOfClass_inj {a b : Nat} (ha : 5 ≤ a ∧ a ≤ 10) (hb : 5 ≤ b ∧ b ≤ 10)
    (h : delayOfClass a = delayOfClass b) : a = b := by
  have hall : ∀ a b : Fin 11, 5 ≤ a.val → 5 ≤ b.val → delayOfClass a = delayOfClass b → a = b := by decide
  have hfin := hall ⟨a, by omega⟩ ⟨b, by omega⟩ ha.1 hb.1 h
  exact congrArg Fin.val hfin

theorem delay_eq_iff {a b : Nat} (ha : a < 16) (hb : b < 16) :
    preFirstIblockDelayMs (fwtUsFromFwi a) = preFirstIblockDelayMs (fwtUsFromFwi b) ↔ delayClass a = delayClass b := by
  rw [delay_fwtUsFromFwi ha, delay_fwtUsFromFwi hb]
  constructor
  · apply delayOfClass_inj (delayClass_bounds a) (delayClass_bounds b)
  · intro h
    rw [h]

theorem fwiClamp_lt (fwi : Nat) : fwiClamp fwi < 16 := by
  rw [fwiClamp, fwiMax, fwiDefault]
  split <;> omega

theorem delayClass_fwiClamp (fwi : Nat) : delayClass (fwiClamp fwi) = delayClass fwi := by
  rw [fwiClamp]
  split
  · rename_i hmax
    rw [delayClass, delayClass, if_pos (by decide), if_pos (Or.inr hmax)]
  · rfl

/-! ### Where the two walks agree -/

/-- The TB byte of an ATS that announces one, unless it is cut off. -/
def tbByte (t0 : Byte) (interface : Frame) : Option Byte :=
  if t0 &&& atsT0TaMask = 0 then interface.head? else interface.tail.head?

/-- The byte in front of it: the format byte, or TA unless it is cut off. -/
def beforeTb (t0 : Byte) (interface : Frame) : Option Byte :=
  if t0 &&& atsT0TaMask = 0 then some t0 else interface.head?

/-- The high nibble of a byte, read as an FWI; the default stands for a byte that is cut off. -/
def fwiOr : Option Byte → Nat
  | none => fwiDefault
  | some tb => fwiOf tb

/-- No TB byte is announced, or its FWI and the high nibble of the byte in front of it give the same wait. -/
def TimingAgrees (t0 : Byte) (interface : Frame) : Prop :=
  t0 &&& atsT0TbMask = 0 ∨ delayClass (fwiOr (beforeTb t0 interface)) = delayClass (fwiOr (tbByte t0 interface))

instance (t0 : Byte) (interface : Frame) : Decidable (TimingAgrees t0 interface) := inferInstanceAs (Decidable (_ ∨ _))

/-- The FWI the writer goes by. -/
def writerFwi (t0 : Byte) (interface : Frame) : Nat :=
  if t0 &&& atsT0TbMask = 0 then fwiDefault else fwiOr (beforeTb t0 interface)

/-- The FWI the reader goes by. -/
def readerFwi (t0 : Byte) (interface : Frame) : Nat :=
  if t0 &&& atsT0TbMask = 0 then fwiDefault else fwiOr (tbByte t0 interface)

theorem writerDelay_eq (tl t0 : Byte) (interface : Frame) :
    writerPreFirstIblockDelayMs (tl :: t0 :: interface) =
      preFirstIblockDelayMs (fwtUsFromFwi (fwiClamp (writerFwi t0 interface))) := by
  have hlen : ¬(tl :: t0 :: interface).length < atsMinLen := by
    rw [atsMinLen, List.length_cons, List.length_cons]
    omega
  rw [writerPreFirstIblockDelayMs, if_neg hlen, writerFwi, beforeTb, u8At_cons_succ, u8At_cons_zero]
  dsimp only
  by_cases htb : t0 &&& atsT0TbMask = 0
  · rw [if_pos htb, if_neg (fun h => h.1 htb)]
  rw [if_neg htb]
  by_cases hta : t0 &&& atsT0TaMask = 0
  · rw [if_pos hta, if_neg (not_not_intro hta), if_pos ⟨htb, by simp⟩]
    rfl
  rw [if_neg hta, if_pos hta]
  cases interface with
  | nil =>
      rw [if_neg (by simp)]
      rfl
  | cons ta rest =>
      rw [if_pos ⟨htb, by simp⟩]
      rfl

/-- The FWI in the parser, read at the position behind TA. -/
def parsedFwi (ats : Frame) : Nat :=
  let t0 := u8At ats 1
  let posTb := if t0 &&& atsT0TaMask ≠ 0 ∧ 2 < ats.length then 3 else 2
  if t0 &&& atsT0TbMask ≠ 0 ∧ posTb < ats.length then fwiOf (u8At ats posTb) else fwiDefault

theorem parseAtsProfile_fwtUs {ats : Frame} (h : atsMinLen ≤ ats.length) :
    (parseAtsProfile ats).map AtsProfile.fwtUs =
      if fwiMax < parsedFwi ats then none else some (fwtUsFromFwi (parsedFwi ats)) := by
  rw [parseAtsProfile, if_neg (Nat.not_lt.mpr h)]
  change Option.map AtsProfile.fwtUs (if fwiMax < parsedFwi ats then none else some ⟨_, _, _⟩) = _
  split <;> rfl

theorem parsedFwi_eq (tl t0 : Byte) (interface : Frame) :
    parsedFwi (tl :: t0 :: interface) = readerFwi t0 interface := by
  rw [parsedFwi, readerFwi, tbByte, u8At_cons_succ, u8At_cons_zero]
  by_cases htb : t0 &&& atsT0TbMask = 0
  · rw [if_pos htb, if_neg (fun h => h.1 htb)]
  rw [if_neg htb]
  by_cases hta : t0 &&& atsT0TaMask = 0
  · have hpos : (if t0 &&& atsT0TaMask ≠ 0 ∧ 2 < (tl :: t0 :: interface).length then 3 else 2) = 2 :=
      if_neg fun h => h.1 hta
    rw [hpos, if_pos hta]
    cases interface with
    | nil => exact if_neg fun h => absurd h.2 (Nat.lt_irrefl 2)
    | cons tb rest => exact if_pos ⟨htb, by simp⟩
  rw [if_neg hta]
  match interface with
  | [] => exact if_neg fun h => absurd h.2 (by simp)
  | [ta] =>
      rw [if_pos (⟨hta, by simp⟩ : _ ∧ 2 < [tl, t0, ta].length)]
      exact if_neg fun h => absurd h.2 (Nat.lt_irrefl 3)
  | ta :: tb :: rest =>
      rw [if_pos (⟨hta, by simp⟩ : _ ∧ 2 < (tl :: t0 :: ta :: tb :: rest).length)]
      exact if_pos ⟨htb, by simp⟩

/-- The parser leaves the waiting time of the TB byte, of the default where there is none or a reserved one. -/
theorem atsProfile_fwtUs (tl t0 : Byte) (interface : Frame) :
    (atsProfile (tl :: t0 :: interface)).fwtUs = fwtUsFromFwi (fwiClamp (readerFwi t0 interface)) := by
  have hfwi := parseAtsProfile_fwtUs (show atsMinLen ≤ (tl :: t0 :: interface).length by
    rw [atsMinLen, List.length_cons, List.length_cons]
    omega)
  rw [parsedFwi_eq] at hfwi
  rw [atsProfile, fwiClamp]
  cases hparse : parseAtsProfile (tl :: t0 :: interface) with
  | none =>
      rw [hparse] at hfwi
      split
      · rfl
      · rw [if_neg (by assumption)] at hfwi
        cases hfwi
  | some profile =>
      rw [hparse] at hfwi
      split
      · rw [if_pos (by assumption)] at hfwi
        cases hfwi
      · rw [if_neg (by assumption)] at hfwi
        exact Option.some.inj hfwi

/-- **The writer waits as long as the reader on exactly the ATS where the byte in front of TB gives the same
wait.** -/
theorem writer_delay_eq_iff (tl t0 : Byte) (interface : Frame) :
    writerPreFirstIblockDelayMs (tl :: t0 :: interface) =
        preFirstIblockDelayMs (atsProfile (tl :: t0 :: interface)).fwtUs ↔ TimingAgrees t0 interface := by
  rw [writerDelay_eq, atsProfile_fwtUs, delay_eq_iff (fwiClamp_lt _) (fwiClamp_lt _), delayClass_fwiClamp,
    delayClass_fwiClamp, writerFwi, readerFwi, TimingAgrees]
  split
  · rename_i htb
    exact iff_of_true rfl (Or.inl htb)
  · rename_i htb
    rw [or_iff_right htb]

/-- An ATS with TB alone: the reader waits for FWI 7, the writer for the 2 of T0. -/
theorem writer_delay_short :
    ¬writerPreFirstIblockDelayMs [0x03, 0x20, 0x70] = preFirstIblockDelayMs (atsProfile [0x03, 0x20, 0x70]).fwtUs := by
  decide

end NeroReader.IsoDep
