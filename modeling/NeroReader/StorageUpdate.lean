import NeroReader.Sequential
import NeroReader.StorageNdef

/-!
UPDATE BINARY on Type 2 and Type 5 storage over the CCID relay
(`reader_ccid_handle_update_binary_apdu`). The host's abort request is polled before every unit, and
a unit counts as written when it reads back as sent; both are answers of the outside, one for each
unit. The loop counter is a byte and wraps as it does in the source.
-/

namespace NeroReader.Storage

open Sequential

/-! ### The request -/

def swSuccess : Frame := [0x90, 0x00]
def swVerificationFailed : Frame := [0x63, 0x00]
def swWrongLength : Frame := [0x67, 0x00]
def swConditionsNotSatisfied : Frame := [0x69, 0x85]
def swFuncNotSupported : Frame := [0x6A, 0x81]
def swWrongData : Frame := [0x6A, 0x00]
def swWrongP1P2 : Frame := [0x6B, 0x00]

/-- `nfc_iso7816_apdu_update_binary`: offset, length and data of a short APDU without Le. -/
def apduUpdateBinary (apdu : Frame) : Option (Word × Byte × Frame) :=
  if apdu.length < 5 then none
  else if apdu.length ≠ 5 + (u8At apdu 4).toNat ∨ u8At apdu 4 = 0 then none
  else some (bigEndian (u8At apdu 2) (u8At apdu 3), u8At apdu 4, apdu.drop 5)

/-- `nfc_iso7816_apdu_read_binary`: offset and Le of a READ BINARY. -/
def apduReadBinary (apdu : Frame) : Option (Word × Byte) :=
  if apdu.length ≠ 5 then none else some (bigEndian (u8At apdu 2) (u8At apdu 3), u8At apdu 4)

/-- `storage_read_binary_fields`. -/
def readBinaryFields (kind : TagKind) (apdu : Frame) : Option (Word × Byte) :=
  match apduReadBinary apdu with
  | none => none
  | some (offset, le) =>
      if kind = .type5 ∧ u8At apdu 2 = 0xFF then some ((u8At apdu 3).zeroExtend 16, le)
      else if kind = .type5 then
        if offset.toNat % type5BlockSize.toNat ≠ 0 then none
        else some (BitVec.ofNat 16 (offset.toNat / type5BlockSize.toNat), le)
      else some (offset, le)

/-- Type 5 offsets count bytes, or name a block in P2 when P1 is FF. -/
def updateBinaryOffset (kind : TagKind) (apdu : Frame) (parsedOffset : Word) : Option Word :=
  if kind ≠ .type5 then some parsedOffset
  else if apdu.length ≤ 3 then some parsedOffset
  else if u8At apdu 2 = 0xFF ∧ 4 ≤ apdu.length then some ((u8At apdu 3).zeroExtend 16)
  else if parsedOffset.toNat % type5BlockSize.toNat ≠ 0 then none
  else some (BitVec.ofNat 16 (parsedOffset.toNat / type5BlockSize.toNat))

/-! ### The unit writes -/

structure UnitWrite where
  unit : Nat
  data : Frame
  deriving DecidableEq, Repr

/-- The abort flag as polled before unit `k`, and whether unit `k` reads back as written. -/
structure WriteEnv where
  aborted : Nat → Bool
  written : Nat → Bool

/-- The units a request wrote to, each with its success, and the response. -/
structure Handled where
  writes : List (UnitWrite × Bool)
  rsp : Frame
  deriving DecidableEq, Repr

def unitBytes (data : Frame) (k : Nat) : Frame := (data.drop (4 * k)).take 4

/-- The units of a data field, from a first unit on. -/
def dataUnit (first : Nat) (data : Frame) (k : Nat) : UnitWrite := ⟨first + k, unitBytes data k⟩

/-- The write loop, none when it runs on past its fuel. Type 2 pages stop at the one-byte page
address, Type 5 blocks have no bound of their own. -/
def writeLoop (env : WriteEnv) (unitMax : Nat) (offset : Word) (lc : Byte) (data : Frame) :
    Nat → Byte → Option (List (UnitWrite × Bool) × Bool)
  | 0, _ => none
  | fuel + 1, off =>
      if off.toNat < lc.toNat then
        let k := off.toNat / 4
        let unit := offset + BitVec.ofNat 16 k
        let write := UnitWrite.mk unit.toNat ((data.drop off.toNat).take 4)
        if env.aborted k ∨ unitMax < unit.toNat then some ([], false)
        else if env.written k then
          match writeLoop env unitMax offset lc data fuel (off + 4) with
          | none => none
          | some (writes, ok) => some ((write, true) :: writes, ok)
        else some ([(write, false)], false)
      else some ([], true)

/-- Passes of a byte counter that steps by four. -/
def writeLoopFuel : Nat := 64

/-! ### The handler -/

section Handler

variable (tag : Tag) (env : WriteEnv)

/-- A response of two status bytes, nothing where they do not fit. -/
def appendStatus (rspCap : Nat) (sw : Frame) : Frame := if rspCap < 2 then [] else sw

def refused (rspCap : Nat) (sw : Frame) : Option Handled := some ⟨[], appendStatus rspCap sw⟩

def finishWrites (rspCap : Nat) (ok : Bool) (writes : List (UnitWrite × Bool)) : Handled :=
  ⟨writes, appendStatus rspCap (if ok then swSuccess else swVerificationFailed)⟩

def runWrites (rspCap unitMax : Nat) (offset : Word) (lc : Byte) (data : Frame) : Option Handled :=
  (writeLoop env unitMax offset lc data writeLoopFuel 0).map fun r => finishWrites rspCap r.2 r.1

def updateType2 (rspCap : Nat) (offset : Word) (lc : Byte) (data : Frame) : Option Handled :=
  match tag.type2 with
  | none => refused rspCap swFuncNotSupported
  | some type2 =>
      if type2.ccValid = false then refused rspCap swFuncNotSupported
      else if type2.writeAccessOpen = false then refused rspCap swConditionsNotSatisfied
      else if type2.updateSpanOk offset lc = false then refused rspCap swWrongP1P2
      else runWrites env rspCap 0xFF offset lc data

/-- Four bytes at offset zero replace the capability container, if they make a valid one. -/
def updateType5 (rspCap : Nat) (offset : Word) (lc : Byte) (data : Frame) : Option Handled :=
  match tag.type5 with
  | none => refused rspCap swFuncNotSupported
  | some type5 =>
      if type5.ccValid = false then refused rspCap swFuncNotSupported
      else if type5.writeAccessOpen = false then refused rspCap swConditionsNotSatisfied
      else if offset = 0 ∧ lc.toNat = t5tCcLenShort then
        if (type5ApplyCc data).ccValid = false then refused rspCap swWrongData
        else if env.aborted 0 then some (finishWrites rspCap false [])
        else some (finishWrites rspCap (env.written 0) [(⟨0, data⟩, env.written 0)])
      else if type5.updateSpanOk offset lc = false then refused rspCap swWrongP1P2
      else runWrites env rspCap 0xFFFF offset lc data

def handleUpdateBinaryApdu (apdu : Frame) (rspCap : Nat) : Option Handled :=
  if rspCap < 2 then some ⟨[], []⟩
  else
    match apduUpdateBinary apdu with
    | none => refused rspCap swWrongLength
    | some (parsedOffset, lc, data) =>
        match updateBinaryOffset tag.kind apdu parsedOffset with
        | none => refused rspCap swWrongP1P2
        | some offset =>
            if tag.kind = .type2 ∧ 0xFF < offset.toNat then refused rspCap swWrongP1P2
            else
              match tag.kind with
              | .type2 => updateType2 tag env rspCap offset lc data
              | .type5 => updateType5 tag env rspCap offset lc data
              | .none => refused rspCap swFuncNotSupported
              | .type4 => refused rspCap swFuncNotSupported

end Handler

/-! ### What may be written -/

/-- The units of a data field written in order from a first one, and the response. -/
def performed (env : WriteEnv) (rspCap first : Nat) (data : Frame) : Handled :=
  let r := perform (dataUnit first data) env.aborted env.written (data.length / 4) 0
  finishWrites rspCap r.2 r.1

/-- The unit that P1 and P2 name: a page of Type 2, and of Type 5 the block in P2 where P1 is FF, else the block at a
byte offset. -/
def Names (kind : TagKind) (apdu : Frame) (unit : Nat) : Prop :=
  if kind ≠ .type5 then (bigEndian (u8At apdu 2) (u8At apdu 3)).toNat = unit
  else if u8At apdu 2 = 0xFF then (u8At apdu 3).toNat = unit
  else (bigEndian (u8At apdu 2) (u8At apdu 3)).toNat = 4 * unit

/-- What the handler asks of the tag in front of a write. -/
def Admitted (tag : Tag) (offset : Word) (lc : Byte) (data : Frame) : Prop :=
  match tag.kind with
  | .type2 => ∃ type2, tag.type2 = some type2 ∧ type2.updateSpanOk offset lc = true
  | .type5 => ∃ type5, tag.type5 = some type5 ∧ type5.ccValid = true ∧ type5.writeAccessOpen = true ∧
      if offset = 0 ∧ lc.toNat = t5tCcLenShort then (type5ApplyCc data).ccValid = true
      else type5.updateSpanOk offset lc = true
  | .none => False
  | .type4 => False

/-- The units an UPDATE BINARY with this data may write to. -/
def Permitted (tag : Tag) (data : Frame) (unit : Nat) : Prop :=
  match tag.kind with
  | .type2 => ∃ type2, tag.type2 = some type2 ∧ type2.ccValid = true ∧ type2.writeAccessOpen = true ∧
      unit ∈ type2.dataPages
  | .type5 => ∃ type5, tag.type5 = some type5 ∧ type5.ccValid = true ∧ type5.writeAccessOpen = true ∧
      (unit ∈ type5.dataBlocks ∨
        unit = 0 ∧ data.length = 4 ∧ (type5ApplyCc data).ccValid = true)
  | .none => False
  | .type4 => False

/-- The writes of a handled request, against its data field. -/
structure WritesSafe (tag : Tag) (env : WriteEnv) (data : Frame) (h : Handled) : Prop where
  permitted : ∀ w ∈ h.writes, Permitted tag data w.1.unit
  ascending : ∃ first, ∀ k (hk : k < h.writes.length),
    h.writes[k] = (⟨first + k, unitBytes data k⟩, env.written k)
  stops : ∀ k, k < h.writes.length → env.aborted k = false ∧ ∀ j < k, env.written j = true
  failed : h.rsp = swVerificationFailed →
    env.aborted h.writes.length = true ∨ ∃ w, h.writes.getLast? = some (w, false)
  untouched : h.rsp ≠ swSuccess → h.rsp ≠ swVerificationFailed → h.writes = []
  complete : h.rsp = swSuccess ↔ 0 < data.length ∧ 4 * h.writes.countP Prod.snd = data.length

theorem writesSafe_refused {tag : Tag} {env : WriteEnv} {data rsp : Frame}
    (hfailed : rsp ≠ swVerificationFailed) (hsuccess : rsp ≠ swSuccess) :
    WritesSafe tag env data ⟨[], rsp⟩ where
  permitted := nofun
  ascending := ⟨0, fun k hk => absurd hk (Nat.not_lt_zero k)⟩
  stops := fun k hk => absurd hk (Nat.not_lt_zero k)
  failed := fun h => absurd h hfailed
  untouched := fun _ _ => rfl
  complete := by
    refine iff_of_false hsuccess ?_
    rintro ⟨hpos, hcount⟩
    rw [List.countP_nil] at hcount
    omega

/-- The loop performs its units in order: the counter does not wrap below a multiple of four. -/
theorem writeLoop_eq {env : WriteEnv} {unitMax : Nat} {offset : Word} {lc : Byte} {data : Frame}
    {units : Nat} (hlc : lc.toNat = 4 * units) (hfits : offset.toNat + units ≤ unitMax + 1)
    (hword : unitMax < 65536) :
    ∀ n k fuel (off : Byte), n + k = units → off.toNat = 4 * k → n < fuel →
      writeLoop env unitMax offset lc data fuel off =
        some (perform (dataUnit offset.toNat data) env.aborted env.written n k) := by
  have hbyte := lc.isLt
  intro n
  induction n with
  | zero =>
      intro k fuel off hk hoff hfuel
      obtain ⟨fuel, rfl⟩ := Nat.exists_eq_succ_of_ne_zero (Nat.ne_of_gt hfuel)
      rw [writeLoop, if_neg (by omega)]
      rfl
  | succ n ih =>
      intro k fuel off hk hoff hfuel
      obtain ⟨fuel, rfl⟩ := Nat.exists_eq_succ_of_ne_zero (Nat.ne_of_gt (Nat.zero_lt_of_lt hfuel))
      have hdiv : off.toNat / 4 = k := by omega
      have hunit : (offset + BitVec.ofNat 16 k).toNat = offset.toNat + k := by
        rw [BitVec.toNat_add, BitVec.toNat_ofNat, Nat.mod_eq_of_lt (by omega : k < 2 ^ 16)]
        exact Nat.mod_eq_of_lt (by omega)
      rw [writeLoop, if_pos (by omega), perform]
      dsimp only
      rw [hdiv, hunit, hoff]
      by_cases habort : env.aborted k = true
      · rw [if_pos (Or.inl habort), if_pos habort]
      rw [if_neg (not_or.mpr ⟨habort, by omega⟩), if_neg habort]
      by_cases hwritten : env.written k = true
      · rw [if_pos hwritten, if_pos hwritten]
        have hnext : (off + 4).toNat = 4 * (k + 1) := by
          rw [BitVec.toNat_add, hoff]
          exact Nat.mod_eq_of_lt (by change 4 * k + 4 < 256; omega)
        rw [ih (k + 1) fuel (off + 4) (by omega) hnext (by omega)]
        rfl
      · rw [if_neg hwritten, if_neg hwritten]
        rfl

section Accepted

variable {tag : Tag} {env : WriteEnv} {data : Frame} {rspCap : Nat}

theorem appendStatus_fits {rspCap : Nat} (hcap : 2 ≤ rspCap) (sw : Frame) : appendStatus rspCap sw = sw :=
  if_neg (Nat.not_lt_of_le hcap)

/-- A span of whole units inside the permitted area, written in order. -/
theorem performed_safe (hcap : 2 ≤ rspCap) {first units : Nat} (hpos : 0 < units)
    (hlen : data.length = 4 * units) (hpermitted : ∀ k < units, Permitted tag data (first + k)) :
    WritesSafe tag env data (performed env rspCap first data) := by
  have hunits : data.length / 4 = units := by omega
  have hget := perform_getElem (dataUnit first data) env.aborted env.written units 0
  have hbound := perform_length_le (dataUnit first data) env.aborted env.written units 0
  have hstops := perform_stops (dataUnit first data) env.aborted env.written units 0
  have hcomplete := perform_complete_iff (dataUnit first data) env.aborted env.written units 0
  have hincomplete := perform_incomplete (dataUnit first data) env.aborted env.written units 0
  rw [performed, hunits]
  simp only [Nat.zero_add] at hget hbound hstops hcomplete hincomplete
  generalize perform (dataUnit first data) env.aborted env.written units 0 = r at *
  obtain ⟨writes, ok⟩ := r
  have hrsp : (finishWrites rspCap ok writes).rsp = if ok then swSuccess else swVerificationFailed :=
    appendStatus_fits hcap _
  refine ⟨?_, ⟨first, hget⟩, hstops, ?_, ?_, ?_⟩
  · intro w hw
    obtain ⟨k, hk, rfl⟩ := List.getElem_of_mem hw
    have hk' : k < writes.length := hk
    change Permitted tag data (writes[k]).1.unit
    rw [hget k hk']
    exact hpermitted k (Nat.lt_of_lt_of_le hk' hbound)
  · intro hfail
    cases ok with
    | true => exact absurd (hrsp.symm.trans hfail) (by decide)
    | false => exact hincomplete rfl
  · intro hnot hnot'
    cases ok with
    | true => exact absurd hrsp hnot
    | false => exact absurd hrsp hnot'
  · have hcount : 4 * writes.countP Prod.snd = data.length ↔ writes.countP Prod.snd = units := by omega
    change _ ↔ 0 < data.length ∧ 4 * writes.countP Prod.snd = data.length
    rw [hrsp, hcount, ← hcomplete]
    cases ok with
    | true => exact iff_of_true rfl ⟨by omega, rfl⟩
    | false => exact iff_of_false (by decide) (fun h => Bool.false_ne_true h.2)

theorem runWrites_eq {unitMax units : Nat} {offset : Word} {lc : Byte} (hlc : lc.toNat = 4 * units)
    (hlen : data.length = lc.toNat) (hfits : offset.toNat + units ≤ unitMax + 1) (hword : unitMax < 65536) :
    runWrites env rspCap unitMax offset lc data = some (performed env rspCap offset.toNat data) := by
  have hbyte := lc.isLt
  have hunits : data.length / 4 = units := by omega
  rw [runWrites, writeLoop_eq hlc hfits hword units 0 writeLoopFuel 0 rfl rfl (by rw [writeLoopFuel]; omega),
    performed, hunits]
  rfl

variable {offset : Word} {lc : Byte}

theorem refused_safe (hcap : 2 ≤ rspCap) {sw : Frame} (hfailed : sw ≠ swVerificationFailed)
    (hsuccess : sw ≠ swSuccess) : ∃ h, refused rspCap sw = some h ∧ WritesSafe tag env data h := by
  rw [refused, appendStatus_fits hcap]
  exact ⟨_, rfl, writesSafe_refused hfailed hsuccess⟩

/-- An accepted span of pages. -/
theorem type2_span {type2 : Type2Info} (h : type2.updateSpanOk offset lc = true) :
    (type2.ccValid = true ∧ type2.writeAccessOpen = true) ∧ (lc.toNat % 4 = 0 ∧ 0 < lc.toNat) ∧
      offset.toNat + lc.toNat / 4 ≤ 226 ∧ ∀ k < lc.toNat / 4, offset.toNat + k ∈ type2.dataPages := by
  rw [Type2Info.updateSpanOk, Bool.and_eq_true, Bool.and_eq_true] at h
  obtain ⟨hopen, hspan⟩ := h
  rw [type2WriteSpanOk] at hspan
  split at hspan
  · cases hspan
  rename_i hwhole
  obtain ⟨hpos, -, harea, hmax⟩ := type2ReadSpanOk_spec hspan
  rw [byte_zeroExtend_toNat] at hpos harea hmax hwhole
  have hmod : lc.toNat % 4 = 0 := by
    by_contra h
    exact hwhole (Or.inr (Or.inl h))
  have hfirst : 4 ≤ offset.toNat := by
    by_contra h
    exact hwhole (Or.inr (Or.inr (Nat.lt_of_not_le h)))
  exact ⟨hopen, ⟨hmod, by omega⟩, by omega, fun k hk => ⟨by omega, by omega, by omega⟩⟩

/-- An accepted span of blocks. -/
theorem type5_span {type5 : Type5Info} (h : type5.updateSpanOk offset lc = true) :
    (lc.toNat % 4 = 0 ∧ 0 < lc.toNat) ∧ offset.toNat + lc.toNat / 4 ≤ 65536 ∧
      ∀ k < lc.toNat / 4, offset.toNat + k ∈ type5.dataBlocks := by
  rw [Type5Info.updateSpanOk, Bool.and_eq_true] at h
  obtain ⟨hmod, hfirst, hread⟩ := type5WriteSpanOk_spec h.2
  obtain ⟨hpos, harea, hcount⟩ := type5ReadSpanOk_spec hread
  have hword := type5ReadSpanOk_word hread
  rw [byte_zeroExtend_toNat] at hmod hpos harea hcount hword
  refine ⟨⟨hmod, by omega⟩, by omega, fun k hk => ⟨Nat.le_trans hfirst (Nat.le_add_right _ _), by omega, ?_⟩⟩
  intro hbc
  have := hcount hbc
  omega

theorem runWrites_whole {unitMax : Nat} (hlen : data.length = lc.toNat) (hmod : lc.toNat % 4 = 0)
    (hfits : offset.toNat + lc.toNat / 4 ≤ unitMax + 1) (hword : unitMax < 65536) :
    runWrites env rspCap unitMax offset lc data = some (performed env rspCap offset.toNat data) :=
  runWrites_eq (Nat.mul_div_cancel' (Nat.dvd_of_mod_eq_zero hmod)).symm hlen hfits hword

/-- The rewrite of the container is the sequence of one unit, block zero. -/
theorem performed_container (hlen : data.length = 4) : performed env rspCap 0 data =
    if env.aborted 0 then finishWrites rspCap false []
    else finishWrites rspCap (env.written 0) [(⟨0, data⟩, env.written 0)] := by
  have hdata : dataUnit 0 data 0 = ⟨0, data⟩ := by
    rw [dataUnit, unitBytes, Nat.mul_zero, List.drop_zero, List.take_of_length_le (Nat.le_of_eq hlen)]
  rw [performed, hlen]
  change finishWrites rspCap (perform (dataUnit 0 data) env.aborted env.written 1 0).2
    (perform (dataUnit 0 data) env.aborted env.written 1 0).1 = _
  rw [perform, hdata]
  cases env.aborted 0 with
  | true => rfl
  | false => cases env.written 0 <;> rfl

theorem updateType2_admitted {type2 : Type2Info} (htag : tag.type2 = some type2) (hlen : data.length = lc.toNat)
    (hspan : type2.updateSpanOk offset lc = true) :
    updateType2 tag env rspCap offset lc data = some (performed env rspCap offset.toNat data) := by
  obtain ⟨⟨hvalid, hopen⟩, ⟨hmod, -⟩, hend, -⟩ := type2_span hspan
  rw [updateType2, htag]
  dsimp only
  rw [if_neg (by simp [hvalid]), if_neg (by simp [hopen]), if_neg (by simp [hspan])]
  exact runWrites_whole hlen hmod (by omega) (by decide)

theorem updateType5_admitted {type5 : Type5Info} (htag : tag.type5 = some type5) (hlen : data.length = lc.toNat)
    (hvalid : type5.ccValid = true) (hopen : type5.writeAccessOpen = true)
    (hspan : if offset = 0 ∧ lc.toNat = t5tCcLenShort then (type5ApplyCc data).ccValid = true
      else type5.updateSpanOk offset lc = true) :
    updateType5 tag env rspCap offset lc data = some (performed env rspCap offset.toNat data) := by
  rw [updateType5, htag]
  dsimp only
  rw [if_neg (by simp [hvalid]), if_neg (by simp [hopen])]
  by_cases hcc : offset = 0 ∧ lc.toNat = t5tCcLenShort
  · rw [if_pos hcc] at hspan ⊢
    rw [if_neg (by simp [hspan]), hcc.1]
    change _ = some (performed env rspCap 0 data)
    rw [performed_container (hlen.trans hcc.2)]
    cases env.aborted 0 <;> rfl
  · rw [if_neg hcc] at hspan ⊢
    rw [if_neg (by simp [hspan])]
    obtain ⟨⟨hmod, -⟩, hend, -⟩ := type5_span hspan
    exact runWrites_whole hlen hmod (by omega) (by decide)

/-- What is admitted is permitted. -/
theorem admitted_safe (hcap : 2 ≤ rspCap) (hlen : data.length = lc.toNat) (h : Admitted tag offset lc data) :
    WritesSafe tag env data (performed env rspCap offset.toNat data) := by
  unfold Admitted at h
  cases hkind : tag.kind with
  | none => rw [hkind] at h; exact h.elim
  | type4 => rw [hkind] at h; exact h.elim
  | type2 =>
      rw [hkind] at h
      obtain ⟨type2, htag, hspan⟩ := h
      obtain ⟨⟨hvalid, hopen⟩, ⟨hmod, hpos⟩, -, hpages⟩ := type2_span hspan
      refine performed_safe hcap (by omega : 0 < lc.toNat / 4) (by omega) fun k hk => ?_
      rw [Permitted, hkind]
      exact ⟨type2, htag, hvalid, hopen, hpages k hk⟩
  | type5 =>
      rw [hkind] at h
      obtain ⟨type5, htag, hvalid, hopen, hspan⟩ := h
      by_cases hcc : offset = 0 ∧ lc.toNat = t5tCcLenShort
      · rw [if_pos hcc] at hspan
        have hlen4 : data.length = 4 * 1 := hlen.trans hcc.2
        refine performed_safe hcap Nat.one_pos hlen4 fun k hk => ?_
        rw [Permitted, hkind, hcc.1]
        exact ⟨type5, htag, hvalid, hopen, Or.inr ⟨by change 0 + k = 0; omega, hlen4, hspan⟩⟩
      · rw [if_neg hcc] at hspan
        obtain ⟨⟨hmod, hpos⟩, -, hblocks⟩ := type5_span hspan
        refine performed_safe hcap (by omega : 0 < lc.toNat / 4) (by omega) fun k hk => ?_
        rw [Permitted, hkind]
        exact ⟨type5, htag, hvalid, hopen, Or.inl (hblocks k hk)⟩

theorem updateType2_safe (hcap : 2 ≤ rspCap) (hkind : tag.kind = .type2) (hlen : data.length = lc.toNat) :
    ∃ h, updateType2 tag env rspCap offset lc data = some h ∧ WritesSafe tag env data h := by
  cases htag : tag.type2 with
  | none =>
      rw [updateType2, htag]
      exact refused_safe hcap (by decide) (by decide)
  | some type2 =>
      by_cases hspan : type2.updateSpanOk offset lc = true
      · exact ⟨_, updateType2_admitted htag hlen hspan,
          admitted_safe hcap hlen (by rw [Admitted, hkind]; exact ⟨type2, htag, hspan⟩)⟩
      · rw [updateType2, htag]
        dsimp only
        split
        · exact refused_safe hcap (by decide) (by decide)
        split
        · exact refused_safe hcap (by decide) (by decide)
        rw [if_pos (Bool.eq_false_iff.mpr hspan)]
        exact refused_safe hcap (by decide) (by decide)

theorem updateType5_safe (hcap : 2 ≤ rspCap) (hkind : tag.kind = .type5) (hlen : data.length = lc.toNat) :
    ∃ h, updateType5 tag env rspCap offset lc data = some h ∧ WritesSafe tag env data h := by
  cases htag : tag.type5 with
  | none =>
      rw [updateType5, htag]
      exact refused_safe hcap (by decide) (by decide)
  | some type5 =>
      by_cases hadmitted : type5.ccValid = true ∧ type5.writeAccessOpen = true ∧
        if offset = 0 ∧ lc.toNat = t5tCcLenShort then (type5ApplyCc data).ccValid = true
        else type5.updateSpanOk offset lc = true
      · obtain ⟨hvalid, hopen, hspan⟩ := hadmitted
        exact ⟨_, updateType5_admitted htag hlen hvalid hopen hspan,
          admitted_safe hcap hlen (by rw [Admitted, hkind]; exact ⟨type5, htag, hvalid, hopen, hspan⟩)⟩
      · rw [updateType5, htag]
        dsimp only
        split
        · exact refused_safe hcap (by decide) (by decide)
        rename_i hvalid
        split
        · exact refused_safe hcap (by decide) (by decide)
        rename_i hopen
        have hspan := fun h => hadmitted ⟨Bool.eq_true_of_not_eq_false hvalid, Bool.eq_true_of_not_eq_false hopen, h⟩
        by_cases hcc : offset = 0 ∧ lc.toNat = t5tCcLenShort
        · rw [if_pos hcc] at hspan ⊢
          rw [if_pos (Bool.eq_false_iff.mpr hspan)]
          exact refused_safe hcap (by decide) (by decide)
        · rw [if_neg hcc] at hspan ⊢
          rw [if_pos (Bool.eq_false_iff.mpr hspan)]
          exact refused_safe hcap (by decide) (by decide)

end Accepted

/-- A parsed request has its length byte's worth of data. -/
theorem apduUpdateBinary_spec {apdu data : Frame} {offset : Word} {lc : Byte}
    (h : apduUpdateBinary apdu = some (offset, lc, data)) :
    data = apdu.drop 5 ∧ data.length = lc.toNat ∧ 0 < lc.toNat := by
  rw [apduUpdateBinary] at h
  split at h
  · cases h
  split at h
  · cases h
  rename_i hbody
  cases h
  obtain ⟨hlen, hlc⟩ := not_or.mp hbody
  refine ⟨rfl, ?_, ?_⟩
  · rw [List.length_drop, not_ne_iff.mp hlen]
    exact Nat.add_sub_cancel_left 5 _
  · exact Nat.pos_of_ne_zero fun hz => hlc (BitVec.eq_of_toNat_eq hz)

/-- **Write safety.** Every UPDATE BINARY ends; the units it writes to are permitted, are written in
ascending order with the data field's bytes and stop at the first failed or aborted unit, and 9000 is
returned exactly when all of the data field was written. -/
theorem handleUpdateBinaryApdu_safe (tag : Tag) (env : WriteEnv) (apdu : Frame) (rspCap : Nat) :
    ∃ h, handleUpdateBinaryApdu tag env apdu rspCap = some h ∧
      WritesSafe tag env (apdu.drop 5) h ∧
      (h.rsp = swSuccess ↔ ∃ offset lc, apduUpdateBinary apdu = some (offset, lc, apdu.drop 5) ∧
        4 * h.writes.countP Prod.snd = lc.toNat) := by
  have hunparsed : ∀ {h : Handled}, h.writes = [] → h.rsp ≠ swSuccess →
      (h.rsp = swSuccess ↔ ∃ offset lc, apduUpdateBinary apdu = some (offset, lc, apdu.drop 5) ∧
        4 * h.writes.countP Prod.snd = lc.toNat) := by
    intro h hwrites hrsp
    refine iff_of_false hrsp ?_
    rintro ⟨offset, lc, hparse, hcount⟩
    have := (apduUpdateBinary_spec hparse).2.2
    rw [hwrites, List.countP_nil] at hcount
    omega
  unfold handleUpdateBinaryApdu
  split
  · exact ⟨_, rfl, writesSafe_refused (by decide) (by decide), hunparsed rfl (by decide)⟩
  rename_i hcap
  have hcap' : 2 ≤ rspCap := Nat.le_of_not_lt hcap
  split
  · rw [refused, appendStatus_fits hcap']
    exact ⟨_, rfl, writesSafe_refused (by decide) (by decide), hunparsed rfl (by decide)⟩
  rename_i parsedOffset lc data hparse
  obtain ⟨rfl, hlen, hpos⟩ := apduUpdateBinary_spec hparse
  suffices hsafe : ∀ act : Option Handled, (∃ h, act = some h ∧ WritesSafe tag env (apdu.drop 5) h) →
      ∃ h, act = some h ∧ WritesSafe tag env (apdu.drop 5) h ∧
        (h.rsp = swSuccess ↔ ∃ offset lc, apduUpdateBinary apdu = some (offset, lc, apdu.drop 5) ∧
          4 * h.writes.countP Prod.snd = lc.toNat) by
    refine hsafe _ ?_
    split
    · exact refused_safe hcap' (by decide) (by decide)
    split
    · exact refused_safe hcap' (by decide) (by decide)
    split
    · rename_i hkind
      exact updateType2_safe hcap' hkind hlen
    · rename_i hkind
      exact updateType5_safe hcap' hkind hlen
    · exact refused_safe hcap' (by decide) (by decide)
    · exact refused_safe hcap' (by decide) (by decide)
  rintro act ⟨h, rfl, hsafe⟩
  refine ⟨h, rfl, hsafe, hsafe.complete.trans ?_⟩
  rw [hparse]
  constructor
  · rintro ⟨-, hcount⟩
    exact ⟨parsedOffset, lc, rfl, hcount.trans hlen⟩
  · rintro ⟨_, _, heq, hcount⟩
    cases heq
    exact ⟨by omega, hcount.trans hlen.symm⟩

theorem names_iff {kind : TagKind} {apdu data : Frame} {parsedOffset offset : Word} {lc : Byte}
    (hparse : apduUpdateBinary apdu = some (parsedOffset, lc, data)) :
    updateBinaryOffset kind apdu parsedOffset = some offset ↔ Names kind apdu offset.toNat := by
  obtain ⟨hdata, hlen, hpos⟩ := apduUpdateBinary_spec hparse
  rw [hdata, List.length_drop] at hlen
  have hoffset : parsedOffset = bigEndian (u8At apdu 2) (u8At apdu 3) := by
    rw [apduUpdateBinary, if_neg (by omega)] at hparse
    split at hparse
    · cases hparse
    · cases hparse
      rfl
  rw [updateBinaryOffset, Names, ← hoffset]
  by_cases hkind : kind ≠ .type5
  · rw [if_pos hkind, if_pos hkind, Option.some_inj, BitVec.toNat_eq]
  rw [if_neg hkind, if_neg hkind, if_neg (by omega)]
  by_cases hblock : u8At apdu 2 = 0xFF
  · rw [if_pos ⟨hblock, by omega⟩, if_pos hblock, Option.some_inj, BitVec.toNat_eq, byte_zeroExtend_toNat]
  rw [if_neg fun h => hblock h.1, if_neg hblock]
  have hsize : type5BlockSize.toNat = 4 := rfl
  have hword := parsedOffset.isLt
  rw [hsize]
  by_cases hwhole : parsedOffset.toNat % 4 = 0
  · rw [if_neg (not_not.mpr hwhole), Option.some_inj, BitVec.toNat_eq, BitVec.toNat_ofNat,
      Nat.mod_eq_of_lt (by omega)]
    omega
  · rw [if_pos hwhole]
    exact iff_of_false (by simp) (by omega)

/-- **Which units are written.** An admitted request writes its data from the unit on that P1 and P2 name. -/
theorem handleUpdateBinaryApdu_admitted {tag : Tag} (env : WriteEnv) {apdu data : Frame} {rspCap : Nat}
    {parsedOffset offset : Word} {lc : Byte} (hcap : 2 ≤ rspCap)
    (hparse : apduUpdateBinary apdu = some (parsedOffset, lc, data)) (hunit : Names tag.kind apdu offset.toNat)
    (hadmitted : Admitted tag offset lc data) :
    handleUpdateBinaryApdu tag env apdu rspCap = some (performed env rspCap offset.toNat data) := by
  have hlen := (apduUpdateBinary_spec hparse).2.1
  rw [handleUpdateBinaryApdu, if_neg (Nat.not_lt_of_le hcap), hparse]
  dsimp only
  rw [(names_iff hparse).mpr hunit]
  dsimp only
  unfold Admitted at hadmitted
  cases hkind : tag.kind with
  | none => rw [hkind] at hadmitted; exact hadmitted.elim
  | type4 => rw [hkind] at hadmitted; exact hadmitted.elim
  | type2 =>
      rw [hkind] at hadmitted
      obtain ⟨type2, htag, hspan⟩ := hadmitted
      have hend := (type2_span hspan).2.2.1
      rw [if_neg (by omega)]
      exact updateType2_admitted htag hlen hspan
  | type5 =>
      rw [hkind] at hadmitted
      obtain ⟨type5, htag, hvalid, hopen, hspan⟩ := hadmitted
      rw [if_neg (by simp)]
      exact updateType5_admitted htag hlen hvalid hopen hspan

/-- Block 5 as P2 names it, and as the block at byte 20. -/
example : Names .type5 [0xFF, 0xD6, 0xFF, 0x05] 5 ∧ Names .type5 [0xFF, 0xD6, 0x00, 0x14] 5 := by
  unfold Names
  decide

end NeroReader.Storage
