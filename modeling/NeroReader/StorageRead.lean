import NeroReader.FastRead
import NeroReader.StorageUpdate

/-!
READ BINARY on Type 2 and Type 5 storage over the CCID relay (`reader_ccid_handle_read_binary_apdu`). An Le of zero
asks for what is left of the declared container and data area, which
`storage_read_binary_remaining_bytes` counts in 16 bits; the span check knows the page limit and the block count
besides. Where the two differ the request is refused (`read_binary_iff`).
-/

namespace NeroReader.Storage

open Ndef (bytesAt bytesAt_length bytesAt_take)
open Tags

/-! ### The request -/

/-- `nero_nfc_try_add_u16`. -/
def tryAddU16 (a b : Word) : Option Word := if 0xFFFF < a.toNat + b.toNat then none else some (a + b)

/-- Container and data area of a Type 2 tag in bytes, and where a page starts among them. -/
def type2Position (tag : Tag) (offset : Word) : Option (Word × Word) := do
  let type2 ← tag.type2
  if type2.ccValid = false ∨ type2.readAccessOpen = false ∨ offset.toNat < type2CcPage then none
  else
    let total ← tryAddU16 4 type2.dataAreaSizeBytes
    let pages := offset - BitVec.ofNat 16 type2CcPage
    if 0xFFFF / 4 < pages.toNat then none else some (total, pages * 4)

/-- The same of a Type 5 tag and a block. -/
def type5Position (tag : Tag) (offset : Word) : Option (Word × Word) := do
  let type5 ← tag.type5
  if type5.ccValid = false ∨ type5.readAccessOpen = false ∨ type5CcByteLen type5 = 0 then none
  else
    let total ← tryAddU16 (type5CcByteLen type5) type5.dataAreaSizeBytes
    if 0xFFFF / 4 < offset.toNat then none else some (total, offset * 4)

/-- `storage_read_binary_remaining_bytes`. -/
def storageReadBinaryRemainingBytes (tag : Tag) (offset : Word) : Word :=
  let position :=
    match tag.kind with
    | .type2 => type2Position tag offset
    | .type5 => type5Position tag offset
    | .none => none
    | .type4 => none
  match position with
  | none => 0
  | some (total, start) => if total.toNat ≤ start.toNat then 0 else total - start

def iso7816ShortLeZeroBytes : Nat := 256

/-- The length that a READ BINARY asks the tag for. -/
def readBinaryLen (tag : Tag) (offset : Word) (le : Byte) (rspCap : Nat) : Nat :=
  let remaining := (storageReadBinaryRemainingBytes tag offset).toNat
  let reqLen :=
    if le = 0 then min (if remaining ≠ 0 then remaining else iso7816ShortLeZeroBytes) iso7816ShortLeZeroBytes
    else le.toNat
  if rspCap < reqLen + 2 then rspCap - 2 else reqLen

/-! ### The handler -/

/-- The reader's access to the tag: the tag's answers, and which fast commands are still in use. -/
structure Medium where
  type2 : Type2Tag
  fastReadAllowed : Bool
  type5 : Type5Tag
  readMultipleDisabled : Bool

namespace Medium

def type2Read (m : Medium) (page len : Nat) : Option Frame :=
    returned (type2ReadBinary m.type2 m.fastReadAllowed page len).1

def type5Read (m : Medium) (block len : Nat) : Option Frame :=
  returned (type5ReadBinary m.type5 m.readMultipleDisabled block len).1

end Medium

/-- `reader_ccid_append_success_status`. -/
def appendSuccessStatus (data : Frame) (rspCap : Nat) : Frame :=
    if rspCap < data.length + 2 then [] else data ++ swSuccess

def finishRead (rspCap : Nat) : Option Frame → Frame
  | none => appendStatus rspCap swVerificationFailed
  | some data => appendSuccessStatus data rspCap

section Handler

variable (tag : Tag) (m : Medium)

def readType2 (offset : Word) (len rspCap : Nat) : Frame :=
  match tag.type2 with
  | none => appendStatus rspCap swFuncNotSupported
  | some type2 =>
      if type2.ccValid = false then appendStatus rspCap swFuncNotSupported
      else if type2.readAccessOpen = false then appendStatus rspCap swConditionsNotSatisfied
      else if type2.readSpanOk offset (BitVec.ofNat 16 len) = false then appendStatus rspCap swWrongP1P2
      else finishRead rspCap (m.type2Read offset.toNat len)

def readType5 (offset : Word) (len rspCap : Nat) : Frame :=
  match tag.type5 with
  | none => appendStatus rspCap swFuncNotSupported
  | some type5 =>
      if type5.ccValid = false then appendStatus rspCap swFuncNotSupported
      else if type5.readAccessOpen = false then appendStatus rspCap swConditionsNotSatisfied
      else if type5.readSpanOk offset (BitVec.ofNat 16 len) = false then appendStatus rspCap swWrongP1P2
      else finishRead rspCap (m.type5Read offset.toNat len)

/-- `reader_ccid_handle_read_binary_apdu`. -/
def handleReadBinaryApdu (apdu : Frame) (rspCap : Nat) : Frame :=
  if rspCap < 2 then []
  else
    match readBinaryFields tag.kind apdu with
    | none => appendStatus rspCap swWrongLength
    | some (offset, le) =>
        let len := readBinaryLen tag offset le rspCap
        match tag.kind with
        | .type2 => readType2 tag m offset len rspCap
        | .type5 => readType5 tag m offset len rspCap
        | .none => appendStatus rspCap swFuncNotSupported
        | .type4 => appendStatus rspCap swFuncNotSupported

end Handler

end NeroReader.Storage

namespace NeroReader.Tags

open Storage

/-! ### How much is copied -/

/-- The READ loop never copies more than asked for, and all of it where every READ brings 16 bytes. -/
theorem type2ReadPagesFrom_length (tag : Type2Tag) (cap : Nat) : ∀ fuel page copied, copied.length ≤ cap →
    (type2ReadPagesFrom tag cap fuel page copied).length ≤ cap ∧
      (cap ≤ fuel + copied.length →
        (∀ u, page ≤ u → 4 * (u - page) + copied.length < cap →
          u ≤ 0xFF ∧ ∃ rx, tag.read u = some rx ∧ t2tReadRespBytes ≤ rx.length) →
        (type2ReadPagesFrom tag cap fuel page copied).length = cap) := by
  intro fuel
  induction fuel with
  | zero =>
      intro page copied hle
      rw [type2ReadPagesFrom]
      exact ⟨hle, fun hfuel _ => by omega⟩
  | succ fuel ih =>
      intro page copied hle
      rw [type2ReadPagesFrom]
      by_cases hmore : copied.length < cap
      swap
      · rw [if_neg hmore]
        exact ⟨hle, fun _ _ => by omega⟩
      rw [if_pos hmore]
      dsimp only
      by_cases hpage : 0xFF < page
      · rw [if_pos hpage]
        refine ⟨hle, fun _ hall => ?_⟩
        have := (hall page (Nat.le_refl _) (by omega)).1
        omega
      rw [if_neg hpage]
      cases hrx :
        (tag.read page).filter (fun rx => decide (min (cap - copied.length) t2tReadRespBytes ≤ rx.length)) with
      | none =>
          refine ⟨hle, fun _ hall => ?_⟩
          obtain ⟨rx, hread, hlen⟩ := (hall page (Nat.le_refl _) (by omega)).2
          have hshort := Option.filter_eq_none_iff.mp hrx rx hread
          rw [decide_eq_true_eq] at hshort
          exact absurd (Nat.le_trans (Nat.min_le_right _ _) hlen) hshort
      | some rx =>
          obtain ⟨-, hlen⟩ := Option.filter_eq_some_iff.mp hrx
          rw [decide_eq_true_eq, t2tReadRespBytes] at hlen
          have hnext : (copied ++ rx.take (min (cap - copied.length) t2tReadRespBytes)).length =
              copied.length + min (cap - copied.length) 16 := by
            rw [List.length_append, List.length_take, t2tReadRespBytes, Nat.min_eq_left hlen]
          obtain ⟨hfits, hfull⟩ := ih (page + t2tReadRespPages) _ (by rw [hnext]; omega)
          refine ⟨hfits, fun hfuel hall => hfull (by rw [hnext]; omega) fun u hu hcap => ?_⟩
          rw [t2tReadRespPages] at hu hcap
          rw [hnext] at hcap
          exact hall u (by omega) (by omega)

/-- A FAST_READ that succeeds copies every page. -/
theorem ntagFastReadFrom_length {tag : Type2Tag} {last : Nat} : ∀ fuel page copied, page ≤ last + 1 →
    last + 1 ≤ fuel + page → (ntagFastReadFrom tag last fuel page copied).2 = true →
      (ntagFastReadFrom tag last fuel page copied).1.length = copied.length + 4 * (last + 1 - page) := by
  intro fuel
  induction fuel with
  | zero =>
      intro page copied hpage hfuel _
      rw [ntagFastReadFrom]
      dsimp only
      omega
  | succ fuel ih =>
      intro page copied hpage hfuel
      rw [ntagFastReadFrom]
      by_cases hend : last < page
      · rw [if_pos hend]
        intro _
        dsimp only
        omega
      rw [if_neg hend]
      generalize hcount : min (last - page + 1) (fastReadRespBytesMax / t2tPageSizeBytes) = count
      have hbounds : 0 < count ∧ page + count ≤ last + 1 := by
        rw [fastReadRespBytesMax, t2tPageSizeBytes] at hcount
        omega
      dsimp only
      cases tag.fastRead page (page + count - 1) with
      | none =>
          intro h
          cases h
      | some rx =>
          dsimp only
          by_cases hshort : rx.length < count * t2tPageSizeBytes
          · rw [if_pos hshort]
            intro h
            cases h
          rw [if_neg hshort]
          intro hok
          rw [t2tPageSizeBytes] at hshort hok ⊢
          rw [ih (page + count) _ hbounds.2 (by omega) hok, List.length_append, List.length_take]
          omega

theorem type2ReadBinary_length (tag : Type2Tag) (fastReadAllowed : Bool) {page cap : Nat} :
    (type2ReadBinary tag fastReadAllowed page cap).1.length ≤ cap ∧
      (page + units cap ≤ 0x100 → NoStepFails tag.read page (units cap) t2tReadRespBytes →
        (type2ReadBinary tag fastReadAllowed page cap).1.length = cap) := by
  have hread {start : Nat} {copied : Frame} (hstart : page ≤ start) (hcopied : copied.length = 4 * (start - page))
      (hend : page + units cap ≤ 0x100) (hall : NoStepFails tag.read page (units cap) t2tReadRespBytes) (u : Nat)
      (hu : start ≤ u) (hcap : 4 * (u - start) + copied.length < cap) :
      u ≤ 0xFF ∧ ∃ rx, tag.read u = some rx ∧ t2tReadRespBytes ≤ rx.length := by
    have hunits : u < page + units cap := by
      rw [units]
      omega
    exact ⟨by omega, hall u (by omega) hunits⟩
  have hslow : (type2ReadPagesFrom tag cap cap page []).length ≤ cap ∧
      (page + units cap ≤ 0x100 → NoStepFails tag.read page (units cap) t2tReadRespBytes →
        (type2ReadPagesFrom tag cap cap page []).length = cap) := by
    obtain ⟨hfits, hfull⟩ := type2ReadPagesFrom_length tag cap cap page [] (Nat.zero_le _)
    exact ⟨hfits, fun hend hall =>
      hfull (Nat.le_add_right _ _) (hread (Nat.le_refl _) (by rw [Nat.sub_self]; rfl) hend hall)⟩
  rw [type2ReadBinary]
  dsimp only
  split
  next hfast =>
    obtain ⟨-, -, -, hpages, -⟩ := hfast
    split
    next hok =>
      rw [t2tPageSizeBytes] at hpages hok ⊢
      have hcopied := ntagFastReadFrom_length _ page [] (by omega) (by omega) hok
      rw [← ntagFastRead] at hcopied
      rw [List.length_nil] at hcopied
      have hcount : (ntagFastRead tag page (page + cap / 4 - 1)).1.length = 4 * (page + cap / 4 - page) := by omega
      obtain ⟨hfits, hfull⟩ := type2ReadPagesFrom_length tag cap cap (page + cap / 4) _ (by rw [hcount]; omega)
      exact ⟨hfits, fun hend hall =>
        hfull (Nat.le_add_right _ _) (hread (Nat.le_add_right _ _) hcount hend hall)⟩
    next => exact hslow
  next => exact hslow

/-- The Type 5 loop never copies more than asked for, and all of it where every block is answered. -/
theorem type5ReadBinaryFrom_length (tag : Type5Tag) (cap : Nat) : ∀ fuel disabled block copied, copied.length ≤ cap →
    (type5ReadBinaryFrom tag cap fuel disabled block copied).1.length ≤ cap ∧
      (cap ≤ fuel + copied.length →
        (∀ u, block ≤ u → 4 * (u - block) + copied.length < cap →
          ∃ rx, tag.readBlock u = some rx ∧ t5UserBlockSize ≤ rx.length) →
        (type5ReadBinaryFrom tag cap fuel disabled block copied).1.length = cap) := by
  intro fuel
  induction fuel with
  | zero =>
      intro disabled block copied hle
      rw [type5ReadBinaryFrom]
      dsimp only
      exact ⟨hle, fun hfuel _ => by omega⟩
  | succ fuel ih =>
      intro disabled block copied hle
      rw [type5ReadBinaryFrom]
      by_cases hmore : copied.length < cap
      swap
      · rw [if_neg hmore]
        dsimp only
        exact ⟨hle, fun _ _ => by omega⟩
      rw [if_pos hmore]
      dsimp only
      generalize hcount : min ((cap - copied.length) / t5UserBlockSize) readMultipleBlocksMax = count
      have hroom : 4 * count ≤ cap - copied.length := by
        rw [t5UserBlockSize] at hcount
        omega
      generalize hseveral : (decide (1 < (cap - copied.length) / t5UserBlockSize) && !disabled) = several
      cases hmulti : (if several = true then
          (tag.readMultiple block count).filter (fun rx => decide (count * t5UserBlockSize ≤ rx.length)) else none) with
      | none =>
          dsimp only
          cases hrx : (tag.readBlock block).filter
              (fun rx => decide (min (cap - copied.length) t5UserBlockSize ≤ rx.length)) with
          | none =>
              refine ⟨hle, fun _ hall => ?_⟩
              obtain ⟨rx, hread, hlen⟩ := hall block (Nat.le_refl _) (by omega)
              have hshort := Option.filter_eq_none_iff.mp hrx rx hread
              rw [decide_eq_true_eq] at hshort
              exact absurd (Nat.le_trans (Nat.min_le_right _ _) hlen) hshort
          | some rx =>
              obtain ⟨-, hlen⟩ := Option.filter_eq_some_iff.mp hrx
              rw [decide_eq_true_eq, t5UserBlockSize] at hlen
              have hnext : (copied ++ rx.take (min (cap - copied.length) t5UserBlockSize)).length =
                  copied.length + min (cap - copied.length) 4 := by
                rw [List.length_append, List.length_take, t5UserBlockSize, Nat.min_eq_left hlen]
              obtain ⟨hfits, hfull⟩ := ih (several || disabled) (block + 1) _ (by rw [hnext]; omega)
              refine ⟨hfits, fun hfuel hall => hfull (by rw [hnext]; omega) fun u hu hcap => ?_⟩
              rw [hnext] at hcap
              exact hall u (by omega) (by omega)
      | some rx =>
          have hon : several = true := by
            by_contra hno
            rw [if_neg hno] at hmulti
            cases hmulti
          rw [hon, if_pos rfl] at hmulti
          rw [hon, Bool.and_eq_true, decide_eq_true_eq, t5UserBlockSize] at hseveral
          obtain ⟨-, hlen⟩ := Option.filter_eq_some_iff.mp hmulti
          rw [decide_eq_true_eq, t5UserBlockSize] at hlen
          have hpos : 0 < count := by
            rw [t5UserBlockSize, readMultipleBlocksMax] at hcount
            omega
          have hnext : (copied ++ rx.take (count * t5UserBlockSize)).length = copied.length + 4 * count := by
            rw [List.length_append, List.length_take, t5UserBlockSize]
            omega
          obtain ⟨hfits, hfull⟩ := ih disabled (block + count) _ (by rw [hnext]; omega)
          refine ⟨hfits, fun hfuel hall => hfull (by rw [hnext]; omega) fun u hu hcap => ?_⟩
          rw [hnext] at hcap
          exact hall u (by omega) (by omega)

theorem type5ReadBinary_length (tag : Type5Tag) (disabled : Bool) {block cap : Nat} :
    (type5ReadBinary tag disabled block cap).1.length ≤ cap ∧
      (NoStepFails tag.readBlock block (units cap) t5UserBlockSize →
        (type5ReadBinary tag disabled block cap).1.length = cap) := by
  obtain ⟨hfits, hfull⟩ := type5ReadBinaryFrom_length tag cap cap disabled block [] (Nat.zero_le _)
  refine ⟨hfits, fun hall => hfull (Nat.le_add_right _ _) fun u hu hcap => hall u hu ?_⟩
  rw [List.length_nil] at hcap
  rw [units]
  omega

end NeroReader.Tags

namespace NeroReader.Storage

open Ndef (bytesAt)
open Tags

/-! ### The readable area -/

/-- The units that a host may read, first and last, and the bytes declared from the first one on. -/
structure ReadableArea where
  first : Nat
  last : Nat
  declared : Nat

namespace ReadableArea

variable (area : ReadableArea)

def units : Set Nat := {u | area.first ≤ u ∧ u ≤ area.last}

/-- The bytes left from a unit on. -/
def left (unit : Nat) : Nat := min area.declared (4 * (area.last + 1 - area.first)) - 4 * (unit - area.first)

/-- What an Le of zero is to bring. -/
def due (unit rspCap : Nat) : Nat := min (min (area.left unit) iso7816ShortLeZeroBytes) (rspCap - 2)

/-- The response has room for data, and either the declared bytes end within the last unit and within 16 bits, or
there are as many left as a response takes. -/
def Serves (unit rspCap : Nat) : Prop :=
  2 < rspCap ∧ (area.declared ≤ 0xFFFF ∧ area.declared ≤ 4 * (area.last + 1 - area.first) ∨
    min iso7816ShortLeZeroBytes (rspCap - 2) ≤ area.left unit)

end ReadableArea

/-- The area up to the last page of `nfc_storage_type2_last_page`, from the container page on. -/
def Type2Info.readable (type2 : Type2Info) : Option ReadableArea :=
  (type2LastPage type2.dataAreaSizeBytes).map fun last =>
    ⟨type2CcPage, last.toNat, t2tPageSizeBytes + type2.dataAreaSizeBytes.toNat⟩

/-- The area up to the last block of `nfc_storage_type5_data_blocks`, from block 0 on. -/
def Type5Info.readable (type5 : Type5Info) : Option ReadableArea :=
  (type5DataBlocks (type5CcByteLen type5) type5.dataAreaSizeBytes type5.unitSize type5.blockCount).map fun blocks =>
    ⟨0, blocks.2.toNat, (type5CcByteLen type5).toNat + type5.dataAreaSizeBytes.toNat⟩

/-- The readable area of a tag with open read access. -/
def Tag.readable (tag : Tag) : Option ReadableArea :=
  match tag.kind with
  | .type2 => tag.type2.bind fun type2 =>
      if type2.ccValid = true ∧ type2.readAccessOpen = true then type2.readable else none
  | .type5 => tag.type5.bind fun type5 =>
      if type5.ccValid = true ∧ type5.readAccessOpen = true then type5.readable else none
  | .none => none
  | .type4 => none

/-- What the span check of an area admits. -/
def ReadableArea.SpanOk (area : ReadableArea) (unit len : Nat) : Prop :=
  0 < len ∧ area.first ≤ unit ∧ unit + ((len + 3) / 4 - 1) ≤ area.last

instance (area : ReadableArea) (unit len : Nat) : Decidable (area.SpanOk unit len) :=
  inferInstanceAs (Decidable (_ ∧ _ ∧ _))

/-- What is read of the tag. -/
def Medium.read (m : Medium) : TagKind → Nat → Nat → Option Frame
  | .type2 => m.type2Read
  | .type5 => m.type5Read
  | .none => fun _ _ => none
  | .type4 => fun _ _ => none

/-- The tag answers the reads of these units, one by one. -/
def Medium.Answers (m : Medium) (kind : TagKind) (unit count : Nat) : Prop :=
  (kind = .type2 → NoStepFails m.type2.read unit count t2tReadRespBytes) ∧
    (kind = .type5 → NoStepFails m.type5.readBlock unit count t5UserBlockSize)

/-- The tag answers with the bytes of its memory. A Type 5 tag does so behind block 255 as long as it is asked for
in two bytes, or goes on counting. -/
def Medium.Holds (m : Medium) (memory : Nat → Byte) (kind : TagKind) (unit len : Nat) : Prop :=
  (kind = .type2 → Type2Reads memory (4 * (unit + Tags.units len)) m.type2) ∧
    (kind = .type5 → ∃ wide, Type5Reads memory wide m.type5 ∧
      (wide ∨ m.readMultipleDisabled ∨ ¬ CrossesOneByte unit len))

/-! ### The span check -/

theorem word_len {len : Nat} (hlen : len < 65536) : (BitVec.ofNat 16 len).toNat = len := by
  rw [BitVec.toNat_ofNat]
  exact Nat.mod_eq_of_lt hlen

theorem word_ne_zero_iff {w : Word} : w ≠ 0 ↔ 0 < w.toNat := by
  constructor
  · intro h
    exact Nat.pos_of_ne_zero fun hzero => h (BitVec.eq_of_toNat_eq hzero)
  · rintro h rfl
    exact Nat.lt_irrefl _ h

/-- The units of a length, and what the span checks ask of both. -/
theorem unitCount_spec {len : Nat} {units : Word} (hlen : len < 65536)
    (h : ceilUnits (BitVec.ofNat 16 len) 4 = some units) :
    units.toNat = (len + 3) / 4 ∧ (BitVec.ofNat 16 len ≠ 0 ∧ units ≠ 0 ↔ 0 < len) := by
  have hcount := ceilUnits_four_toNat h
  rw [word_len hlen] at hcount
  refine ⟨hcount, ?_⟩
  rw [word_ne_zero_iff, word_ne_zero_iff, hcount, word_len hlen]
  omega

section Readable

variable {type2 : Type2Info} {type5 : Type5Info} {area : ReadableArea}

theorem type2_readable_last (h : type2.readable = some area) : area.first = 3 ∧ area.last ≤ 225 ∧
    area.declared = 4 + type2.dataAreaSizeBytes.toNat ∧ 4 * (area.last - area.first) < area.declared := by
  rw [Type2Info.readable, Option.map_eq_some_iff] at h
  obtain ⟨last, hlast, rfl⟩ := h
  have hword := type2LastPage_toNat hlast
  refine ⟨rfl, by dsimp only; omega, rfl, ?_⟩
  dsimp only
  rw [type2CcPage, t2tPageSizeBytes]
  omega

theorem type2_readSpanOk_iff (hvalid : type2.ccValid = true) (h : type2.readable = some area) (page : Word) {len : Nat}
    (hlen : len < 65536) :
    type2.readSpanOk page (BitVec.ofNat 16 len) = true ↔ area.SpanOk page.toNat len := by
  rw [Type2Info.readable, Option.map_eq_some_iff] at h
  obtain ⟨last, hlast, rfl⟩ := h
  rw [Type2Info.readSpanOk, hvalid, Bool.true_and, type2ReadSpanOk, hlast]
  cases hunits : ceilUnits (BitVec.ofNat 16 len) type2UnitSize with
  | none =>
      rw [show type2UnitSize = 4 from rfl, ceilUnits_four] at hunits
      cases hunits
  | some pages =>
      obtain ⟨hcount, hpos⟩ := unitCount_spec hlen hunits
      dsimp only
      rw [decide_eq_true_iff, ← and_assoc, hpos, hcount]
      rfl

theorem type5_readable_last (h : type5.readable = some area) : area.first = 0 ∧
    area.declared = (type5CcByteLen type5).toNat + type5.dataAreaSizeBytes.toNat ∧ type5CcByteLen type5 ≠ 0 ∧
    4 * (area.last - area.first) < area.declared := by
  rw [Type5Info.readable, Option.map_eq_some_iff] at h
  obtain ⟨⟨first, last⟩, hblocks, rfl⟩ := h
  obtain ⟨-, hlast, -⟩ := type5DataBlocks_spec hblocks
  obtain ⟨hpos, hmod⟩ := type5DataBlocks_cc hblocks
  refine ⟨rfl, rfl, word_ne_zero_iff.mpr hpos, ?_⟩
  dsimp only
  omega

theorem type5_readSpanOk_iff (hvalid : type5.ccValid = true) (h : type5.readable = some area) (block : Word) {len : Nat}
    (hlen : len < 65536) :
    type5.readSpanOk block (BitVec.ofNat 16 len) = true ↔ area.SpanOk block.toNat len := by
  rw [Type5Info.readable, Option.map_eq_some_iff] at h
  obtain ⟨⟨first, last⟩, hblocks, rfl⟩ := h
  rw [Type5Info.readSpanOk, hvalid, Bool.true_and, type5ReadSpanOk, hblocks]
  cases hunits : ceilUnits (BitVec.ofNat 16 len) type5BlockSize with
  | none =>
      rw [show type5BlockSize = 4 from rfl, ceilUnits_four] at hunits
      cases hunits
  | some count =>
      obtain ⟨hcount, hpos⟩ := unitCount_spec hlen hunits
      dsimp only
      rw [decide_eq_true_iff, ← and_assoc, hpos, hcount]
      exact and_congr_right fun _ => (and_iff_right (Nat.zero_le _)).symm

end Readable

theorem tryAddU16_some {a b : Word} (h : a.toNat + b.toNat ≤ 0xFFFF) :
    ∃ total, tryAddU16 a b = some total ∧ total.toNat = a.toNat + b.toNat := by
  refine ⟨a + b, if_neg (by omega), ?_⟩
  rw [BitVec.toNat_add]
  exact Nat.mod_eq_of_lt (by change _ < 65536; omega)

theorem tryAddU16_none {a b : Word} (h : 0xFFFF < a.toNat + b.toNat) : tryAddU16 a b = none := if_pos h

section Handler

variable {tag : Tag} {area : ReadableArea} {m : Medium} {apdu : Frame} {unit : Word} {le : Byte} {rspCap : Nat}

/-- A readable tag is a Type 2 or a Type 5 tag with a container that opens reading. -/
theorem readable_cases (h : tag.readable = some area) :
    (∃ type2, tag.kind = .type2 ∧ tag.type2 = some type2 ∧ type2.ccValid = true ∧ type2.readAccessOpen = true ∧
        type2.readable = some area) ∨
      ∃ type5, tag.kind = .type5 ∧ tag.type5 = some type5 ∧ type5.ccValid = true ∧ type5.readAccessOpen = true ∧
        type5.readable = some area := by
  rw [Tag.readable] at h
  split at h
  next hkind =>
    obtain ⟨type2, htype2, h⟩ := Option.bind_eq_some_iff.mp h
    split at h
    next hopen => exact Or.inl ⟨type2, hkind, htype2, hopen.1, hopen.2, h⟩
    next => cases h
  next hkind =>
    obtain ⟨type5, htype5, h⟩ := Option.bind_eq_some_iff.mp h
    split at h
    next hopen => exact Or.inr ⟨type5, hkind, htype5, hopen.1, hopen.2, h⟩
    next => cases h
  next => cases h
  next => cases h

/-- The declared bytes reach into the last unit. -/
theorem readable_last (h : tag.readable = some area) : 4 * (area.last - area.first) < area.declared := by
  obtain ⟨type2, -, -, -, -, h⟩ | ⟨type5, -, -, -, -, h⟩ := readable_cases h
  · exact (type2_readable_last h).2.2.2
  · exact (type5_readable_last h).2.2.2

/-- What is left, as long as 16 bits hold the declared bytes. -/
theorem storageReadBinaryRemainingBytes_toNat (h : tag.readable = some area) (hunit : unit.toNat ∈ area.units) :
    (storageReadBinaryRemainingBytes tag unit).toNat =
      if area.declared ≤ 0xFFFF then area.declared - 4 * (unit.toNat - area.first) else 0 := by
  have hinside := readable_last h
  have hbounds : area.first ≤ unit.toNat ∧ unit.toNat ≤ area.last := hunit
  obtain ⟨hfirst, hlast⟩ := hbounds
  rw [storageReadBinaryRemainingBytes]
  obtain ⟨type2, hkind, htype2, hvalid, hopen, h⟩ | ⟨type5, hkind, htype5, hvalid, hopen, h⟩ := readable_cases h
  · obtain ⟨hcc, hmax, hdeclared, -⟩ := type2_readable_last h
    rw [hdeclared] at hinside ⊢
    rw [hcc] at hinside hfirst ⊢
    rw [hkind]
    dsimp only
    rw [type2Position, htype2, Option.bind_eq_bind, Option.bind_some,
      if_neg (by rw [hvalid, hopen, type2CcPage]; simp; omega)]
    have hpages : (unit - BitVec.ofNat 16 type2CcPage).toNat = unit.toNat - 3 := by
      rw [BitVec.toNat_sub_of_le (by rw [BitVec.le_def]; exact hfirst)]
      rfl
    by_cases hsum : 4 + type2.dataAreaSizeBytes.toNat ≤ 0xFFFF
    · obtain ⟨total, htotal, hlen⟩ := @tryAddU16_some 4 type2.dataAreaSizeBytes hsum
      have hlen : total.toNat = 4 + type2.dataAreaSizeBytes.toNat := hlen
      have hstart : ((unit - BitVec.ofNat 16 type2CcPage) * 4).toNat = 4 * (unit.toNat - 3) := by
        rw [BitVec.toNat_mul, hpages, Nat.mul_comm]
        exact Nat.mod_eq_of_lt (by change 4 * _ < 65536; omega)
      rw [htotal, Option.bind_eq_bind, Option.bind_some, if_neg (by rw [hpages]; omega), if_pos hsum]
      dsimp only
      rw [hstart, hlen, if_neg (by omega), BitVec.toNat_sub_of_le (by rw [BitVec.le_def]; omega), hstart, hlen]
    · rw [@tryAddU16_none 4 type2.dataAreaSizeBytes (Nat.lt_of_not_le hsum), if_neg hsum]
      rfl
  · obtain ⟨hzero, hdeclared, hcc, -⟩ := type5_readable_last h
    rw [hdeclared] at hinside ⊢
    rw [hzero] at hinside ⊢
    rw [hkind]
    dsimp only
    rw [type5Position, htype5, Option.bind_eq_bind, Option.bind_some, if_neg (by rw [hvalid, hopen]; simpa using hcc)]
    by_cases hsum : (type5CcByteLen type5).toNat + type5.dataAreaSizeBytes.toNat ≤ 0xFFFF
    · obtain ⟨total, htotal, hlen⟩ := tryAddU16_some hsum
      have hstart : (unit * 4).toNat = 4 * unit.toNat := by
        rw [BitVec.toNat_mul, Nat.mul_comm]
        exact Nat.mod_eq_of_lt (by change 4 * _ < 65536; omega)
      rw [htotal, Option.bind_eq_bind, Option.bind_some, if_neg (by omega), if_pos hsum]
      dsimp only
      rw [hstart, hlen, if_neg (by omega), BitVec.toNat_sub_of_le (by rw [BitVec.le_def]; omega), hstart,
        hlen, Nat.sub_zero]
    · rw [tryAddU16_none (Nat.lt_of_not_le hsum), if_neg hsum]
      rfl

/-- The request is cut to the room for data. -/
theorem readBinaryLen_eq (tag : Tag) (unit : Word) (le : Byte) (hcap : 2 ≤ rspCap) :
    readBinaryLen tag unit le rspCap =
      min (if le = 0 then
          min (if (storageReadBinaryRemainingBytes tag unit).toNat ≠ 0 then
            (storageReadBinaryRemainingBytes tag unit).toNat else 256) 256
        else le.toNat) (rspCap - 2) := by
  have hcut : ∀ req : Nat, (if rspCap < req + 2 then rspCap - 2 else req) = min req (rspCap - 2) := by
    intro req
    split <;> omega
  exact hcut _

theorem readBinaryLen_le (tag : Tag) (unit : Word) (le : Byte) (hcap : 2 ≤ rspCap) :
    readBinaryLen tag unit le rspCap + 2 ≤ rspCap ∧ readBinaryLen tag unit le rspCap ≤ 256 := by
  have hle := le.isLt
  rw [readBinaryLen_eq tag unit le hcap]
  split <;> omega

/-- The length that an Le of zero stands for. -/
theorem readBinaryLen_zero (h : tag.readable = some area) (hunit : unit.toNat ∈ area.units) (hcap : 2 ≤ rspCap) :
    readBinaryLen tag unit 0 rspCap =
      min (min (if area.declared ≤ 0xFFFF then area.declared - 4 * (unit.toNat - area.first) else 256) 256)
        (rspCap - 2) := by
  have hinside := readable_last h
  have hbounds : area.first ≤ unit.toNat ∧ unit.toNat ≤ area.last := hunit
  rw [readBinaryLen_eq tag unit 0 hcap, if_pos rfl, storageReadBinaryRemainingBytes_toNat h hunit]
  by_cases hword : area.declared ≤ 0xFFFF
  · rw [if_pos hword, if_pos hword, if_pos (by omega)]
  · rw [if_neg hword, if_neg hword, if_neg (by omega)]

/-- **When the span check admits what an Le of zero stands for**, and this is what the area has left. -/
theorem serves_iff (h : tag.readable = some area) (hunit : unit.toNat ∈ area.units) (hcap : 2 ≤ rspCap) :
    area.SpanOk unit.toNat (readBinaryLen tag unit 0 rspCap) ∧
        readBinaryLen tag unit 0 rspCap = area.due unit.toNat rspCap ↔ area.Serves unit.toNat rspCap := by
  have hinside := readable_last h
  have hbounds : area.first ≤ unit.toNat ∧ unit.toNat ≤ area.last := hunit
  obtain ⟨hfirst, hlast⟩ := hbounds
  rw [readBinaryLen_zero h hunit hcap, ReadableArea.SpanOk, ReadableArea.due, ReadableArea.Serves, ReadableArea.left,
    iso7816ShortLeZeroBytes]
  by_cases hword : area.declared ≤ 0xFFFF
  · rw [if_pos hword]
    omega
  · rw [if_neg hword]
    omega

/-! ### What the host gets -/

theorem returned_eq_some {copied data : Frame} : returned copied = some data ↔ copied = data ∧ 0 < data.length := by
  rw [returned]
  split
  next hzero =>
    refine iff_of_false (by simp) ?_
    rintro ⟨rfl, hpos⟩
    omega
  next hpos =>
    constructor
    · intro h
      obtain rfl := Option.some.inj h
      exact ⟨rfl, Nat.pos_of_ne_zero hpos⟩
    · rintro ⟨rfl, -⟩
      rfl

theorem Medium.read_length {kind : TagKind} {len : Nat} {first : Nat} {data : Frame}
    (h : m.read kind first len = some data) : data.length ≤ len := by
  cases kind with
  | none => cases h
  | type4 => cases h
  | type2 =>
      obtain ⟨rfl, -⟩ := returned_eq_some.mp h
      exact (type2ReadBinary_length m.type2 m.fastReadAllowed).1
  | type5 =>
      obtain ⟨rfl, -⟩ := returned_eq_some.mp h
      exact (type5ReadBinary_length m.type5 m.readMultipleDisabled).1

/-- A tag that answers is read in full. -/
theorem Medium.Answers.read {len : Nat} (hm : m.Answers tag.kind unit.toNat (Tags.units len))
    (h : tag.readable = some area) (hspan : area.SpanOk unit.toNat len) :
    ∃ data, m.read tag.kind unit.toNat len = some data ∧ data.length = len := by
  obtain ⟨hpos, -, hend⟩ := hspan
  obtain ⟨type2, hkind, -, -, -, h⟩ | ⟨type5, hkind, -, -, -, h⟩ := readable_cases h
  · obtain ⟨-, hmax, -⟩ := type2_readable_last h
    have hlen := (type2ReadBinary_length m.type2 m.fastReadAllowed).2 (by rw [Tags.units]; omega) (hm.1 hkind)
    rw [hkind]
    exact ⟨_, returned_eq_some.mpr ⟨rfl, hpos.trans_eq hlen.symm⟩, hlen⟩
  · have hlen := (type5ReadBinary_length m.type5 m.readMultipleDisabled).2 (hm.2 hkind)
    rw [hkind]
    exact ⟨_, returned_eq_some.mpr ⟨rfl, hpos.trans_eq hlen.symm⟩, hlen⟩

/-- What is read of a tag that holds a memory are its bytes. -/
theorem Medium.Holds.read {memory : Nat → Byte} {len : Nat} {data : Frame}
    (hm : m.Holds memory tag.kind unit.toNat len) (h : tag.readable = some area) (hspan : area.SpanOk unit.toNat len)
    (hlen : len ≤ 256) (hread : m.read tag.kind unit.toNat len = some data) :
    data = bytesAt memory (4 * unit.toNat) data.length := by
  have hword := unit.isLt
  obtain ⟨hpos, -, hend⟩ := hspan
  obtain ⟨type2, hkind, -, -, -, h⟩ | ⟨type5, hkind, -, -, -, h⟩ := readable_cases h
  · obtain ⟨-, hmax, -⟩ := type2_readable_last h
    rw [hkind] at hread
    obtain ⟨rfl, -⟩ := returned_eq_some.mp hread
    obtain ⟨n, hn, -⟩ := type2ReadBinary_bytes (by rw [Tags.units]; omega) (hm.1 hkind) m.fastReadAllowed
    rw [hn, Ndef.bytesAt_length]
  · obtain ⟨wide, htag, hcross⟩ := hm.2 hkind
    rw [hkind] at hread
    obtain ⟨rfl, -⟩ := returned_eq_some.mp hread
    have hlast : area.last < 0x10000 := by
      rw [Type5Info.readable, Option.map_eq_some_iff] at h
      obtain ⟨blocks, -, rfl⟩ := h
      exact blocks.2.isLt
    obtain ⟨n, hn, -⟩ := type5ReadBinary_bytes (by rw [Tags.units]; omega) htag hcross
    rw [hn, Ndef.bytesAt_length]

/-- The handler on a readable tag. -/
theorem handleReadBinaryApdu_eq (h : tag.readable = some area) (hcap : 2 ≤ rspCap)
    (hfields : readBinaryFields tag.kind apdu = some (unit, le)) :
    handleReadBinaryApdu tag m apdu rspCap =
      if area.SpanOk unit.toNat (readBinaryLen tag unit le rspCap) then
        finishRead rspCap (m.read tag.kind unit.toNat (readBinaryLen tag unit le rspCap))
      else swWrongP1P2 := by
  have hlen : readBinaryLen tag unit le rspCap < 65536 := by
    have := (readBinaryLen_le tag unit le hcap).2
    omega
  rw [handleReadBinaryApdu, if_neg (Nat.not_lt.mpr hcap), hfields]
  dsimp only
  generalize readBinaryLen tag unit le rspCap = len at hlen ⊢
  obtain ⟨type2, hkind, htag, hvalid, hopen, h⟩ | ⟨type5, hkind, htag, hvalid, hopen, h⟩ := readable_cases h
  · rw [hkind]
    dsimp only
    rw [readType2, htag]
    dsimp only
    rw [if_neg (by rw [hvalid]; exact Bool.false_ne_true.symm), if_neg (by rw [hopen]; exact Bool.false_ne_true.symm)]
    by_cases hspan : area.SpanOk unit.toNat len
    · rw [if_pos hspan, (type2_readSpanOk_iff hvalid h unit hlen).mpr hspan]
      rfl
    · rw [if_neg hspan, if_pos (Bool.eq_false_iff.mpr (mt (type2_readSpanOk_iff hvalid h unit hlen).mp hspan)),
        appendStatus, if_neg (Nat.not_lt.mpr hcap)]
  · rw [hkind]
    dsimp only
    rw [readType5, htag]
    dsimp only
    rw [if_neg (by rw [hvalid]; exact Bool.false_ne_true.symm), if_neg (by rw [hopen]; exact Bool.false_ne_true.symm)]
    by_cases hspan : area.SpanOk unit.toNat len
    · rw [if_pos hspan, (type5_readSpanOk_iff hvalid h unit hlen).mpr hspan]
      rfl
    · rw [if_neg hspan, if_pos (Bool.eq_false_iff.mpr (mt (type5_readSpanOk_iff hvalid h unit hlen).mp hspan)),
        appendStatus, if_neg (Nat.not_lt.mpr hcap)]

theorem appendStatus_length {sw : Frame} (hcap : 2 ≤ rspCap) (hsw : sw.length = 2) :
    (appendStatus rspCap sw).length = 2 := by
  rw [appendStatus, if_neg (Nat.not_lt.mpr hcap), hsw]

/-- A tag that is not readable answers with a status alone. -/
theorem handleReadBinaryApdu_refused (h : tag.readable = none) (hcap : 2 ≤ rspCap) :
    (handleReadBinaryApdu tag m apdu rspCap).length = 2 := by
  rw [handleReadBinaryApdu, if_neg (Nat.not_lt.mpr hcap)]
  rw [Tag.readable] at h
  cases readBinaryFields tag.kind apdu with
  | none => exact appendStatus_length hcap rfl
  | some fields =>
      obtain ⟨unit, le⟩ := fields
      dsimp only
      cases hkind : tag.kind with
      | none => exact appendStatus_length hcap rfl
      | type4 => exact appendStatus_length hcap rfl
      | type2 =>
          rw [hkind] at h
          dsimp only at h ⊢
          rw [readType2]
          cases htag : tag.type2 with
          | none => exact appendStatus_length hcap rfl
          | some type2 =>
              rw [htag, Option.bind_some] at h
              dsimp only
              by_cases hvalid : type2.ccValid = false
              · rw [if_pos hvalid]
                exact appendStatus_length hcap rfl
              by_cases hopen : type2.readAccessOpen = false
              · rw [if_neg hvalid, if_pos hopen]
                exact appendStatus_length hcap rfl
              rw [if_pos ⟨by simpa using hvalid, by simpa using hopen⟩, Type2Info.readable, Option.map_eq_none_iff] at h
              rw [if_neg hvalid, if_neg hopen, Type2Info.readSpanOk, type2ReadSpanOk, h, if_pos (Bool.and_false _)]
              exact appendStatus_length hcap rfl
      | type5 =>
          rw [hkind] at h
          dsimp only at h ⊢
          rw [readType5]
          cases htag : tag.type5 with
          | none => exact appendStatus_length hcap rfl
          | some type5 =>
              rw [htag, Option.bind_some] at h
              dsimp only
              by_cases hvalid : type5.ccValid = false
              · rw [if_pos hvalid]
                exact appendStatus_length hcap rfl
              by_cases hopen : type5.readAccessOpen = false
              · rw [if_neg hvalid, if_pos hopen]
                exact appendStatus_length hcap rfl
              rw [if_pos ⟨by simpa using hvalid, by simpa using hopen⟩, Type5Info.readable, Option.map_eq_none_iff] at h
              rw [if_neg hvalid, if_neg hopen, Type5Info.readSpanOk, type5ReadSpanOk, h, if_pos (Bool.and_false _)]
              exact appendStatus_length hcap rfl

/-- **No byte from outside the area.** Whatever the tag answers, the data of a response belong to units of the
readable area, and are those units' bytes where the tag holds a memory. -/
theorem handleReadBinaryApdu_data (hcap : 2 ≤ rspCap) : ∃ data sw,
    handleReadBinaryApdu tag m apdu rspCap = data ++ sw ∧ sw.length = 2 ∧
      (data ≠ [] → ∃ area unit le, tag.readable = some area ∧ readBinaryFields tag.kind apdu = some (unit, le) ∧
        (∀ i < data.length, unit.toNat + i / 4 ∈ area.units) ∧
        ∀ memory, m.Holds memory tag.kind unit.toNat (readBinaryLen tag unit le rspCap) →
          data = bytesAt memory (4 * unit.toNat) data.length) := by
  cases harea : tag.readable with
  | none => exact ⟨[], _, rfl, handleReadBinaryApdu_refused harea hcap, fun h => absurd rfl h⟩
  | some area =>
      cases hfields : readBinaryFields tag.kind apdu with
      | none =>
          refine ⟨[], handleReadBinaryApdu tag m apdu rspCap, rfl, ?_, fun h => absurd rfl h⟩
          rw [handleReadBinaryApdu, if_neg (Nat.not_lt.mpr hcap), hfields]
          exact appendStatus_length hcap rfl
      | some fields =>
          obtain ⟨unit, le⟩ := fields
          obtain ⟨hroom, hmax⟩ := readBinaryLen_le tag unit le hcap
          rw [handleReadBinaryApdu_eq harea hcap hfields]
          split
          swap
          next => exact ⟨[], _, rfl, rfl, fun h => absurd rfl h⟩
          next hspan =>
            cases hread : m.read tag.kind unit.toNat (readBinaryLen tag unit le rspCap) with
            | none => exact ⟨[], _, rfl, appendStatus_length hcap rfl, fun h => absurd rfl h⟩
            | some data =>
                have hlen := Medium.read_length hread
                refine ⟨data, swSuccess, ?_, rfl,
                  fun _ => ⟨area, unit, le, rfl, rfl, fun i hi => ?_, fun memory hm => ?_⟩⟩
                · rw [finishRead, appendSuccessStatus, if_neg (by omega)]
                · obtain ⟨-, hfirst, hend⟩ := hspan
                  have hin : area.first ≤ unit.toNat + i / 4 ∧ unit.toNat + i / 4 ≤ area.last := by omega
                  exact hin
                · exact hm.read harea hspan hmax hread

end Handler

/-- A tag that answers every read. -/
def answering : Medium where
  type2 := ⟨.unknown, 0, fun _ => some (List.replicate 16 0), fun _ _ => none⟩
  fastReadAllowed := false
  type5 := ⟨fun _ => some (List.replicate 4 0), fun _ _ => none⟩
  readMultipleDisabled := true

theorem answering_answers (kind : TagKind) (unit count : Nat) : answering.Answers kind unit count :=
  ⟨fun _ _ _ _ => ⟨_, rfl, Nat.le_refl _⟩, fun _ _ _ _ => ⟨_, rfl, Nat.le_refl _⟩⟩

/-- **READ BINARY.** With an Le of zero and a start in the readable area, every tag that answers is read to the end of
the area, as far as a response goes, exactly when the declared bytes end within the last unit and within 16 bits, or
as many are left as a response takes. No READ BINARY brings a byte from a unit outside the area. -/
theorem read_binary_iff (tag : Tag) {rspCap : Nat} (hcap : 2 ≤ rspCap) :
    (∀ area apdu unit, tag.readable = some area → readBinaryFields tag.kind apdu = some (unit, 0) →
      unit.toNat ∈ area.units →
        ((∀ m : Medium, m.Answers tag.kind unit.toNat (Tags.units (area.due unit.toNat rspCap)) →
            ∃ data, handleReadBinaryApdu tag m apdu rspCap = data ++ swSuccess ∧
              data.length = area.due unit.toNat rspCap) ↔ area.Serves unit.toNat rspCap)) ∧
      ∀ apdu (m : Medium), ∃ data sw, handleReadBinaryApdu tag m apdu rspCap = data ++ sw ∧ sw.length = 2 ∧
        (data ≠ [] → ∃ area unit le, tag.readable = some area ∧ readBinaryFields tag.kind apdu = some (unit, le) ∧
          (∀ i < data.length, unit.toNat + i / 4 ∈ area.units) ∧
          ∀ memory, m.Holds memory tag.kind unit.toNat (readBinaryLen tag unit le rspCap) →
            data = bytesAt memory (4 * unit.toNat) data.length) := by
  refine ⟨fun area apdu unit harea hfields hunit => ?_, fun apdu m => handleReadBinaryApdu_data hcap⟩
  rw [← serves_iff harea hunit hcap]
  obtain ⟨hroom, -⟩ := readBinaryLen_le tag unit 0 hcap
  have hfinish {m : Medium} {data : Frame}
      (hread : m.read tag.kind unit.toNat (readBinaryLen tag unit 0 rspCap) = some data)
      (hspan : area.SpanOk unit.toNat (readBinaryLen tag unit 0 rspCap)) :
      handleReadBinaryApdu tag m apdu rspCap = data ++ swSuccess := by
    have hlen := Medium.read_length hread
    rw [handleReadBinaryApdu_eq harea hcap hfields, if_pos hspan, hread, finishRead, appendSuccessStatus,
      if_neg (by omega)]
  constructor
  · intro hall
    obtain ⟨data, hdata, hlen⟩ := hall answering (answering_answers _ _ _)
    by_cases hspan : area.SpanOk unit.toNat (readBinaryLen tag unit 0 rspCap)
    · obtain ⟨data', hread, hlen'⟩ := (answering_answers _ _ _).read (m := answering) harea hspan
      rw [hfinish hread hspan] at hdata
      rw [List.append_cancel_right hdata] at hlen'
      exact ⟨hspan, hlen'.symm.trans hlen⟩
    · rw [handleReadBinaryApdu_eq harea hcap hfields, if_neg hspan] at hdata
      have hlast := congrArg List.reverse hdata
      rw [List.reverse_append] at hlast
      exact absurd (List.cons.inj (List.cons.inj hlast).2).1 (by decide)
  · rintro ⟨hspan, hlen⟩ m hm
    rw [← hlen] at hm ⊢
    obtain ⟨data, hread, hdata⟩ := hm.read harea hspan
    exact ⟨data, hfinish hread hspan, hdata⟩

/-- A Type 2 tag whose container opens reading and declares a data area. -/
def openTag (dataAreaSizeBytes : Word) : Tag where
  kind := .type2
  type2 := some ⟨true, true, true, dataAreaSizeBytes⟩
  type5 := none
  uid15 := Vector.replicate 8 0

theorem read_binary_iff_small : ∃ data,
    handleReadBinaryApdu (openTag 144) answering [0xFF, 0xB0, 0x00, 0x04, 0x00] 258 = data ++ swSuccess ∧
      data.length = 144 :=
  ((read_binary_iff (openTag 144) (by decide : 2 ≤ 258)).1 ⟨3, 39, 148⟩ [0xFF, 0xB0, 0x00, 0x04, 0x00] 4 rfl rfl
    ⟨by decide, by decide⟩).mpr ⟨by decide, Or.inl ⟨by decide, by decide⟩⟩ answering (answering_answers _ _ _)

/-- A data area of 1024 bytes goes on behind page 225: the 104 bytes from page 200 on are refused. -/
theorem page_limit_refused :
    (openTag 1024).readable = some ⟨3, 225, 1028⟩ ∧
      readBinaryFields .type2 [0xFF, 0xB0, 0x00, 0xC8, 0x00] = some (200, 0) ∧
      200 ∈ (ReadableArea.mk 3 225 1028).units ∧ (ReadableArea.mk 3 225 1028).due 200 258 = 104 ∧
      answering.Answers .type2 200 (Tags.units 104) ∧
      ¬ ∃ data, handleReadBinaryApdu (openTag 1024) answering [0xFF, 0xB0, 0x00, 0xC8, 0x00] 258 = data ++ swSuccess ∧
        data.length = 104 := by
  refine ⟨rfl, rfl, ⟨by decide, by decide⟩, by decide, answering_answers _ _ _, ?_⟩
  rintro ⟨data, hdata, hlen⟩
  have hrefused : handleReadBinaryApdu (openTag 1024) answering [0xFF, 0xB0, 0x00, 0xC8, 0x00] 258 = swWrongP1P2 := by
    decide
  have hlength := congrArg List.length (hrefused.symm.trans hdata)
  rw [List.length_append, hlen] at hlength
  exact absurd hlength (by decide)

end NeroReader.Storage
