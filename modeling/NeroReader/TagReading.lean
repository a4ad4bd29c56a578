import NeroReader.NdefTlv
import Mathlib.Order.Monotone.Basic

/-!
Interactive reading of Type 2 and Type 5 tags. Both readers fill a buffer from the start of the data area
and look into it after every read; they stop when a message is complete, or when the buffer holds the
terminator byte anywhere behind the capability container. On an NTAG21x one READ and one FAST_READ take
the place of the loop. What is in the buffer is then walked, and every message in it is printed.
-/

namespace NeroReader.Tags

open Ndef Storage

def type2CcPrefixBytes : Nat := 4
def type2TagDumpMax : Nat := 912
def ndefBufMax : Nat := 1024
def t2tPageSizeBytes : Nat := 4
def t2tReadRespBytes : Nat := 16
def t2tReadRespPages : Nat := 4
def t2tMinNdefDumpBytes : Nat := 8
def t2tFallbackLastPage : Nat := 44
def ntag216LastPage : Nat := 225
def fastReadRespBytesMax : Nat := 192
def readMultipleBlocksMax : Nat := 31
def t5UserBlockSize : Nat := 4

/-! ### Presenting messages -/

/-- The loop of `reader_tags_parse_ndef_tlv_area`: the messages it prints. -/
def parseNdefTlvAreaFrom (data : Frame) : Nat → Nat → List Frame
  | 0, _ => []
  | fuel + 1, pos =>
      if pos < data.length then
        let found := tlvNext data pos
        if found.status ≠ .ok then []
        else if found.tlv.type = tlvMessage then
          found.tlv.value data :: parseNdefTlvAreaFrom data fuel found.next
        else parseNdefTlvAreaFrom data fuel found.next
      else []

def parseNdefTlvArea (data : Frame) (start : Nat) : List Frame :=
  if data.length < start then [] else parseNdefTlvAreaFrom data (data.length + 1) start

/-! ### Type 2 tags -/

inductive Type2Family where
  | unknown
  | ntag21x
  | st25tn
  deriving DecidableEq, Repr

/-- A Type 2 tag as the reader meets it: what it identifies itself as, and its answers to a READ of a
page and to a FAST_READ of a range of pages. -/
structure Type2Tag where
  family : Type2Family
  maxUserPage : Nat
  read : Nat → Option Frame
  fastRead : Nat → Nat → Option Frame

/-- `nfc_tag_type2_apply_cc`. -/
def type2ApplyCc (cc : Frame) : Type2Info :=
  if cc.length < t2tPageSizeBytes then ⟨false, false, false, 0⟩
  else if u8At cc 0 ≠ forumCcMagic then ⟨false, false, false, 0⟩
  else
    { ccValid := true
      dataAreaSizeBytes := (u8At cc 2).zeroExtend 16 * 8
      readAccessOpen := u8At cc 3 &&& 0xF0 == 0
      writeAccessOpen := u8At cc 3 &&& 0x0F == 0 }

/-- The capability container that `reader_tags_get_type2_info` reads. -/
def getType2Info (tag : Type2Tag) : Type2Info :=
  match tag.read type2CcPage with
  | none => ⟨false, false, false, 0⟩
  | some page3 => type2ApplyCc (page3.take t2tPageSizeBytes)

/-- `type2_max_read_page`. -/
def type2MaxReadPage (info : Type2Info) (maxUserPage : Nat) : Nat :=
  if info.ccValid = true ∧ info.dataAreaSizeBytes ≠ 0 then
    let pagesFromCc :=
      u16 (type2CcPage + (info.dataAreaSizeBytes.toNat + t2tPageSizeBytes - 1) / t2tPageSizeBytes)
    if ntag216LastPage < pagesFromCc then ntag216LastPage else pagesFromCc
  else if maxUserPage ≠ 0 then maxUserPage
  else t2tFallbackLastPage

/-- The pages from the capability container to this one, as a 16-bit number. -/
def type2PagesUpTo (maxPage : Nat) : Nat := u16 (maxPage + 0x10000 - type2CcPage + 1)

theorem type2PagesUpTo_eq {maxPage : Nat} (hlow : type2CcPage ≤ maxPage) (hhigh : maxPage ≤ 0xFFFF) :
    type2PagesUpTo maxPage = maxPage - type2CcPage + 1 := by
  rw [type2CcPage] at hlow
  rw [type2PagesUpTo, u16, type2CcPage]
  omega

/-- The loop of `reader_tags_type2_needed_pages`. Offsets are 16-bit, so it either ends within that many
rounds or not at all. -/
def type2NeededPagesFrom (data : Frame) (maxPage : Nat) : Nat → Nat → Option Nat
  | 0, _ => none
  | fuel + 1, tlvStart =>
      if tlvStart < data.length then
        let pos := u16 (tlvStart + 1)
        if u8At data tlvStart = tlvNull then type2NeededPagesFrom data maxPage fuel pos
        else if u8At data tlvStart = tlvTerminator then
          some ((tlvStart + t2tPageSizeBytes) / t2tPageSizeBytes)
        else if data.length ≤ pos then some 0
        else
          match tlvLength data pos with
          | none => some 0
          | some (valueLen, pos) =>
              if u8At data tlvStart ≠ tlvMessage then
                type2NeededPagesFrom data maxPage fuel (u16 (pos + valueLen))
              else
                let pages := (min (pos + valueLen) type2TagDumpMax + t2tPageSizeBytes - 1) / t2tPageSizeBytes
                some (min pages (type2PagesUpTo maxPage))
      else some 0

/-- `reader_tags_type2_needed_pages`. -/
def type2NeededPages (data : Frame) (maxPage : Nat) : Option Nat :=
  if data.length ≤ type2CcPrefixBytes ∨ u8At data 0 ≠ forumCcMagic then some 0
  else type2NeededPagesFrom data maxPage 0x10000 type2CcPrefixBytes

/-- The loop of `reader_tags_ntag_fast_read`: what it copied, and whether it came to the end. -/
def ntagFastReadFrom (tag : Type2Tag) (lastPage : Nat) : Nat → Nat → Frame → Frame × Bool
  | 0, _, copied => (copied, true)
  | fuel + 1, page, copied =>
      if lastPage < page then (copied, true)
      else
        let chunkPages := min (lastPage - page + 1) (fastReadRespBytesMax / t2tPageSizeBytes)
        let chunkLen := chunkPages * t2tPageSizeBytes
        match tag.fastRead page (page + chunkPages - 1) with
        | none => (copied, false)
        | some rx =>
            if rx.length < chunkLen then (copied ++ rx, false)
            else ntagFastReadFrom tag lastPage fuel (page + chunkPages) (copied ++ rx.take chunkLen)

def ntagFastRead (tag : Type2Tag) (firstPage lastPage : Nat) : Frame × Bool :=
  ntagFastReadFrom tag lastPage (lastPage - firstPage + 1) firstPage []

/-- `reader_tags_type2_tlv_complete`. -/
def type2TlvComplete (data : Frame) : Bool :=
  if data.length ≤ type2CcPrefixBytes ∨ u8At data 0 ≠ forumCcMagic then false
  else if (findMessageTlv data type2CcPrefixBytes).1 = .ok then true
  else decide (tlvTerminator ∈ data.drop type2CcPrefixBytes)

/-- One READ and, for more pages, one FAST_READ into the same buffer. A FAST_READ that fails leaves the
length at the one READ. -/
def ntagFirstDump (tag : Type2Tag) (maxPage : Nat) : Option Frame :=
  match tag.read type2CcPage with
  | none => some []
  | some firstRead =>
      if firstRead.length < t2tReadRespBytes then some []
      else
        let dump := firstRead.take t2tReadRespBytes
        (type2NeededPages dump maxPage).map fun neededPages =>
          if t2tReadRespPages < neededPages ∧ neededPages * t2tPageSizeBytes ≤ type2TagDumpMax then
            let fast := ntagFastRead tag type2CcPage (type2CcPage + neededPages - 1)
            if fast.2 then fast.1 else (storeAt dump 0 fast.1).take t2tReadRespBytes
          else dump

/-- The pages of one READ that are copied into the dump. -/
def copyPages (buffer : Frame) (pagesToCopy : Nat) (dump : Frame) : Frame :=
  (List.range pagesToCopy).foldl (fun dump p =>
    if dump.length + t2tPageSizeBytes ≤ type2TagDumpMax then
      dump ++ (buffer.drop (p * t2tPageSizeBytes)).takeD t2tPageSizeBytes 0
    else dump) dump

/-- The READ loop of `reader_tags_read_ntag_tag`. -/
def readPagesFrom (tag : Type2Tag) (maxPage : Nat) : Nat → Nat → Frame → Frame
  | 0, _, dump => dump
  | fuel + 1, page, dump =>
      if maxPage < page then dump
      else
        match tag.read page with
        | none => dump
        | some buffer =>
            if buffer.length < t2tPageSizeBytes then dump
            else
              let pagesToCopy :=
                if maxPage < page + t2tReadRespPages - 1 then maxPage - page + 1 else t2tReadRespPages
              let dump := copyPages buffer pagesToCopy dump
              if type2TlvComplete dump then dump
              else readPagesFrom tag maxPage fuel (page + t2tReadRespPages) dump

/-- `reader_tags_parse_type2_tlv`. -/
def parseType2Tlv (data : Frame) : List Frame :=
  if data.length < type2CcPrefixBytes ∨ u8At data 0 ≠ forumCcMagic then []
  else parseNdefTlvArea data type2CcPrefixBytes

/-- `reader_tags_read_ntag_tag`: the messages it prints, none when it does not return. -/
def readNtagTag (tag : Type2Tag) : Option (List Frame) :=
  let type2 := getType2Info tag
  if type2.ccValid = false ∨ type2.dataAreaSizeBytes = 0 then some []
  else if type2.readAccessOpen = false then some []
  else
    let maxPage := type2MaxReadPage type2 tag.maxUserPage
    let first := if tag.family = .ntag21x ∧ maxPage ≤ 255 then ntagFirstDump tag maxPage else some []
    first.map fun first =>
      let dump := if first.length = 0 then readPagesFrom tag maxPage (maxPage + 1) type2CcPage [] else first
      if t2tMinNdefDumpBytes ≤ dump.length then parseType2Tlv dump else []

/-! ### Type 5 tags -/

/-- A Type 5 tag: its answers to a read of one block and of several. -/
structure Type5Tag where
  readBlock : Nat → Option Frame
  readMultiple : Nat → Nat → Option Frame

/-- The loop of `reader_tags_type5_read_binary`. `disabled` remembers that reading several blocks at once
has failed. -/
def type5ReadBinaryFrom (tag : Type5Tag) (cap : Nat) : Nat → Bool → Nat → Frame → Frame × Bool
  | 0, disabled, _, copied => (copied, disabled)
  | fuel + 1, disabled, block, copied =>
      if copied.length < cap then
        let fullBlocks := (cap - copied.length) / t5UserBlockSize
        let blockCount := min fullBlocks readMultipleBlocksMax
        let chunkLen := blockCount * t5UserBlockSize
        let several := decide (1 < fullBlocks) && !disabled
        match if several then (tag.readMultiple block blockCount).filter (chunkLen ≤ ·.length) else none with
        | some rx =>
            type5ReadBinaryFrom tag cap fuel disabled (block + blockCount) (copied ++ rx.take chunkLen)
        | none =>
            let chunk := min (cap - copied.length) t5UserBlockSize
            match (tag.readBlock block).filter (chunk ≤ ·.length) with
            | some rx =>
                type5ReadBinaryFrom tag cap fuel (several || disabled) (block + 1) (copied ++ rx.take chunk)
            | none => (copied, several || disabled)
      else (copied, disabled)

def type5ReadBinary (tag : Type5Tag) (disabled : Bool) (block cap : Nat) : Frame × Bool :=
  type5ReadBinaryFrom tag cap cap disabled block []

/-- The loop of `read_type5_tlv_area`. -/
def readType5TlvAreaFrom (tag : Type5Tag) (startOffset blocksNeeded : Nat) :
    Nat → Bool → Nat → Frame → Option Frame
  | 0, _, _, buf => some buf
  | fuel + 1, disabled, block, buf =>
      if block < blocksNeeded then
        let blocks := min (blocksNeeded - block) readMultipleBlocksMax
        let chunkLen := blocks * t5UserBlockSize
        let got := type5ReadBinary tag disabled block chunkLen
        if got.1.length < chunkLen then none
        else if spanOk buf.length chunkLen ndefBufMax = false then none
        else
          let total := buf ++ got.1
          if startOffset < total.length then
            if (findMessageTlv total startOffset).1 = .ok then some total
            else if tlvTerminator ∈ total.drop startOffset then some total
            else readType5TlvAreaFrom tag startOffset blocksNeeded fuel got.2 (block + blocks) total
          else readType5TlvAreaFrom tag startOffset blocksNeeded fuel got.2 (block + blocks) total
      else some buf

/-- `read_type5_tlv_area`: the buffer it filled from block 0 on. -/
def readType5TlvArea (tag : Type5Tag) (type5 : Type5Info) (disabled : Bool) : Option Frame :=
  if type5.ccValid = false ∨ type5.readAccessOpen = false ∨ type5.dataAreaSizeBytes = 0 then none
  else
    let startOffset := (type5CcByteLen type5).toNat
    if 0xFFFF < startOffset + type5.dataAreaSizeBytes.toNat then none
    else
      let bytesToRead := min (startOffset + type5.dataAreaSizeBytes.toNat) ndefBufMax
      let blocksNeeded := (bytesToRead + (t5UserBlockSize - 1)) / t5UserBlockSize
      readType5TlvAreaFrom tag startOffset blocksNeeded blocksNeeded disabled 0 []

/-- `reader_tags_read_dynamic_or_static_type5`: the messages it prints. -/
def readType5Tag (tag : Type5Tag) (type5 : Type5Info) (disabled : Bool) : List Frame :=
  match readType5TlvArea tag type5 disabled with
  | none => []
  | some total =>
      if (type5CcByteLen type5).toNat ≤ total.length then parseNdefTlvArea total (type5CcByteLen type5).toNat
      else []

/-! ### Capability containers -/

/-- The capability container declares a data area that may be read. -/
structure Type2Readable (memory : Nat → Byte) : Prop where
  magic : memory 12 = forumCcMagic
  size : memory 14 ≠ 0
  access : memory 15 &&& 0xF0 = 0

theorem dataAreaSize_toNat (b : Byte) : (b.zeroExtend 16 * 8 : Word).toNat = 8 * b.toNat := by
  have hb := b.isLt
  rw [BitVec.toNat_mul, BitVec.zeroExtend_eq_setWidth, BitVec.toNat_setWidth_of_le (by decide)]
  show b.toNat * 8 % 65536 = _
  omega

theorem dataAreaSize_ne_zero {b : Byte} (h : b ≠ 0) : (b.zeroExtend 16 * 8 : Word) ≠ 0 := by
  intro hzero
  have hsize : 0 = 8 * b.toNat := by
    rw [← dataAreaSize_toNat, hzero]
    rfl
  exact h (BitVec.eq_of_toNat_eq (show b.toNat = 0 by omega))

theorem type2ApplyCc_readable {memory : Nat → Byte} (h : Type2Readable memory) :
    ∃ write, type2ApplyCc (bytesAt memory 12 4) = ⟨true, true, write, (memory 14).zeroExtend 16 * 8⟩ := by
  refine ⟨memory 15 &&& 0x0F == 0, ?_⟩
  rw [type2ApplyCc, bytesAt_length, if_neg (by decide), u8At_bytesAt memory 12 (by decide),
    u8At_bytesAt memory 12 (by decide), u8At_bytesAt memory 12 (by decide), if_neg (not_ne_iff.mpr h.magic)]
  simp only [h.access, beq_self_eq_true]

/-! ### What is presented -/

theorem parseNdefTlvAreaFrom_head {data : Frame} (hlen : data.length ≤ 0xFFFF) :
    ∀ fuel pos, pos ≤ data.length → data.length < fuel + pos →
      ((parseNdefTlvAreaFrom data fuel pos).head? = some m ↔ Tlv.find tlvMessage (data.drop pos) = .value m) := by
  intro fuel
  induction fuel with
  | zero => omega
  | succ fuel ih =>
      intro pos hpos hfuel
      rw [parseNdefTlvAreaFrom]
      by_cases hin : pos < data.length
      swap
      · rw [if_neg hin, show pos = data.length by omega, List.drop_length, Tlv.find_of_finished rfl]
        simp
      rw [if_pos hin]
      have hstep := tlvNext_reports hlen hpos
      revert hstep
      generalize hhead : Tlv.head (data.drop pos) = head
      generalize tlvNext data pos = found
      intro hstep
      cases hstep with
      | finished => simp [Tlv.find_of_finished hhead]
      | terminator => simp [Tlv.find_of_terminator hhead]
      | truncated => simp [Tlv.find_of_truncated hhead]
      | @block tlv next hnext hspan hfits =>
          rw [Tlv.find_of_block hhead]
          show (if tlv.type = tlvMessage then _ else _ : List Frame).head? = some m ↔ _
          by_cases htype : tlv.type = tlvMessage
          · rw [if_pos htype, if_pos htype, List.head?_cons, Option.some.injEq, Tlv.Found.value.injEq]
          · rw [if_neg htype, if_neg htype]
            exact ih next hfits (by omega)

/-- The first message printed is the one a search finds. -/
theorem parseNdefTlvArea_head {data m : Frame} {start : Nat} (hlen : data.length ≤ 0xFFFF)
    (hstart : start ≤ data.length) :
    (parseNdefTlvArea data start).head? = some m ↔ Tlv.find tlvMessage (data.drop start) = .value m := by
  rw [parseNdefTlvArea, if_neg (Nat.not_lt.mpr hstart)]
  exact parseNdefTlvAreaFrom_head hlen _ _ hstart (by omega)

section Presented

variable {memory : Nat → Byte} (base start : Nat) {limit n : Nat} {before field m : Frame}

/-- A buffer presents the message exactly when it reaches the end of the message's TLV. -/
theorem presents_iff (h : Holds memory (base + start) limit before field m) (hn : n ≤ 0xFFFF) (hstart : start ≤ n) :
    (parseNdefTlvArea (bytesAt memory base n) start).head? = some m ↔
      (before ++ (tlvMessage :: field ++ m)).length ≤ n - start := by
  rw [parseNdefTlvArea_head (by rwa [bytesAt_length]) (by rwa [bytesAt_length]), bytesAt_drop]
  constructor
  · intro hfind
    by_contra hshort
    refine h.not_final (Nat.lt_of_not_le hshort) ?_
    rw [hfind]
    trivial
  · exact h.find

/-- The search succeeds exactly then too. -/
theorem finds_iff (h : Holds memory (base + start) limit before field m) (hn : n ≤ 0xFFFF) (hstart : start ≤ n) :
    (findMessageTlv (bytesAt memory base n) start).1 = .ok ↔
      (before ++ (tlvMessage :: field ++ m)).length ≤ n - start := by
  rw [findMessageTlv_status (by rwa [bytesAt_length]) (by rwa [bytesAt_length]), bytesAt_drop]
  constructor
  · intro hok
    by_contra hshort
    have hcut := h.not_final (Nat.lt_of_not_le hshort)
    revert hok hcut
    cases Tlv.find tlvMessage (bytesAt memory (base + start) (n - start)) with
    | value v => exact fun _ hcut => hcut trivial
    | terminated => simp
    | exhausted => simp
    | truncated => simp
  · intro hcovers
    rw [h.find hcovers]

end Presented

/-- A test that holds at some round holds at a first one. -/
theorem exists_first {P : Nat → Prop} [DecidablePred P] {last : Nat} (hlast : 0 < last) (h : P last) :
    ∃ n, 0 < n ∧ n ≤ last ∧ P n ∧ ∀ j, 0 < j → j < n → ¬ P j := by
  have hex : ∃ n, 0 < n ∧ P n := ⟨last, hlast, h⟩
  refine ⟨Nat.find hex, (Nat.find_spec hex).1, Nat.find_min' hex ⟨hlast, h⟩, (Nat.find_spec hex).2, ?_⟩
  intro j hpos hj hholds
  exact Nat.find_min hex hj ⟨hpos, hholds⟩

section Stopping

variable {memory : Nat → Byte} {start stop need n : Nat} (reached : Nat → Nat) {P : Nat → Prop}

/-- Reads that go on until the area is covered up to `stop` or holds the terminator byte: the first such
read covers the area exactly when the byte is not among what the reads before the last needed one bring. -/
theorem first_stop_covers_iff (hmono : Monotone reached) (hstart : reached 0 = 0)
    (hstops : ∀ k, 0 < k → (P k ↔ stop ≤ reached k ∨ tlvTerminator ∈ bytesAt memory start (reached k)))
    (hneed : stop ≤ reached (need + 1)) (hn : 0 < n) (hstop : P n) (hfirst : ∀ j, 0 < j → j < n → ¬ P j)
    (hshort : reached need < stop) :
    stop ≤ reached n ↔ tlvTerminator ∉ bytesAt memory start (reached need) := by
  constructor
  · intro hcovers hterm
    -- the read before the last needed one already has the byte
    obtain hzero | hprior := Nat.eq_zero_or_pos need
    · rw [hzero, hstart] at hterm
      exact List.not_mem_nil hterm
    have hlate : n ≤ need := by
      by_contra hlate
      exact hfirst need hprior (Nat.lt_of_not_le hlate) ((hstops need hprior).mpr (Or.inr hterm))
    have hreached := hmono hlate
    omega
  · intro hclean
    by_contra hopen
    have hearly : n ≤ need := by
      by_contra hlate
      have hreached := hmono (Nat.lt_of_not_le hlate)
      rw [Nat.succ_eq_add_one] at hreached
      omega
    obtain ⟨i, hi, hbyte⟩ := mem_bytesAt.mp (((hstops n hn).mp hstop).resolve_left hopen)
    exact hclean (mem_bytesAt.mpr ⟨i, hi.trans_le (hmono hearly), hbyte⟩)

end Stopping

end NeroReader.Tags
