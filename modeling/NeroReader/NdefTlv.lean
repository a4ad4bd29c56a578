import NeroReader.StorageNdef
import NeroReader.Tlv

/-!
The codec of the NDEF message TLV. A search walks the data area with 16-bit offsets and leaves the span
of the value; a builder puts a message between its type, its length and a terminator. The walker is
connected to the block streams of `Tlv` by `findMessageTlv_spec`: what it reports at an offset is what a
stream search finds in the bytes from there on.
-/

namespace NeroReader.Ndef

open Tlv (Head Found)

def tlvNull : Byte := 0x00
def tlvMessage : Byte := 0x03
def tlvTerminator : Byte := 0xFE
def tlvExtendedLen : Byte := 0xFF
def tlvShortEnvelopeOverhead : Nat := 3
def tlvExtendedEnvelopeOverhead : Nat := 5
def tlvExtendedLenFieldBytes : Nat := 3
def tlvNeedLenClampMax : Nat := 0xFFFF

/-- A conversion to `uint16_t`. -/
def u16 (n : Nat) : Nat := n % 0x10000

theorem u16_of_le {n : Nat} (h : n ≤ 0xFFFF) : u16 n = n := Nat.mod_eq_of_lt (by omega)

def spanOk (offset count cap : Nat) : Bool := offset + count ≤ cap

inductive TlvStatus where
  | ok
  | notFound
  | truncated
  | invalidArg
  | tooLarge
  deriving DecidableEq, Repr

structure NdefTlv where
  type : Byte
  headerOffset : Nat
  valueOffset : Nat
  valueLen : Nat
  deriving DecidableEq, Repr

def NdefTlv.cleared : NdefTlv := ⟨0, 0, 0, 0⟩

/-- The bytes a TLV spans. -/
def NdefTlv.value (tlv : NdefTlv) (data : Frame) : Frame := (data.drop tlv.valueOffset).take tlv.valueLen

/-! ### Walking a data area -/

/-- The length field at `pos` and the offset behind it. -/
def tlvLength (data : Frame) (pos : Nat) : Option (Nat × Nat) :=
  if u8At data pos = tlvExtendedLen then
    if spanOk pos tlvExtendedLenFieldBytes data.length then
      some ((Storage.bigEndian (u8At data (pos + 1)) (u8At data (pos + 2))).toNat,
        u16 (pos + tlvExtendedLenFieldBytes))
    else none
  else some ((u8At data pos).toNat, u16 (pos + 1))

structure NextTlv where
  status : TlvStatus
  tlv : NdefTlv
  next : Nat
  deriving DecidableEq, Repr

/-- The loop of `nfc_ndef_tlv_next`, `fuel` rounds of it. -/
def tlvNextFrom (data : Frame) : Nat → Nat → NextTlv
  | 0, pos => ⟨.notFound, .cleared, pos⟩
  | fuel + 1, start =>
      if start < data.length then
        let pos := u16 (start + 1)
        if u8At data start = tlvNull then tlvNextFrom data fuel pos
        else if u8At data start = tlvTerminator then ⟨.notFound, .cleared, pos⟩
        else if data.length ≤ pos then ⟨.truncated, .cleared, 0⟩
        else
          match tlvLength data pos with
          | none => ⟨.truncated, .cleared, 0⟩
          | some (len, pos) =>
              if data.length < pos + len then ⟨.truncated, .cleared, 0⟩
              else ⟨.ok, ⟨u8At data start, start, pos, len⟩, u16 (pos + len)⟩
      else ⟨.notFound, .cleared, start⟩

/-- `nfc_ndef_tlv_next`. -/
def tlvNext (data : Frame) (start : Nat) : NextTlv :=
  if data.length < start then ⟨.invalidArg, .cleared, 0⟩
  else tlvNextFrom data (data.length + 1) start

/-- The loop of `nfc_ndef_find_message_tlv`, with the TLV it last saw. -/
def findMessageTlvFrom (data : Frame) : Nat → NdefTlv → Nat → TlvStatus × NdefTlv
  | 0, seen, _ => (.notFound, seen)
  | fuel + 1, seen, pos =>
      if pos < data.length then
        let found := tlvNext data pos
        if found.status ≠ .ok then (found.status, found.tlv)
        else if found.tlv.type = tlvMessage then (.ok, found.tlv)
        else findMessageTlvFrom data fuel found.tlv found.next
      else (.notFound, seen)

/-- `nfc_ndef_find_message_tlv`. -/
def findMessageTlv (data : Frame) (start : Nat) : TlvStatus × NdefTlv :=
  if data.length < start then (.invalidArg, .cleared)
  else findMessageTlvFrom data (data.length + 1) .cleared start

/-! ### Building a message TLV -/

/-- `nfc_ndef_tlv_envelope_len`. -/
def tlvEnvelopeLen (ndefLen : Nat) : Nat :=
  ndefLen + if ndefLen < tlvExtendedLen.toNat then tlvShortEnvelopeOverhead else tlvExtendedEnvelopeOverhead

/-- What a builder left: its verdict, the output buffer and the length it reports. -/
structure BuiltTlv where
  ok : Bool
  out : Frame
  outLen : Nat
  deriving DecidableEq, Repr

def storeAt (dst : Frame) (off : Nat) (src : Frame) : Frame :=
  dst.take off ++ src ++ dst.drop (off + src.length)

/-- `nero_nfc_copy_bytes`. -/
def copyBytes (dst : Frame) (off : Nat) (src : Frame) : Option Frame :=
  if spanOk off src.length dst.length then some (storeAt dst off src) else none

def tlvHeader (ndefLen : Nat) : Frame :=
  if ndefLen < tlvExtendedLen.toNat then [tlvMessage, BitVec.ofNat 8 ndefLen]
  else [tlvMessage, tlvExtendedLen, BitVec.ofNat 8 (ndefLen / 256), BitVec.ofNat 8 (ndefLen % 256)]

/-- `nfc_ndef_build_message_tlv` into a buffer whose length is its capacity. -/
def buildMessageTlv (ndef out : Frame) : BuiltTlv :=
  let need := tlvEnvelopeLen ndef.length
  if out.length < need then
    ⟨false, out, if tlvNeedLenClampMax < need then tlvNeedLenClampMax else need⟩
  else
    let header := tlvHeader ndef.length
    let out := storeAt out 0 header
    match if ndef.length ≠ 0 then copyBytes out header.length ndef else some out with
    | none => ⟨false, out, 0⟩
    | some out =>
        let pos := u16 (header.length + ndef.length)
        ⟨true, storeAt out pos [tlvTerminator], u16 (pos + 1)⟩

/-- The bytes a builder wrote. -/
def BuiltTlv.written (b : BuiltTlv) : Frame := b.out.take b.outLen

/-! ### The walker follows the block stream -/

theorem drop_eq_cons {data : Frame} {pos : Nat} (h : pos < data.length) :
    data.drop pos = u8At data pos :: data.drop (pos + 1) := by
  rw [List.drop_eq_getElem_cons h, u8At, List.getD_eq_getElem?_getD, List.getElem?_eq_getElem h, Option.getD_some]

theorem tlvLength_spec {data : Frame} {pos : Nat} (hlen : data.length ≤ 0xFFFF) (hpos : pos < data.length) :
    Tlv.splitLength (data.drop pos) =
      (tlvLength data pos).map fun field => (field.1, data.drop field.2) := by
  rw [drop_eq_cons hpos, Tlv.splitLength, tlvLength]
  by_cases hlong : u8At data pos = tlvExtendedLen
  · rw [if_pos hlong, if_pos (show u8At data pos = Tlv.longForm from hlong)]
    by_cases hspan : pos + 3 ≤ data.length
    · rw [if_pos (show spanOk pos tlvExtendedLenFieldBytes data.length = true from decide_eq_true hspan),
        drop_eq_cons (show pos + 1 < data.length by omega), drop_eq_cons (show pos + 1 + 1 < data.length by omega),
        Option.map_some, u16_of_le (show pos + tlvExtendedLenFieldBytes ≤ 0xFFFF from hspan.trans hlen),
        Storage.bigEndian_toNat]
      rfl
    · rw [if_neg (show ¬ spanOk pos tlvExtendedLenFieldBytes data.length = true by
        rw [spanOk, decide_eq_true_eq]
        exact hspan)]
      have hshort : (data.drop (pos + 1)).length ≤ 1 := by
        rw [List.length_drop]
        omega
      cases hrest : data.drop (pos + 1) with
      | nil => rfl
      | cons first rest =>
          rw [hrest, List.length_cons] at hshort
          obtain rfl := List.eq_nil_of_length_eq_zero (show rest.length = 0 by omega)
          rfl
  · rw [if_neg hlong, if_neg (show ¬ u8At data pos = Tlv.longForm from hlong), Option.map_some,
      u16_of_le (by omega)]

theorem tlvLength_bounds {data : Frame} {pos len behind : Nat} (hlen : data.length ≤ 0xFFFF)
    (hpos : pos < data.length) (h : tlvLength data pos = some (len, behind)) :
    pos < behind ∧ behind ≤ data.length := by
  unfold tlvLength at h
  split at h
  · split at h
    · rename_i hspan
      have hfits : pos + 3 ≤ data.length := of_decide_eq_true hspan
      simp only [Option.some.injEq, Prod.mk.injEq] at h
      obtain ⟨-, rfl⟩ := h
      rw [u16_of_le (show pos + tlvExtendedLenFieldBytes ≤ 0xFFFF from hfits.trans hlen)]
      exact ⟨Nat.lt_add_of_pos_right (by decide), hfits⟩
    · simp at h
  · simp only [Option.some.injEq, Prod.mk.injEq] at h
    obtain ⟨-, rfl⟩ := h
    rw [u16_of_le (by omega)]
    exact ⟨Nat.lt_succ_self pos, hpos⟩

/-- What a step of the walk reports, in terms of the head of the stream it stands at. -/
inductive Reports (data : Frame) (pos : Nat) : Head → NextTlv → Prop where
  | finished {next : Nat} : Reports data pos .finished ⟨.notFound, .cleared, next⟩
  | terminator {next : Nat} : Reports data pos .terminator ⟨.notFound, .cleared, next⟩
  | truncated : Reports data pos .truncated ⟨.truncated, .cleared, 0⟩
  | block {tlv : NdefTlv} {next : Nat} (hnext : pos < next) (hspan : tlv.valueOffset + tlv.valueLen = next)
      (hfits : next ≤ data.length) :
      Reports data pos (.block tlv.type (tlv.value data) (data.drop next)) ⟨.ok, tlv, next⟩

theorem Reports.earlier {data : Frame} {pos : Nat} {head : Head} {found : NextTlv}
    (h : Reports data (pos + 1) head found) : Reports data pos head found := by
  cases h with
  | finished => exact .finished
  | terminator => exact .terminator
  | truncated => exact .truncated
  | block hnext hspan hfits => exact .block (Nat.lt_of_succ_lt hnext) hspan hfits

theorem tlvNextFrom_reports {data : Frame} (hlen : data.length ≤ 0xFFFF) :
    ∀ fuel pos, pos ≤ data.length → data.length < fuel + pos →
      Reports data pos (Tlv.head (data.drop pos)) (tlvNextFrom data fuel pos) := by
  intro fuel
  induction fuel with
  | zero => omega
  | succ fuel ih =>
      intro pos hpos hfuel
      rw [tlvNextFrom]
      by_cases hin : pos < data.length
      swap
      · rw [if_neg hin, show pos = data.length by omega, List.drop_length]
        exact .finished
      rw [if_pos hin, u16_of_le (by omega), drop_eq_cons hin, Tlv.head]
      by_cases hnull : u8At data pos = tlvNull
      · rw [if_pos hnull, if_pos (show u8At data pos = Tlv.nullType from hnull)]
        exact (ih (pos + 1) hin (by omega)).earlier
      rw [if_neg hnull, if_neg (show ¬ u8At data pos = Tlv.nullType from hnull)]
      by_cases hterm : u8At data pos = tlvTerminator
      · rw [if_pos hterm, if_pos (show u8At data pos = Tlv.terminatorType from hterm)]
        exact .terminator
      rw [if_neg hterm, if_neg (show ¬ u8At data pos = Tlv.terminatorType from hterm), Tlv.splitValue]
      by_cases hlast : data.length ≤ pos + 1
      · rw [if_pos hlast, List.drop_eq_nil_of_le hlast]
        exact .truncated
      rw [if_neg hlast, tlvLength_spec hlen (by omega)]
      cases hfield : tlvLength data (pos + 1) with
      | none => exact .truncated
      | some field =>
          obtain ⟨len, behind⟩ := field
          have hbehind := tlvLength_bounds hlen (by omega) hfield
          simp only [Option.map_some, List.length_drop]
          by_cases hvalue : behind + len ≤ data.length
          · rw [if_pos (by omega), if_neg (by omega), u16_of_le (by omega), List.drop_drop]
            have hblock : (⟨u8At data pos, pos, behind, len⟩ : NdefTlv).valueOffset + len = behind + len := rfl
            exact Reports.block (by omega) hblock hvalue
          · rw [if_neg (by omega), if_pos (by omega)]
            exact .truncated

theorem tlvNext_reports {data : Frame} {pos : Nat} (hlen : data.length ≤ 0xFFFF) (hpos : pos ≤ data.length) :
    Reports data pos (Tlv.head (data.drop pos)) (tlvNext data pos) := by
  rw [tlvNext, if_neg (Nat.not_lt.mpr hpos)]
  exact tlvNextFrom_reports hlen _ _ hpos (by omega)

/-- What a search reports, in terms of what a search of the stream finds. -/
inductive Finds (data : Frame) : Found → TlvStatus × NdefTlv → Prop where
  | value {tlv : NdefTlv} (htype : tlv.type = tlvMessage) (hfits : tlv.valueOffset + tlv.valueLen ≤ data.length) :
      Finds data (.value (tlv.value data)) (.ok, tlv)
  | terminated {tlv : NdefTlv} : Finds data .terminated (.notFound, tlv)
  | exhausted {tlv : NdefTlv} : Finds data .exhausted (.notFound, tlv)
  | truncated {tlv : NdefTlv} : Finds data .truncated (.truncated, tlv)

theorem findMessageTlvFrom_spec {data : Frame} (hlen : data.length ≤ 0xFFFF) :
    ∀ fuel seen pos, pos ≤ data.length → data.length < fuel + pos →
      Finds data (Tlv.find tlvMessage (data.drop pos)) (findMessageTlvFrom data fuel seen pos) := by
  intro fuel
  induction fuel with
  | zero => omega
  | succ fuel ih =>
      intro seen pos hpos hfuel
      rw [findMessageTlvFrom]
      by_cases hin : pos < data.length
      swap
      · rw [if_neg hin, show pos = data.length by omega, List.drop_length, Tlv.find_of_finished rfl]
        exact .exhausted
      rw [if_pos hin]
      have hstep := tlvNext_reports hlen hpos
      revert hstep
      generalize hhead : Tlv.head (data.drop pos) = head
      generalize tlvNext data pos = found
      intro hstep
      cases hstep with
      | finished =>
          rw [Tlv.find_of_finished hhead]
          exact .exhausted
      | terminator =>
          rw [Tlv.find_of_terminator hhead]
          exact .terminated
      | truncated =>
          rw [Tlv.find_of_truncated hhead]
          exact .truncated
      | @block tlv next hnext hspan hfits =>
          rw [Tlv.find_of_block hhead]
          show Finds data _ (if tlv.type = tlvMessage then _ else _)
          by_cases htype : tlv.type = tlvMessage
          · rw [if_pos htype, if_pos htype]
            exact .value htype (hspan.trans_le hfits)
          · rw [if_neg htype, if_neg htype]
            exact ih tlv next hfits (by omega)

/-- **The search reports what the stream holds.** -/
theorem findMessageTlv_spec {data : Frame} {start : Nat} (hlen : data.length ≤ 0xFFFF)
    (hstart : start ≤ data.length) :
    Finds data (Tlv.find tlvMessage (data.drop start)) (findMessageTlv data start) := by
  rw [findMessageTlv, if_neg (Nat.not_lt.mpr hstart)]
  exact findMessageTlvFrom_spec hlen _ _ _ hstart (by omega)

theorem findMessageTlv_ok {data m : Frame} {start : Nat} (hlen : data.length ≤ 0xFFFF)
    (hstart : start ≤ data.length) (hfind : Tlv.find tlvMessage (data.drop start) = .value m) :
    ∃ tlv, findMessageTlv data start = (.ok, tlv) ∧ tlv.type = tlvMessage ∧
      tlv.valueOffset + tlv.valueLen ≤ data.length ∧ tlv.value data = m := by
  have hspec := findMessageTlv_spec hlen hstart
  rw [hfind] at hspec
  revert hspec
  generalize hresult : findMessageTlv data start = result
  intro hspec
  cases hspec with
  | @value tlv htype hfits => exact ⟨tlv, rfl, htype, hfits, rfl⟩

theorem findMessageTlv_status {data : Frame} {start : Nat} (hlen : data.length ≤ 0xFFFF)
    (hstart : start ≤ data.length) :
    (findMessageTlv data start).1 =
      match Tlv.find tlvMessage (data.drop start) with
      | .value _ => .ok
      | .terminated | .exhausted => .notFound
      | .truncated => .truncated := by
  have hspec := findMessageTlv_spec hlen hstart
  revert hspec
  generalize Tlv.find tlvMessage (data.drop start) = found
  generalize findMessageTlv data start = result
  intro hspec
  cases hspec <;> rfl

/-! ### Messages in memories -/

/-- The `len` bytes of a memory from `off` on. -/
def bytesAt (memory : Nat → Byte) (off len : Nat) : Frame := (List.range len).map fun i => memory (off + i)

@[simp] theorem bytesAt_length (memory : Nat → Byte) (off len : Nat) : (bytesAt memory off len).length = len := by
  simp only [bytesAt, List.length_map, List.length_range]

@[simp] theorem bytesAt_zero (memory : Nat → Byte) (off : Nat) : bytesAt memory off 0 = [] := rfl

theorem bytesAt_append (memory : Nat → Byte) (off n k : Nat) :
    bytesAt memory off n ++ bytesAt memory (off + n) k = bytesAt memory off (n + k) := by
  simp only [bytesAt, List.range_add, List.map_append, List.map_map]
  congr 1
  exact List.map_congr_left fun i _ => congrArg memory (Nat.add_assoc off n i)

theorem bytesAt_take (memory : Nat → Byte) (off : Nat) {n k : Nat} (h : k ≤ n) :
    (bytesAt memory off n).take k = bytesAt memory off k := by
  rw [← Nat.add_sub_cancel' h, ← bytesAt_append]
  exact List.take_left' (bytesAt_length memory off k)

theorem bytesAt_drop (memory : Nat → Byte) (off n k : Nat) :
    (bytesAt memory off n).drop k = bytesAt memory (off + k) (n - k) := by
  by_cases h : k ≤ n
  · have hsplit : bytesAt memory off n = bytesAt memory off k ++ bytesAt memory (off + k) (n - k) := by
      rw [bytesAt_append, Nat.add_sub_cancel' h]
    rw [hsplit]
    exact List.drop_left' (bytesAt_length memory off k)
  · rw [Nat.sub_eq_zero_of_le (Nat.le_of_not_le h), bytesAt_zero]
    exact List.drop_eq_nil_of_le ((bytesAt_length memory off n).trans_le (Nat.le_of_not_le h))

theorem u8At_bytesAt (memory : Nat → Byte) (off : Nat) {len i : Nat} (h : i < len) :
    u8At (bytesAt memory off len) i = memory (off + i) := by
  simp only [u8At, bytesAt, List.getD_eq_getElem?_getD, List.getElem?_map, List.getElem?_range h,
    Option.map_some, Option.getD_some]

theorem mem_bytesAt {memory : Nat → Byte} {off len : Nat} {b : Byte} :
    b ∈ bytesAt memory off len ↔ ∃ i < len, memory (off + i) = b := by
  simp only [bytesAt, List.mem_map, List.mem_range]

theorem bytesAt_eq_append {memory : Nat → Byte} {off : Nat} {first second : Frame}
    (h : bytesAt memory off (first ++ second).length = first ++ second) :
    bytesAt memory off first.length = first ∧ bytesAt memory (off + first.length) second.length = second := by
  rw [List.length_append, ← bytesAt_append] at h
  exact List.append_inj h (bytesAt_length memory off first.length)

theorem bytesAt_eq_cons {memory : Nat → Byte} {off : Nat} {first : Byte} {rest : Frame}
    (h : bytesAt memory off (first :: rest).length = first :: rest) :
    memory off = first ∧ bytesAt memory (off + 1) rest.length = rest := by
  obtain ⟨hfirst, hrest⟩ :=
    bytesAt_eq_append (show bytesAt memory off ([first] ++ rest).length = [first] ++ rest from h)
  exact ⟨(List.cons.inj hfirst).1, hrest⟩

/-- A memory that holds the given bytes from `off` on, and zeros. -/
def memoryOf (off : Nat) (bytes : Frame) (address : Nat) : Byte :=
  if address < off then 0 else u8At bytes (address - off)

theorem memoryOf_ne {off : Nat} {bytes : Frame} {b : Byte} (hzero : b ≠ 0) (h : b ∉ bytes) (address : Nat) :
    memoryOf off bytes address ≠ b := by
  rw [memoryOf]
  split
  · exact hzero.symm
  · rw [u8At, List.getD_eq_getElem?_getD]
    cases hget : bytes[address - off]? with
    | none => exact hzero.symm
    | some found =>
        rintro rfl
        exact h (List.mem_of_getElem? hget)

/-- The area from `start` on, `limit` bytes long, holds the message `m` in a complete TLV with the length
field `field`, behind nothing but null bytes and complete TLVs of other types. -/
structure Holds (memory : Nat → Byte) (start limit : Nat) (before field m : Frame) : Prop where
  foreign : Tlv.Foreign tlvMessage before
  lengthField : Tlv.LengthField field m.length
  bytes : bytesAt memory start (before ++ (tlvMessage :: field ++ m)).length = before ++ (tlvMessage :: field ++ m)
  fits : (before ++ (tlvMessage :: field ++ m)).length ≤ limit

namespace Holds

variable {memory : Nat → Byte} {start limit n : Nat} {before field m : Frame}

/-- Any read that reaches the end of the TLV finds the message. -/
theorem find (h : Holds memory start limit before field m)
    (hn : (before ++ (tlvMessage :: field ++ m)).length ≤ n) :
    Tlv.find tlvMessage (bytesAt memory start n) = .value m := by
  rw [← Nat.add_sub_cancel' hn, ← bytesAt_append, h.bytes, List.append_assoc, Tlv.find_foreign h.foreign]
  exact Tlv.find_block (by decide) (by decide) h.lengthField _

/-- No shorter read finds anything. -/
theorem not_final (h : Holds memory start limit before field m)
    (hn : n < (before ++ (tlvMessage :: field ++ m)).length) :
    ¬ (Tlv.find tlvMessage (bytesAt memory start n)).Final := by
  rw [← bytesAt_take memory start (Nat.le_of_lt hn), h.bytes]
  exact Tlv.not_final_take (by decide) (by decide) h.foreign h.lengthField n hn

end Holds

/-! ### What the builder writes -/

/-- The TLV of a message, with the terminator that the builder puts behind it. -/
def messageTlv (m : Frame) : Frame := tlvHeader m.length ++ m ++ [tlvTerminator]

theorem tlvHeader_length (n : Nat) : (tlvHeader n).length + n + 1 = tlvEnvelopeLen n := by
  unfold tlvHeader tlvEnvelopeLen
  split
  · simp only [List.length_cons, List.length_nil, tlvShortEnvelopeOverhead]
    omega
  · simp only [List.length_cons, List.length_nil, tlvExtendedEnvelopeOverhead]
    omega

theorem messageTlv_length (m : Frame) : (messageTlv m).length = tlvEnvelopeLen m.length := by
  rw [messageTlv, List.length_append, List.length_append, List.length_singleton, tlvHeader_length]

theorem storeAt_append (before src rest : Frame) :
    storeAt (before ++ rest) before.length src = before ++ src ++ rest.drop src.length := by
  rw [storeAt, List.take_left, List.drop_append, List.drop_eq_nil_of_le (Nat.le_add_right _ _),
    List.nil_append, Nat.add_sub_cancel_left]

/-- A message that fits is written whole, and nothing behind it is touched. -/
theorem buildMessageTlv_of_fits {m out : Frame} (hcap : out.length ≤ 0xFFFF)
    (hfits : tlvEnvelopeLen m.length ≤ out.length) :
    buildMessageTlv m out =
      ⟨true, messageTlv m ++ out.drop (tlvEnvelopeLen m.length), tlvEnvelopeLen m.length⟩ := by
  have hlen := tlvHeader_length m.length
  have hheader : storeAt out 0 (tlvHeader m.length) = tlvHeader m.length ++ out.drop (tlvHeader m.length).length :=
    storeAt_append [] (tlvHeader m.length) out
  have hcopy : (if m.length ≠ 0 then
      copyBytes (storeAt out 0 (tlvHeader m.length)) (tlvHeader m.length).length m
      else some (storeAt out 0 (tlvHeader m.length))) =
      some (tlvHeader m.length ++ m ++ (out.drop (tlvHeader m.length).length).drop m.length) := by
    rw [hheader]
    split
    · have hspan : spanOk (tlvHeader m.length).length m.length
          (tlvHeader m.length ++ out.drop (tlvHeader m.length).length).length = true := by
        rw [spanOk, decide_eq_true_eq, List.length_append, List.length_drop]
        omega
      rw [copyBytes, if_pos hspan, storeAt_append]
    · rename_i hzero
      rw [not_ne_iff, List.length_eq_zero_iff] at hzero
      subst hzero
      simp only [List.append_nil, List.length_nil, List.drop_zero]
  have hterminator : storeAt (tlvHeader m.length ++ m ++ (out.drop (tlvHeader m.length).length).drop m.length)
      ((tlvHeader m.length).length + m.length) [tlvTerminator] =
      messageTlv m ++ out.drop (tlvEnvelopeLen m.length) := by
    rw [← List.length_append, storeAt_append, List.drop_drop, List.drop_drop, List.length_singleton,
      ← Nat.add_assoc, hlen]
    rfl
  unfold buildMessageTlv
  simp only [if_neg (Nat.not_lt.mpr hfits), hcopy,
    u16_of_le (show (tlvHeader m.length).length + m.length ≤ 0xFFFF by omega),
    hterminator, hlen, u16_of_le (hfits.trans hcap)]

/-- What a builder that succeeded has written. -/
theorem buildMessageTlv_ok {m out : Frame} (hcap : out.length ≤ 0xFFFF) (h : (buildMessageTlv m out).ok = true) :
    tlvEnvelopeLen m.length ≤ out.length ∧ (buildMessageTlv m out).written = messageTlv m ∧
      (buildMessageTlv m out).outLen = tlvEnvelopeLen m.length := by
  have hfits : tlvEnvelopeLen m.length ≤ out.length := by
    by_contra hnot
    unfold buildMessageTlv at h
    rw [if_pos (Nat.lt_of_not_le hnot)] at h
    exact absurd h (by simp)
  rw [buildMessageTlv_of_fits hcap hfits]
  exact ⟨hfits, List.take_left' (messageTlv_length m), rfl⟩

theorem tlvHeader_field {m : Frame} (h : m.length ≤ 0xFFFF) :
    ∃ field, Tlv.LengthField field m.length ∧ tlvHeader m.length = tlvMessage :: field := by
  unfold tlvHeader
  split
  · rename_i hshort
    have hn : (BitVec.ofNat 8 m.length).toNat = m.length := Nat.mod_eq_of_lt (hshort.trans (by decide))
    have hne : BitVec.ofNat 8 m.length ≠ Tlv.longForm := by
      intro hlong
      rw [← hn, hlong] at hshort
      exact absurd hshort (by decide)
    have hfield := Tlv.LengthField.short hne
    rw [hn] at hfield
    exact ⟨_, hfield, rfl⟩
  · have hn : 256 * (BitVec.ofNat 8 (m.length / 256)).toNat + (BitVec.ofNat 8 (m.length % 256)).toNat =
        m.length := by
      rw [BitVec.toNat_ofNat, BitVec.toNat_ofNat]
      omega
    have hfield := Tlv.LengthField.long (BitVec.ofNat 8 (m.length / 256)) (BitVec.ofNat 8 (m.length % 256))
    rw [hn] at hfield
    exact ⟨_, hfield, rfl⟩

/-- **Message TLV codec.** A buffer of any capacity takes the message exactly when its envelope fits, and
then holds that many new bytes; behind null bytes and complete foreign TLVs, and before any other bytes,
a search finds the message again. -/
theorem message_tlv_codec (m out : Frame) (hm : m.length ≤ 0xFFFF) (hcap : out.length ≤ 0xFFFF) :
    ((buildMessageTlv m out).ok = true ↔ tlvEnvelopeLen m.length ≤ out.length) ∧
    ((buildMessageTlv m out).ok = true →
      (buildMessageTlv m out).outLen = tlvEnvelopeLen m.length ∧
      (buildMessageTlv m out).written.length = tlvEnvelopeLen m.length ∧
      (buildMessageTlv m out).out = (buildMessageTlv m out).written ++ out.drop (tlvEnvelopeLen m.length) ∧
      ∀ before behind, Tlv.Foreign tlvMessage before →
        (before ++ (buildMessageTlv m out).written ++ behind).length ≤ 0xFFFF →
        ∃ tlv, findMessageTlv (before ++ (buildMessageTlv m out).written ++ behind) 0 = (.ok, tlv) ∧
          tlv.type = tlvMessage ∧ tlv.valueLen = m.length ∧
          tlv.value (before ++ (buildMessageTlv m out).written ++ behind) = m) := by
  by_cases hfits : tlvEnvelopeLen m.length ≤ out.length
  swap
  · have hrefused : (buildMessageTlv m out).ok = false := by
      unfold buildMessageTlv
      simp only [if_pos (Nat.not_le.mp hfits)]
    rw [hrefused]
    simp [hfits]
  have hwritten : (buildMessageTlv m out).written = messageTlv m := by
    rw [buildMessageTlv_of_fits hcap hfits]
    exact List.take_left' (messageTlv_length m)
  rw [hwritten]
  refine ⟨⟨fun _ => hfits, fun _ => by rw [buildMessageTlv_of_fits hcap hfits]⟩, fun _ => ⟨?_, ?_, ?_, ?_⟩⟩
  · rw [buildMessageTlv_of_fits hcap hfits]
  · exact messageTlv_length m
  · rw [buildMessageTlv_of_fits hcap hfits]
  · intro before behind hforeign hlen
    obtain ⟨field, hfield, hheader⟩ := tlvHeader_field hm
    have hfind : Tlv.find tlvMessage ((before ++ messageTlv m ++ behind).drop 0) = .value m := by
      rw [List.drop_zero, List.append_assoc, Tlv.find_foreign hforeign, messageTlv, hheader, List.append_assoc]
      exact Tlv.find_block (by decide) (by decide) hfield _
    obtain ⟨tlv, hok, htype, hspan, hvalue⟩ := findMessageTlv_ok hlen (Nat.zero_le _) hfind
    refine ⟨tlv, hok, htype, ?_, hvalue⟩
    have hcount := congrArg List.length hvalue
    rw [NdefTlv.value, List.length_take, List.length_drop] at hcount
    omega

/-- A two-byte message built into six bytes of room. -/
theorem message_tlv_codec_pair :
    let m : Frame := [0xD0, 0x00]
    let out : Frame := List.replicate 6 0
    (m.length ≤ 0xFFFF ∧ out.length ≤ 0xFFFF) ∧
    ((buildMessageTlv m out).ok = true ↔ tlvEnvelopeLen m.length ≤ out.length) ∧
    ∃ tlv, findMessageTlv ([0x00] ++ (buildMessageTlv m out).written ++ [0x55]) 0 = (.ok, tlv) ∧
      tlv.type = tlvMessage ∧ tlv.valueLen = m.length ∧
      tlv.value ([0x00] ++ (buildMessageTlv m out).written ++ [0x55]) = m := by
  have h := message_tlv_codec [0xD0, 0x00] (List.replicate 6 0) (by decide) (by decide)
  exact ⟨by decide, h.1, (h.2 (by decide)).2.2.2 [0x00] [0x55] (.null .nil) (by decide)⟩

end NeroReader.Ndef
