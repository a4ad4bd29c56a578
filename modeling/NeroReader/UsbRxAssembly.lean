import Mathlib.Data.List.Forall2
import NeroReader.CcidCodec
import NeroReader.NdefTlv

/-!
Reassembly of CCID frames from bulk OUT packets. The assembler stops at the length the frame declares;
a transfer that disagrees with its own length field is drained to the packet that ends it and then
handed on, so that the frame check can refuse it under its sequence number.
-/

namespace NeroReader.Usb

open IsoDep
open Ccid (bulkHeaderLen maxXfrPayload workBufSize u32LoadLe dwLength bulkFrameValidate)
open Ndef (copyBytes storeAt spanOk)

inductive FeedResult where
  | more
  | ready
  | dropped
  deriving DecidableEq, Repr

/-- `ccid_usb_rx_assembly_t`. The buffer keeps the bytes of earlier frames behind `len`. -/
structure RxAssembly where
  data : Frame
  len : Nat
  expected : Nat
  discardingMalformed : Bool
  data_length : data.length = workBufSize

namespace RxAssembly

/-- `data[0..len)`. -/
def frame (s : RxAssembly) : Frame := s.data.take s.len

def reset (s : RxAssembly) : RxAssembly := { s with len := 0, expected := 0, discardingMalformed := false }

end RxAssembly

theorem copyBytes_length {dst src out : Frame} {off : Nat} (h : copyBytes dst off src = some out) :
    out.length = dst.length := by
  simp only [copyBytes, spanOk, Option.ite_none_right_eq_some, Option.some.injEq, decide_eq_true_eq] at h
  obtain ⟨hspan, rfl⟩ := h
  simp only [storeAt, List.length_append, List.length_take, List.length_drop]
  omega

/-- The packet behind the bytes collected so far, when the buffer holds it. -/
def RxAssembly.append (s : RxAssembly) (packet : Frame) : Option RxAssembly :=
  match h : copyBytes s.data s.len packet with
  | none => none
  | some data =>
      some { s with data, len := s.len + packet.length, data_length := (copyBytes_length h).trans s.data_length }

/-- The length the frame declares, once its header is there. -/
def RxAssembly.readDeclared (s : RxAssembly) : Option RxAssembly :=
  if s.expected = 0 ∧ bulkHeaderLen ≤ s.len then
    let payloadLen := u32LoadLe s.data 1
    if maxXfrPayload < payloadLen ∨ workBufSize < bulkHeaderLen + payloadLen then none
    else some { s with expected := bulkHeaderLen + payloadLen }
  else some s

def malformedResult (s : RxAssembly) (packetLen endpointSize : Nat) : FeedResult × RxAssembly :=
  if s.len < bulkHeaderLen then (.dropped, s.reset)
  else if packetLen < endpointSize then (.ready, s)
  else (.more, { s with discardingMalformed := true })

/-- `ccid_usb_rx_assembly_feed`. -/
def feed (s : RxAssembly) (packet : Frame) (endpointSize : Nat) : FeedResult × RxAssembly :=
  if endpointSize = 0 ∨ endpointSize < packet.length then (.dropped, s.reset)
  else if s.discardingMalformed then malformedResult s packet.length endpointSize
  else if packet.length = 0 then malformedResult s packet.length endpointSize
  else
    match s.append packet with
    | none => malformedResult s packet.length endpointSize
    | some s =>
        match s.readDeclared with
        | none => malformedResult s packet.length endpointSize
        | some s =>
            if s.expected ≠ 0 ∧ s.expected < s.len then malformedResult s packet.length endpointSize
            else if s.expected ≠ 0 ∧ s.len = s.expected then (.ready, s)
            else if packet.length < endpointSize then malformedResult s packet.length endpointSize
            else (.more, s)

/-- A packet as `queue_rx_packet` takes it: the frame that is ready goes out, and the assembler is reset
behind it before the endpoint is armed again. -/
def receivePacket (endpointSize : Nat) (s : RxAssembly) (packet : Frame) : List Frame × RxAssembly :=
  match feed s packet endpointSize with
  | (.ready, s) => ([s.frame], s.reset)
  | (_, s) => ([], s)

/-- The frames that go out over a sequence of packets. -/
def receive (endpointSize : Nat) (s : RxAssembly) : List Frame → List Frame × RxAssembly
  | [] => ([], s)
  | packet :: packets =>
      let now := receivePacket endpointSize s packet
      let later := receive endpointSize now.2 packets
      (now.1 ++ later.1, later.2)

/-! ### Transfers -/

/-- A bulk OUT transfer as the host cuts it: full packets, and a shorter or empty one behind them unless
the transfer is left open at a full packet. -/
structure Transfer (endpointSize : Nat) where
  full : List Frame
  last : Option Frame
  full_length : ∀ packet ∈ full, packet.length = endpointSize
  last_length : ∀ packet ∈ last, packet.length < endpointSize

variable {endpointSize : Nat}

namespace Transfer

def packets (t : Transfer endpointSize) : List Frame := t.full ++ t.last.toList

def bytes (t : Transfer endpointSize) : Frame := t.packets.flatten

/-- A CCID frame as long as it declares, with or without an empty packet behind it. -/
def WellFormed (t : Transfer endpointSize) : Prop :=
  bulkHeaderLen ≤ t.bytes.length ∧ dwLength t.bytes ≤ maxXfrPayload ∧
    t.bytes.length = bulkHeaderLen + dwLength t.bytes

/-- A transfer that is not as long as it declares, ended by a short or an empty packet, whose declared
frame does not end where one of its packets does. -/
def Malformed (t : Transfer endpointSize) : Prop :=
  bulkHeaderLen ≤ t.bytes.length ∧ ¬ t.WellFormed ∧ t.last.isSome ∧
    ¬ (bulkHeaderLen + dwLength t.bytes < t.bytes.length ∧ endpointSize ∣ bulkHeaderLen + dwLength t.bytes)

end Transfer

/-! ### One packet -/

/-- Ready for the first packet of a transfer. -/
structure Idle (s : RxAssembly) : Prop where
  len_eq : s.len = 0
  expected_eq : s.expected = 0
  discarding_eq : s.discardingMalformed = false

/-- `bytes` of a transfer are collected, and its declared length is not reached. -/
structure Collected (s : RxAssembly) (bytes : Frame) : Prop where
  frame_eq : s.frame = bytes
  len_eq : s.len = bytes.length
  discarding_eq : s.discardingMalformed = false
  expected_eq : bytes = [] ∧ s.expected = 0 ∨
    bulkHeaderLen ≤ bytes.length ∧ dwLength bytes ≤ maxXfrPayload ∧
      s.expected = bulkHeaderLen + dwLength bytes ∧ bytes.length < s.expected

/-- The rest of a transfer is skipped; `bytes` of it are kept. -/
structure Draining (s : RxAssembly) (bytes : Frame) : Prop where
  frame_eq : s.frame = bytes
  len_ge : bulkHeaderLen ≤ s.len
  discarding_eq : s.discardingMalformed = true

theorem idle_reset (s : RxAssembly) : Idle s.reset := ⟨rfl, rfl, rfl⟩

theorem Idle.collected {s : RxAssembly} (h : Idle s) : Collected s [] where
  frame_eq := by rw [RxAssembly.frame, h.len_eq, List.take_zero]
  len_eq := h.len_eq
  discarding_eq := h.discarding_eq
  expected_eq := .inl ⟨rfl, h.expected_eq⟩

/-- The length field lies in the first bytes of a frame. -/
theorem dwLength_front {xs ys : Frame} (hfront : xs <+: ys) (hlen : bulkHeaderLen ≤ xs.length) :
    dwLength xs = dwLength ys := by
  obtain ⟨rest, rfl⟩ := hfront
  simp only [bulkHeaderLen] at hlen
  simp only [dwLength, u32LoadLe]
  rw [u8At_append_left xs rest (by omega), u8At_append_left xs rest (by omega),
    u8At_append_left xs rest (by omega), u8At_append_left xs rest (by omega)]

theorem frame_front (s : RxAssembly) : s.frame <+: s.data := List.take_prefix _ _

/-- A packet that fits is laid behind what is there. -/
theorem append_of_fits {s : RxAssembly} {bytes packet : Frame} (hframe : s.frame = bytes)
    (hlen : s.len = bytes.length) (hfits : (bytes ++ packet).length ≤ workBufSize) :
    ∃ s', s.append packet = some s' ∧ s'.frame = bytes ++ packet ∧ s'.len = (bytes ++ packet).length ∧
      s'.expected = s.expected ∧ s'.discardingMalformed = s.discardingMalformed := by
  rw [List.length_append, ← hlen] at hfits
  have hcopy : copyBytes s.data s.len packet = some (storeAt s.data s.len packet) := by
    rw [copyBytes, if_pos]
    simpa only [spanOk, decide_eq_true_eq, s.data_length] using hfits
  have hstored : (storeAt s.data s.len packet).take (s.len + packet.length) = bytes ++ packet := by
    have htake : s.data.take s.len = bytes := hframe
    rw [storeAt, htake, hlen, ← List.length_append, List.take_left]
  rw [RxAssembly.append]
  split
  · rename_i hnone
    exact absurd (hcopy.symm.trans hnone) (by simp)
  · rename_i data hsome
    obtain rfl : storeAt s.data s.len packet = data := Option.some.inj (hcopy.symm.trans hsome)
    refine ⟨_, rfl, hstored, ?_, rfl, rfl⟩
    rw [List.length_append, ← hlen]

theorem append_of_not_fits {s : RxAssembly} {packet : Frame} (hfull : workBufSize < s.len + packet.length) :
    s.append packet = none := by
  have hcopy : copyBytes s.data s.len packet = none := by
    rw [copyBytes, if_neg]
    simpa only [spanOk, decide_eq_true_eq, s.data_length, Nat.not_le] using hfull
  rw [RxAssembly.append]
  split
  · rfl
  · rename_i data hsome
    exact absurd (hcopy.symm.trans hsome) (by simp)

/-- What a malformed transfer leaves behind a packet: the bytes kept so far, handed on at the packet
that ends it. -/
def Gives (endpointSize : Nat) (packet kept : Frame) (out : FeedResult × RxAssembly) : Prop :=
  packet.length < endpointSize ∧ out.1 = .ready ∧ out.2.frame = kept ∨
    endpointSize ≤ packet.length ∧ out.1 = .more ∧ Draining out.2 kept

theorem malformedResult_gives {s : RxAssembly} {packet : Frame} (endpointSize : Nat)
    (hlen : bulkHeaderLen ≤ s.len) :
    Gives endpointSize packet s.frame (malformedResult s packet.length endpointSize) := by
  rw [malformedResult, if_neg (Nat.not_lt.mpr hlen)]
  by_cases hshort : packet.length < endpointSize
  · rw [if_pos hshort]
    exact .inl ⟨hshort, rfl, rfl⟩
  · rw [if_neg hshort]
    exact .inr ⟨Nat.not_lt.mp hshort, rfl, rfl, hlen, rfl⟩

theorem loadLe_data (s : RxAssembly) (hlen : bulkHeaderLen ≤ s.frame.length) :
    u32LoadLe s.data 1 = dwLength s.frame := (dwLength_front (frame_front s) hlen).symm

/-- The declared length is known behind the header. -/
theorem readDeclared_of_le {s : RxAssembly} (hlen : bulkHeaderLen ≤ s.frame.length)
    (hdw : dwLength s.frame ≤ maxXfrPayload)
    (hexpected : s.expected = 0 ∨ s.expected = bulkHeaderLen + dwLength s.frame) :
    s.readDeclared = some { s with expected := bulkHeaderLen + dwLength s.frame } := by
  have hhead : bulkHeaderLen ≤ s.len := hlen.trans (by simp [RxAssembly.frame])
  rw [RxAssembly.readDeclared]
  by_cases hzero : s.expected = 0
  · rw [if_pos ⟨hzero, hhead⟩, loadLe_data s hlen]
    refine if_neg ?_
    simp only [maxXfrPayload, workBufSize, bulkHeaderLen] at hdw ⊢
    omega
  · rw [if_neg (fun h => hzero h.1), ← hexpected.resolve_left hzero]

theorem readDeclared_of_gt {s : RxAssembly} (hlen : bulkHeaderLen ≤ s.frame.length)
    (hdw : maxXfrPayload < dwLength s.frame) (hexpected : s.expected = 0) : s.readDeclared = none := by
  have hhead : bulkHeaderLen ≤ s.len := hlen.trans (by simp [RxAssembly.frame])
  rw [RxAssembly.readDeclared, if_pos ⟨hexpected, hhead⟩, loadLe_data s hlen]
  exact if_pos (.inl hdw)

section Step

variable {s : RxAssembly} {bytes packet : Frame}

theorem feed_of_collected (hs : Collected s bytes) (hpos : packet ≠ []) (hle : packet.length ≤ endpointSize) :
    feed s packet endpointSize =
      match s.append packet with
      | none => malformedResult s packet.length endpointSize
      | some s =>
          match s.readDeclared with
          | none => malformedResult s packet.length endpointSize
          | some s =>
              if s.expected ≠ 0 ∧ s.expected < s.len then malformedResult s packet.length endpointSize
              else if s.expected ≠ 0 ∧ s.len = s.expected then (.ready, s)
              else if packet.length < endpointSize then malformedResult s packet.length endpointSize
              else (.more, s) := by
  have hlength : 0 < packet.length := List.length_pos_iff.mpr hpos
  rw [feed, if_neg (by omega), hs.discarding_eq, if_neg Bool.false_ne_true, if_neg (by omega)]

/-- What is known of the declared length does not change with the next packet. -/
theorem Collected.expected_cases (hs : Collected s bytes) :
    s.expected = 0 ∨ s.expected = bulkHeaderLen + dwLength (bytes ++ packet) := by
  rcases hs.expected_eq with ⟨-, hzero⟩ | ⟨hlen, -, hexpected, -⟩
  · exact .inl hzero
  · exact .inr (hexpected.trans (by rw [dwLength_front (List.prefix_append bytes packet) hlen]))

/-- A packet that the buffer holds, of a frame with a permitted length field. -/
theorem feed_of_declared (hs : Collected s bytes) (hpos : packet ≠ []) (hle : packet.length ≤ endpointSize)
    (hhead : bulkHeaderLen ≤ (bytes ++ packet).length) (hfits : (bytes ++ packet).length ≤ workBufSize)
    (hdw : dwLength (bytes ++ packet) ≤ maxXfrPayload) :
    ∃ s' : RxAssembly, s'.frame = bytes ++ packet ∧ s'.len = (bytes ++ packet).length ∧
      s'.discardingMalformed = false ∧ s'.expected = bulkHeaderLen + dwLength (bytes ++ packet) ∧
      feed s packet endpointSize =
        if s'.expected < s'.len then malformedResult s' packet.length endpointSize
        else if s'.len = s'.expected then (.ready, s')
        else if packet.length < endpointSize then malformedResult s' packet.length endpointSize
        else (.more, s') := by
  obtain ⟨t, happend, hframe, hlen, hexpected, hdiscarding⟩ := append_of_fits hs.frame_eq hs.len_eq hfits
  have hread := readDeclared_of_le (s := t) (by rw [hframe]; exact hhead) (by rw [hframe]; exact hdw)
    (by rw [hframe, hexpected]; exact hs.expected_cases)
  rw [hframe] at hread
  refine ⟨{ t with expected := bulkHeaderLen + dwLength (bytes ++ packet) }, hframe, hlen,
    hdiscarding.trans hs.discarding_eq, rfl, ?_⟩
  have hne : bulkHeaderLen + dwLength (bytes ++ packet) ≠ 0 := by simp only [bulkHeaderLen]; omega
  rw [feed_of_collected hs hpos hle, happend]
  dsimp only
  rw [hread]
  simp only [hne, ne_eq, not_false_eq_true, true_and]

/-- The packet that brings the last declared byte completes the frame. -/
theorem feed_complete (hs : Collected s bytes) (hpos : packet ≠ []) (hle : packet.length ≤ endpointSize)
    (hdw : dwLength (bytes ++ packet) ≤ maxXfrPayload)
    (hlen : (bytes ++ packet).length = bulkHeaderLen + dwLength (bytes ++ packet)) :
    ∃ s', s'.frame = bytes ++ packet ∧ feed s packet endpointSize = (.ready, s') := by
  have hfits : (bytes ++ packet).length ≤ workBufSize := by
    simp only [bulkHeaderLen, workBufSize, maxXfrPayload] at hlen hdw ⊢
    omega
  obtain ⟨s', hframe, hlen', -, hexpected, hfeed⟩ := feed_of_declared hs hpos hle (by omega) hfits hdw
  refine ⟨s', hframe, hfeed.trans ?_⟩
  rw [if_neg (by omega), if_pos (by omega)]

/-- A full packet short of the declared length is collected. -/
theorem feed_partial (hs : Collected s bytes) (hpos : packet ≠ []) (hfull : packet.length = endpointSize)
    (hhead : bulkHeaderLen ≤ (bytes ++ packet).length) (hdw : dwLength (bytes ++ packet) ≤ maxXfrPayload)
    (hlen : (bytes ++ packet).length < bulkHeaderLen + dwLength (bytes ++ packet)) :
    ∃ s', Collected s' (bytes ++ packet) ∧ feed s packet endpointSize = (.more, s') := by
  have hfits : (bytes ++ packet).length ≤ workBufSize := by
    simp only [bulkHeaderLen, workBufSize, maxXfrPayload] at hlen hdw ⊢
    omega
  obtain ⟨s', hframe, hlen', hdiscarding, hexpected, hfeed⟩ :=
    feed_of_declared hs hpos hfull.le hhead hfits hdw
  refine ⟨s', ⟨hframe, hlen', hdiscarding, .inr ⟨hhead, hdw, hexpected, by omega⟩⟩, hfeed.trans ?_⟩
  rw [if_neg (by omega), if_neg (by omega), if_neg (by omega)]

theorem bulkFrameValidate_eq_none {frame : Frame}
    (h : maxXfrPayload < dwLength frame ∨ frame.length ≠ bulkHeaderLen + dwLength frame) :
    bulkFrameValidate frame = none := by
  rw [bulkFrameValidate]
  by_cases hshort : frame.length < bulkHeaderLen
  · exact if_pos hshort
  · rw [if_neg hshort]
    by_cases hlarge : maxXfrPayload < dwLength frame
    · exact if_pos hlarge
    · rw [if_neg hlarge, if_pos (h.resolve_left hlarge).symm]

/-- What is collected is short of its declared length. -/
theorem Collected.not_valid (hs : Collected s bytes) (hne : bytes ≠ []) : bulkFrameValidate bytes = none := by
  rcases hs.expected_eq with ⟨hnil, -⟩ | ⟨-, -, hexpected, hlt⟩
  · exact absurd hnil hne
  · exact bulkFrameValidate_eq_none (.inr (by omega))

theorem Collected.len_ge (hs : Collected s bytes) (hne : bytes ≠ []) : bulkHeaderLen ≤ s.len := by
  rcases hs.expected_eq with ⟨hnil, -⟩ | ⟨hlen, -, -, -⟩
  · exact absurd hnil hne
  · exact hs.len_eq ▸ hlen

/-- An empty packet ends a frame that is not complete. -/
theorem feed_empty (hs : Collected s bytes) (hne : bytes ≠ []) (hpos : 0 < endpointSize) :
    Gives endpointSize [] bytes (feed s [] endpointSize) := by
  have hfeed : feed s [] endpointSize = malformedResult s ([] : Frame).length endpointSize := by
    rw [feed, if_neg (by simp only [List.length_nil]; omega), hs.discarding_eq, if_neg Bool.false_ne_true,
      if_pos List.length_nil]
  rw [hfeed, ← hs.frame_eq]
  exact malformedResult_gives endpointSize (hs.len_ge hne)

/-- A packet that shows a transfer to be malformed: a length field over the limit, bytes beyond the
declared frame, or an end before it. What is kept is refused by the frame check. -/
theorem feed_malformed (hs : Collected s bytes) (hpos : packet ≠ []) (hle : packet.length ≤ endpointSize)
    (hhead : bulkHeaderLen ≤ (bytes ++ packet).length) (hfirst : bytes = [] → packet.length ≤ workBufSize)
    (hbad : maxXfrPayload < dwLength (bytes ++ packet) ∨
      bulkHeaderLen + dwLength (bytes ++ packet) < (bytes ++ packet).length ∨
      packet.length < endpointSize ∧ (bytes ++ packet).length ≠ bulkHeaderLen + dwLength (bytes ++ packet)) :
    ∃ kept, kept <+: bytes ++ packet ∧ bulkFrameValidate kept = none ∧
      Gives endpointSize packet kept (feed s packet endpointSize) := by
  by_cases hfits : (bytes ++ packet).length ≤ workBufSize
  · have hall : bulkFrameValidate (bytes ++ packet) = none :=
      bulkFrameValidate_eq_none (hbad.imp_right fun h => h.elim (fun h => by omega) fun h => h.2)
    refine ⟨bytes ++ packet, List.prefix_refl _, hall, ?_⟩
    by_cases hdw : maxXfrPayload < dwLength (bytes ++ packet)
    · obtain ⟨t, happend, hframe, hlen, hexpected, -⟩ := append_of_fits hs.frame_eq hs.len_eq hfits
      have hzero : s.expected = 0 := by
        rcases hs.expected_eq with ⟨-, hzero⟩ | ⟨hlen, hsmall, -, -⟩
        · exact hzero
        · rw [dwLength_front (List.prefix_append bytes packet) hlen] at hsmall
          omega
      have hread := readDeclared_of_gt (s := t) (by rw [hframe]; exact hhead) (by rw [hframe]; exact hdw)
        (hexpected.trans hzero)
      rw [feed_of_collected hs hpos hle, happend]
      dsimp only
      rw [hread, ← hframe]
      exact malformedResult_gives endpointSize (by omega)
    · obtain ⟨t, hframe, hlen, -, hexpected, hfeed⟩ :=
        feed_of_declared hs hpos hle hhead hfits (Nat.not_lt.mp hdw)
      have hgives : feed s packet endpointSize = malformedResult t packet.length endpointSize := by
        rw [hfeed]
        rcases hbad.resolve_left hdw with hlong | ⟨hshort, hne⟩
        · exact if_pos (by omega)
        · by_cases hlong : t.expected < t.len
          · exact if_pos hlong
          · rw [if_neg hlong, if_neg (by omega), if_pos hshort]
      rw [hgives, ← hframe]
      exact malformedResult_gives endpointSize (by omega)
  · -- the packet is not copied, and what was collected before it is what is kept
    have hne : bytes ≠ [] := by
      rintro rfl
      exact hfits (hfirst rfl)
    refine ⟨bytes, List.prefix_append _ _, hs.not_valid hne, ?_⟩
    have hnone : s.append packet = none := by
      refine append_of_not_fits ?_
      rw [List.length_append] at hfits
      rw [hs.len_eq]
      omega
    rw [feed_of_collected hs hpos hle, hnone, ← hs.frame_eq]
    exact malformedResult_gives endpointSize (hs.len_ge hne)

/-- Draining goes on to the packet that ends the transfer. -/
theorem feed_draining (hs : Draining s bytes) (hpos : 0 < endpointSize) (hle : packet.length ≤ endpointSize) :
    Gives endpointSize packet bytes (feed s packet endpointSize) := by
  rw [feed, if_neg (by omega), hs.discarding_eq, if_pos rfl, ← hs.frame_eq]
  exact malformedResult_gives endpointSize hs.len_ge

end Step

/-! ### One transfer -/

/-- One frame goes out over the packets, and the assembler is ready for the next transfer. -/
def Yields (endpointSize : Nat) (s : RxAssembly) (packets : List Frame) (frame : Frame) : Prop :=
  ∃ s', receive endpointSize s packets = ([frame], s') ∧ Idle s'

section Run

variable {s s' : RxAssembly} {packet kept : Frame} {packets : List Frame}

/-- Empty packets between transfers are dropped. -/
theorem receive_blank (hs : Idle s) (hpackets : ∀ packet ∈ packets, packet = []) :
    ∃ s', receive endpointSize s packets = ([], s') ∧ Idle s' := by
  induction packets generalizing s with
  | nil => exact ⟨s, rfl, hs⟩
  | cons packet packets ih =>
      have hdropped : ∃ s', receivePacket endpointSize s packet = ([], s') ∧ Idle s' := by
        obtain rfl := hpackets packet List.mem_cons_self
        have hfeed : feed s [] endpointSize = (.dropped, s.reset) := by
          by_cases hzero : endpointSize = 0
          · rw [feed, if_pos (.inl hzero)]
          · rw [feed, if_neg (by simp only [List.length_nil]; omega), hs.discarding_eq,
              if_neg Bool.false_ne_true, if_pos List.length_nil, malformedResult, if_pos (by rw [hs.len_eq]; decide)]
        exact ⟨s.reset, by rw [receivePacket, hfeed], idle_reset s⟩
      obtain ⟨t, hreceive, ht⟩ := hdropped
      obtain ⟨s', hrest, hs'⟩ := ih ht (fun packet hmem => hpackets packet (List.mem_cons_of_mem _ hmem))
      refine ⟨s', ?_, hs'⟩
      simp only [receive, hreceive, hrest, List.append_nil]

theorem yields_of_ready (hfeed : feed s packet endpointSize = (.ready, s'))
    (hpackets : ∀ packet ∈ packets, packet = []) : Yields endpointSize s (packet :: packets) s'.frame := by
  obtain ⟨t, hrest, ht⟩ : ∃ t, receive endpointSize _ _ = ([], t) ∧ Idle t := receive_blank (idle_reset s') hpackets
  refine ⟨t, ?_, ht⟩
  have hreceive : receivePacket endpointSize s packet = ([s'.frame], s'.reset) := by rw [receivePacket, hfeed]
  simp only [receive, hreceive, hrest, List.append_nil]

theorem yields_of_more (hfeed : feed s packet endpointSize = (.more, s'))
    (hrest : Yields endpointSize s' packets kept) : Yields endpointSize s (packet :: packets) kept := by
  obtain ⟨t, hreceive, ht⟩ := hrest
  refine ⟨t, ?_, ht⟩
  have hnow : receivePacket endpointSize s packet = ([], s') := by rw [receivePacket, hfeed]
  simp only [receive, hnow, hreceive, List.nil_append]

theorem yields_of_gives_last {last : Frame} (h : Gives endpointSize last kept (feed s last endpointSize))
    (hlast : last.length < endpointSize) : Yields endpointSize s [last] kept := by
  rcases h with ⟨-, hready, rfl⟩ | ⟨hge, -, -⟩
  · exact yields_of_ready (Prod.ext hready rfl) (by simp)
  · omega

theorem yields_of_draining {full : List Frame} {last : Frame} (hpos : 0 < endpointSize) (hs : Draining s kept)
    (hfull : ∀ packet ∈ full, packet.length = endpointSize) (hlast : last.length < endpointSize) :
    Yields endpointSize s (full ++ [last]) kept := by
  induction full generalizing s with
  | nil => exact yields_of_gives_last (feed_draining hs hpos hlast.le) hlast
  | cons packet full ih =>
      have hpacket := hfull packet List.mem_cons_self
      rcases feed_draining hs hpos hpacket.le with ⟨hlt, -, -⟩ | ⟨-, hmore, hdraining⟩
      · omega
      · exact yields_of_more (Prod.ext hmore rfl)
          (ih hdraining fun p hmem => hfull p (List.mem_cons_of_mem _ hmem))

/-- The packets of a well-formed frame, from the ones already collected on. -/
theorem yields_of_wellFormed {bytes frame : Frame} {full : List Frame} {last : Option Frame}
    (hep : bulkHeaderLen ≤ endpointSize) (hs : Collected s bytes)
    (hfull : ∀ packet ∈ full, packet.length = endpointSize) (hlast : ∀ packet ∈ last, packet.length < endpointSize)
    (hframe : bytes ++ (full ++ last.toList).flatten = frame) (hhead : bulkHeaderLen ≤ frame.length)
    (hdw : dwLength frame ≤ maxXfrPayload) (hlen : frame.length = bulkHeaderLen + dwLength frame) :
    Yields endpointSize s (full ++ last.toList) frame := by
  have hshort : bytes.length < frame.length := by
    rcases hs.expected_eq with ⟨rfl, -⟩ | ⟨hlong, -, hexpected, hlt⟩
    · exact Nat.lt_of_lt_of_le (by decide) hhead
    · rw [dwLength_front ⟨_, hframe⟩ hlong] at hexpected
      omega
  induction full generalizing s bytes with
  | nil =>
      cases last with
      | none =>
          obtain rfl : bytes = frame := by simpa using hframe
          exact absurd hshort (Nat.lt_irrefl _)
      | some packet =>
          obtain rfl : bytes ++ packet = frame := by simpa using hframe
          have hne : packet ≠ [] := by
            rintro rfl
            simp at hshort
          obtain ⟨t, ht, hfeed⟩ := feed_complete hs hne (hlast packet rfl).le hdw hlen
          exact ht ▸ yields_of_ready hfeed (by simp)
  | cons packet full ih =>
      have hpacket := hfull packet List.mem_cons_self
      have hrest : bytes ++ packet ++ (full ++ last.toList).flatten = frame := by
        rw [← hframe, List.cons_append, List.flatten_cons, List.append_assoc]
      have hne : packet ≠ [] := by
        rintro rfl
        simp only [bulkHeaderLen, List.length_nil] at hep hpacket
        omega
      by_cases hblank : (full ++ last.toList).flatten = []
      · rw [hblank, List.append_nil] at hrest
        subst hrest
        obtain ⟨t, ht, hfeed⟩ := feed_complete hs hne hpacket.le hdw hlen
        exact ht ▸ yields_of_ready hfeed (List.flatten_eq_nil_iff.mp hblank)
      · have hlonger : bulkHeaderLen ≤ (bytes ++ packet).length := by
          rw [List.length_append]
          omega
        have hsame : dwLength (bytes ++ packet) = dwLength frame := dwLength_front ⟨_, hrest⟩ hlonger
        have hbefore : (bytes ++ packet).length < frame.length := by
          have hlength := congrArg List.length hrest
          rw [List.length_append] at hlength
          have := List.length_pos_iff.mpr hblank
          omega
        obtain ⟨t, ht, hfeed⟩ := feed_partial hs hne hpacket hlonger (by omega) (by omega)
        exact yields_of_more hfeed
          (ih ht (fun p hmem => hfull p (List.mem_cons_of_mem _ hmem)) hrest hbefore)

/-- The packets of a malformed transfer, from the ones already collected on: where the declared length
is passed, no packet ends. -/
theorem yields_of_malformed {bytes all last : Frame} {full : List Frame}
    (hep : bulkHeaderLen ≤ endpointSize) (hs : Collected s bytes) (hcut : endpointSize ∣ bytes.length)
    (hfull : ∀ packet ∈ full, packet.length = endpointSize) (hlast : last.length < endpointSize)
    (hall : bytes ++ (full ++ [last]).flatten = all) (hhead : bulkHeaderLen ≤ all.length)
    (hfirst : bytes = [] → ∀ packet ∈ (full ++ [last]).head?, packet.length ≤ workBufSize)
    (hbad : maxXfrPayload < dwLength all ∨ all.length ≠ bulkHeaderLen + dwLength all)
    (hinside : ¬ (bulkHeaderLen + dwLength all < all.length ∧ endpointSize ∣ bulkHeaderLen + dwLength all)) :
    ∃ kept, kept <+: all ∧ bulkFrameValidate kept = none ∧ Yields endpointSize s (full ++ [last]) kept := by
  have hpos : 0 < endpointSize := Nat.lt_of_lt_of_le (by decide) hep
  induction full generalizing s bytes with
  | nil =>
      obtain rfl : bytes ++ last = all := by simpa using hall
      by_cases hnil : last = []
      · subst hnil
        have hne : bytes ≠ [] := by
          rintro rfl
          simp [bulkHeaderLen] at hhead
        exact ⟨bytes, List.prefix_append _ _, hs.not_valid hne, yields_of_gives_last (feed_empty hs hne hpos) hpos⟩
      · obtain ⟨kept, hfront, hinvalid, hgives⟩ := feed_malformed hs hnil hlast.le hhead
          (fun hb => hfirst hb last rfl) (hbad.imp_right fun h => .inr ⟨hlast, h⟩)
        exact ⟨kept, hfront, hinvalid, yields_of_gives_last hgives hlast⟩
  | cons packet full ih =>
      have hpacket := hfull packet List.mem_cons_self
      have hfull' : ∀ p ∈ full, p.length = endpointSize := fun p hmem => hfull p (List.mem_cons_of_mem _ hmem)
      have hrest : bytes ++ packet ++ (full ++ [last]).flatten = all := by
        rw [← hall, List.cons_append, List.flatten_cons, List.append_assoc]
      have hne : packet ≠ [] := by
        rintro rfl
        rw [List.length_nil] at hpacket
        omega
      have hlonger : bulkHeaderLen ≤ (bytes ++ packet).length := by
        rw [List.length_append]
        omega
      have hsame : dwLength (bytes ++ packet) = dwLength all := dwLength_front ⟨_, hrest⟩ hlonger
      have hcut' : endpointSize ∣ (bytes ++ packet).length := by
        rw [List.length_append, hpacket]
        exact Nat.dvd_add_self_right.mpr hcut
      by_cases hpartial : dwLength (bytes ++ packet) ≤ maxXfrPayload ∧
          (bytes ++ packet).length < bulkHeaderLen + dwLength (bytes ++ packet)
      · obtain ⟨t, ht, hfeed⟩ := feed_partial hs hne hpacket hlonger hpartial.1 hpartial.2
        obtain ⟨kept, hfront, hinvalid, hyields⟩ := ih ht hcut' hfull' hrest fun h => by
          rw [h] at hlonger
          simp [bulkHeaderLen] at hlonger
        exact ⟨kept, hfront, hinvalid, yields_of_more hfeed hyields⟩
      · have hle : (bytes ++ packet).length ≤ all.length := List.IsPrefix.length_le ⟨_, hrest⟩
        have hshown : maxXfrPayload < dwLength (bytes ++ packet) ∨
            bulkHeaderLen + dwLength (bytes ++ packet) < (bytes ++ packet).length := by
          by_contra hnot
          have heq : (bytes ++ packet).length = bulkHeaderLen + dwLength all := by omega
          refine hinside ⟨?_, heq ▸ hcut'⟩
          omega
        obtain ⟨kept, hfront, hinvalid, hgives⟩ := feed_malformed hs hne hpacket.le hlonger
          (fun hb => hfirst hb packet rfl) (hshown.imp_right .inl)
        rcases hgives with ⟨hlt, -, -⟩ | ⟨-, hmore, hdraining⟩
        · omega
        · exact ⟨kept, hfront.trans ⟨_, hrest⟩, hinvalid,
            yields_of_more (Prod.ext hmore rfl) (yields_of_draining hpos hdraining hfull' hlast)⟩

end Run

/-! ### Every sequence of transfers -/

/-- What the assembler reports for a transfer: a part of it and of nothing else, the frame itself when
the transfer is one. -/
structure Reported (t : Transfer endpointSize) (frame : Frame) : Prop where
  own : frame <+: t.bytes
  wellFormed : t.WellFormed → frame = t.bytes
  malformed : t.Malformed → bulkFrameValidate frame = none

/-- The first packet of the transfer fits the assembly buffer. -/
def Transfer.FirstFits (t : Transfer endpointSize) : Prop :=
  ∀ packet ∈ t.packets.head?, packet.length ≤ workBufSize

theorem yields_transfer (hep : bulkHeaderLen ≤ endpointSize) {s : RxAssembly} (hs : Idle s)
    (t : Transfer endpointSize) (ht : t.WellFormed ∨ t.Malformed ∧ t.FirstFits) :
    ∃ frame, Yields endpointSize s t.packets frame ∧ Reported t frame := by
  rcases ht with hwell | ⟨hbad, hfits⟩
  · obtain ⟨hhead, hdw, hlen⟩ := hwell
    exact ⟨t.bytes, yields_of_wellFormed hep hs.collected t.full_length t.last_length rfl hhead hdw hlen,
      List.prefix_refl _, fun _ => rfl, fun h => absurd ⟨hhead, hdw, hlen⟩ h.2.1⟩
  · obtain ⟨full, last, hfull, hlast⟩ := t
    obtain ⟨hhead, hnot, hended, hinside⟩ := hbad
    obtain ⟨last, rfl⟩ := Option.isSome_iff_exists.mp hended
    have hwrong : maxXfrPayload < dwLength (full ++ [last]).flatten ∨
        (full ++ [last]).flatten.length ≠ bulkHeaderLen + dwLength (full ++ [last]).flatten := by
      by_contra hright
      rw [not_or, not_not, Nat.not_lt] at hright
      exact hnot ⟨hhead, hright.1, hright.2⟩
    obtain ⟨kept, hfront, hinvalid, hyields⟩ := yields_of_malformed hep hs.collected (Nat.dvd_zero _) hfull
      (hlast last rfl) rfl hhead (fun _ => hfits) hwrong hinside
    exact ⟨kept, hyields, hfront, fun h => absurd h hnot, fun _ => hinvalid⟩

theorem receive_append (s : RxAssembly) (packets packets' : List Frame) :
    receive endpointSize s (packets ++ packets') =
      ((receive endpointSize s packets).1 ++ (receive endpointSize (receive endpointSize s packets).2 packets').1,
        (receive endpointSize (receive endpointSize s packets).2 packets').2) := by
  induction packets generalizing s with
  | nil => rfl
  | cons packet packets ih => simp only [List.cons_append, receive, ih, List.append_assoc]

/-- **One frame for each transfer.** Over any sequence of well-formed and malformed transfers, the
latter with a first packet that fits the buffer, the assembler reports one frame for each, in order. -/
theorem bulk_out_reassembly (hep : bulkHeaderLen ≤ endpointSize) (transfers : List (Transfer endpointSize))
    (htransfers : ∀ t ∈ transfers, t.WellFormed ∨ t.Malformed ∧ t.FirstFits) (s : RxAssembly) (hs : Idle s) :
    ∃ frames s', receive endpointSize s (transfers.flatMap Transfer.packets) = (frames, s') ∧ Idle s' ∧
      List.Forall₂ Reported transfers frames := by
  induction transfers generalizing s with
  | nil => exact ⟨[], s, rfl, hs, .nil⟩
  | cons t transfers ih =>
      obtain ⟨frame, ⟨s₁, hfirst, hs₁⟩, hreported⟩ := yields_transfer hep hs t (htransfers t List.mem_cons_self)
      obtain ⟨frames, s₂, hrest, hs₂, hall⟩ := ih (fun u hu => htransfers u (List.mem_cons_of_mem _ hu)) s₁ hs₁
      refine ⟨frame :: frames, s₂, ?_, hs₂, .cons hreported hall⟩
      rw [List.flatMap_cons, receive_append, hfirst, hrest, List.singleton_append]

/-- The assembler as it lies in memory before the first packet. -/
def RxAssembly.zeroed : RxAssembly := ⟨List.replicate workBufSize 0, 0, 0, false, List.length_replicate⟩

/-- A slot status request, then a full packet that declares no payload and an empty one behind it, then
a frame of exactly one packet with an empty packet behind it. -/
def sampleTransfers : List (Transfer 64) :=
  [⟨[], some [0x65, 0, 0, 0, 0, 0, 1, 0, 0, 0], by simp, by simp⟩,
    ⟨[List.replicate 64 0], some [], by simp, by simp⟩,
    ⟨[[0x6F, 54, 0, 0, 0, 0, 2, 0, 0, 0] ++ List.replicate 54 0xA5], some [], by simp, by simp⟩]

theorem bulk_out_reassembly_sample :
    ∃ frames s', receive 64 RxAssembly.zeroed (sampleTransfers.flatMap Transfer.packets) = (frames, s') ∧
      Idle s' ∧ List.Forall₂ Reported sampleTransfers frames := by
  refine bulk_out_reassembly (by decide) sampleTransfers ?_ RxAssembly.zeroed ⟨rfl, rfl, rfl⟩
  intro t ht
  simp only [sampleTransfers, List.mem_cons, List.not_mem_nil, or_false] at ht
  rcases ht with rfl | rfl | rfl
  · exact .inl ⟨by decide, by decide, by decide⟩
  · refine .inr ⟨⟨by decide, fun h => absurd h.2.2 (by decide), rfl, by decide⟩, ?_⟩
    intro packet hpacket
    obtain rfl : List.replicate 64 0 = packet := Option.some.inj hpacket
    decide
  · exact .inl ⟨by decide, by decide, by decide⟩

/-- A single packet one byte longer than the assembly buffer. -/
def oversizedTransfer : Transfer 4096 where
  full := []
  last := some (List.replicate 2061 0)
  full_length := by simp
  last_length := by
    intro packet hpacket
    rw [← Option.some.inj hpacket, List.length_replicate]
    decide

/-- With an endpoint larger than the assembly buffer a malformed transfer can be lost without a report. -/
theorem oversized_first_packet_dropped :
    oversizedTransfer.Malformed ∧ (receive 4096 RxAssembly.zeroed oversizedTransfer.packets).1 = [] :=
  ⟨⟨by decide +kernel, fun h => absurd h.2.2 (by decide +kernel), rfl, by decide +kernel⟩, by decide +kernel⟩

end NeroReader.Usb
