import NeroReader.LanguageSpans
import NeroReader.NdefRecord

/-!
Walking a message with `nfc_ndef_record_next`. A record is a header byte, its length fields, a type, an id and a
payload; the header's flags say whether the payload length takes one byte or four and whether an id is there. The
walker takes every whole record whose header byte is not zero, and passes over a zero byte by itself, so that it
reaches the end of the messages made of the two.
-/

namespace NeroReader.Ndef

open LanguageSpans
open scoped Computability

/-! ### Records -/

/-- A record that is not a chunk, short or long, with or without an id. -/
structure Record where
  header : Byte
  type : Frame
  id : Frame
  payload : Frame
  whole : header &&& hdrCf = 0
  type_fits : type.length ≤ 0xFF
  id_marked : header &&& hdrIl = 0 → id = []
  id_fits : id.length ≤ 0xFF
  payload_fits : payload.length ≤ if header &&& hdrSr = 0 then 0xFFFFFFFF else 0xFF

namespace Record

/-- A payload length in one byte or in four. -/
def payloadLenField (header : Byte) (length : Nat) : Frame :=
  if header &&& hdrSr = 0 then
    [BitVec.ofNat 8 (length / 16777216), BitVec.ofNat 8 (length / 65536), BitVec.ofNat 8 (length / 256),
      BitVec.ofNat 8 length]
  else [BitVec.ofNat 8 length]

def idLenField (header : Byte) (length : Nat) : Frame :=
  if header &&& hdrIl = 0 then [] else [BitVec.ofNat 8 length]

variable (r : Record)

/-- The header byte and the length fields. -/
def front : Frame :=
  r.header :: BitVec.ofNat 8 r.type.length ::
    (payloadLenField r.header r.payload.length ++ idLenField r.header r.id.length)

def bytes : Frame := r.front ++ (r.type ++ (r.id ++ r.payload))

/-- What the walker leaves of the record. -/
def walked : NdefRecord where
  header := r.header
  tnf := r.header &&& hdrTnfMask
  typeLen := r.type.length
  payloadLen := r.payload.length
  typeOffset := r.front.length
  payloadOffset := r.front.length + r.type.length + r.id.length
  recordLen := r.bytes.length
  messageEnd := r.header &&& hdrMe != 0

theorem length_bytes : r.bytes.length = r.front.length + r.type.length + r.id.length + r.payload.length := by
  simp only [bytes, List.length_append]
  omega

theorem length_front : r.front.length =
    (if r.header &&& hdrSr = 0 then 6 else 3) + if r.header &&& hdrIl = 0 then 0 else 1 := by
  rw [front, List.length_cons, List.length_cons, List.length_append, payloadLenField, idLenField]
  split <;> split <;> rfl

end Record

theorem shift_bytes {a b c d : Nat} (hb : b < 256) (hc : c < 256) (hd : d < 256) :
    a <<< 24 ||| b <<< 16 ||| c <<< 8 ||| d = a * 16777216 + b * 65536 + c * 256 + d := by
  have hhigh : a <<< 24 ||| b <<< 16 = (a * 256 + b) <<< 16 := by
    rw [← Nat.shiftLeft_add_eq_or_of_lt (by rw [Nat.shiftLeft_eq]; omega)]
    simp only [Nat.shiftLeft_eq]
    omega
  have hmiddle : (a * 256 + b) <<< 16 ||| c <<< 8 = ((a * 256 + b) * 256 + c) <<< 8 := by
    rw [← Nat.shiftLeft_add_eq_or_of_lt (by rw [Nat.shiftLeft_eq]; omega)]
    simp only [Nat.shiftLeft_eq]
    omega
  rw [hhigh, hmiddle, ← Nat.shiftLeft_add_eq_or_of_lt hd, Nat.shiftLeft_eq]
  omega

variable {msg rest : Frame} {pos next : Nat}

theorem u8At_of_drop_add {w : Frame} (h : msg.drop pos = w) (i : Nat) : u8At msg (pos + i) = u8At w i := by
  rw [← h, u8At, u8At, List.getD_eq_getElem?_getD, List.getD_eq_getElem?_getD, List.getElem?_drop]

theorem length_of_drop {w : Frame} (h : msg.drop pos = w ++ rest) (hne : w ≠ []) :
    pos < msg.length ∧ msg.length - pos = w.length + rest.length := by
  have hlen := congrArg List.length h
  rw [List.length_drop, List.length_append] at hlen
  have hpos := List.length_pos_iff.mpr hne
  omega

/-- The payload length as the walker takes it. -/
theorem payloadLen_record {r : Record} (hdrop : msg.drop pos = r.bytes ++ rest) :
    (if (r.header &&& hdrSr != 0) = true then (u8At msg (pos + 2)).toNat else longPayloadLen msg pos) =
      r.payload.length := by
  have hat := u8At_of_drop_add hdrop
  have hfits := r.payload_fits
  by_cases hlong : r.header &&& hdrSr = 0
  · rw [if_pos hlong] at hfits
    have hbyte : ∀ i, u8At msg (pos + (i + 2)) = u8At (Record.payloadLenField r.header r.payload.length ++
        (Record.idLenField r.header r.id.length ++ (r.type ++ (r.id ++ r.payload))) ++ rest) i := by
      intro i
      rw [hat]
      simp only [Record.bytes, Record.front, List.cons_append, List.append_assoc, u8At_cons_succ]
    rw [Record.payloadLenField, if_pos hlong] at hbyte
    have h0 := hbyte 0
    have h1 := hbyte 1
    have h2 := hbyte 2
    have h3 := hbyte 3
    simp only [List.cons_append, u8At_cons_zero, u8At_cons_succ, Nat.zero_add, Nat.reduceAdd] at h0 h1 h2 h3
    rw [if_neg (by simpa using hlong), longPayloadLen, h0, h1, h2, h3,
      shift_bytes (BitVec.isLt _) (BitVec.isLt _) (BitVec.isLt _)]
    simp only [BitVec.toNat_ofNat]
    omega
  · rw [if_neg hlong] at hfits
    have hbyte : u8At msg (pos + 2) = BitVec.ofNat 8 r.payload.length := by
      rw [hat, Record.bytes, Record.front, Record.payloadLenField, if_neg hlong]
      rfl
    rw [if_pos (by simpa using hlong), hbyte, BitVec.toNat_ofNat]
    omega

/-- The payload's offset as the walker takes it. -/
theorem payloadOffsetAt_record {r : Record} (hdrop : msg.drop pos = r.bytes ++ rest) :
    payloadOffsetAt msg pos r.front.length r.type.length (r.header &&& hdrIl != 0) =
      some (r.front.length + r.type.length + r.id.length) := by
  have hat := u8At_of_drop_add hdrop
  have htype := r.type_fits
  have hid := r.id_fits
  have hfront := r.length_front
  have hlength := r.length_bytes
  obtain ⟨hpos, hleft⟩ := length_of_drop hdrop (by rw [Record.bytes, Record.front]; exact List.cons_ne_nil _ _)
  have hoff : u16 (r.front.length + r.type.length) = r.front.length + r.type.length := by
    apply u16_of_le
    split at hfront <;> split at hfront <;> omega
  rw [payloadOffsetAt]
  dsimp only
  rw [hoff]
  by_cases hil : r.header &&& hdrIl = 0
  · rw [if_neg (by simpa using hil), r.id_marked hil]
    rfl
  · rw [if_neg hil] at hfront
    have hidLen : (u8At msg (pos + (r.front.length - 1))).toNat = r.id.length := by
      have hbyte : u8At msg (pos + (r.front.length - 1)) = BitVec.ofNat 8 r.id.length := by
        rw [hat, hfront, Nat.add_sub_cancel, Record.bytes, Record.front, Record.payloadLenField, Record.idLenField,
          if_neg hil]
        split <;> rfl
      rw [hbyte, BitVec.toNat_ofNat]
      omega
    have hspan : spanOk (pos + (r.front.length - 1)) 1 msg.length = true := by
      rw [spanOk, decide_eq_true_eq]
      omega
    rw [if_pos (by simpa using hil), if_neg (by rw [hspan]; simp), hidLen, if_neg]
    split at hfront <;> omega

/-- **A record is walked over where it stands.** -/
theorem recordNext_record {r : Record} (hlen : msg.length ≤ 0xFFFF) (hheader : r.header ≠ 0)
    (hdrop : msg.drop pos = r.bytes ++ rest) : recordNext msg pos = ⟨.ok, r.walked, pos + r.bytes.length⟩ := by
  have hat := u8At_of_drop_add hdrop
  obtain ⟨hpos, hleft⟩ := length_of_drop hdrop (by rw [Record.bytes, Record.front]; exact List.cons_ne_nil _ _)
  have hlength := r.length_bytes
  have hfront := r.length_front
  have htype := r.type_fits
  have hhdr : u8At msg pos = r.header := hat 0
  have htypeLen : (u8At msg (pos + 1)).toNat = r.type.length := by
    rw [hat 1]
    exact (BitVec.toNat_ofNat ..).trans (Nat.mod_eq_of_lt (by omega))
  have htypeOffset : (if (r.header &&& hdrSr != 0) = true then recordSrTypeOffset else recordLongTypeOffset) +
      (if (r.header &&& hdrIl != 0) = true then 1 else 0) = r.front.length := by
    rw [hfront]
    by_cases hlong : r.header &&& hdrSr = 0 <;> by_cases hil : r.header &&& hdrIl = 0 <;>
      simp [hlong, hil, recordSrTypeOffset, recordLongTypeOffset]
  have hshort : ¬((r.header &&& hdrSr != 0) = false ∧
      (msg.length - pos < recordLongMinHdrLen ∨ spanOk (pos + 2) 4 msg.length = false)) := by
    rintro ⟨hlong, hcut⟩
    rw [if_pos (by simpa using hlong)] at hfront
    rw [recordLongMinHdrLen, spanOk, decide_eq_false_iff_not] at hcut
    omega
  rw [recordNext, if_neg (by omega), if_neg (by omega)]
  dsimp only
  rw [hhdr, htypeLen, if_neg hheader, if_neg (not_not.mpr r.whole), if_neg, if_neg hshort, payloadLen_record hdrop,
    htypeOffset, payloadOffsetAt_record hdrop]
  · dsimp only
    rw [if_neg (by omega), u16_of_le (by omega), u16_of_le (by omega), ← hlength]
    rfl
  · rw [recordMinHdrLen]
    split at hfront <;> omega

/-! ### Only records are walked over -/

/-- The bytes from a position on, one by one. -/
theorem take_drop_eq_map {n : Nat} (h : pos + n ≤ msg.length) :
    (msg.drop pos).take n = (List.range n).map fun i => u8At msg (pos + i) := by
  apply List.ext_getElem
  · rw [List.length_take, List.length_drop, List.length_map, List.length_range]
    omega
  · intro i hi hi'
    rw [List.length_map, List.length_range] at hi'
    rw [List.getElem_take, List.getElem_drop, List.getElem_map, List.getElem_range, u8At,
      List.getD_eq_getElem?_getD, List.getElem?_eq_getElem (by omega), Option.getD_some]

theorem exists_cut {w : Frame} {a b c : Nat} (h : a + b + c ≤ w.length) : ∃ first second third rest : Frame,
    w = first ++ (second ++ (third ++ rest)) ∧ first.length = a ∧ second.length = b ∧ third.length = c := by
  refine ⟨w.take a, (w.drop a).take b, ((w.drop a).drop b).take c, ((w.drop a).drop b).drop c, ?_, ?_, ?_, ?_⟩
  · rw [List.take_append_drop, List.take_append_drop, List.take_append_drop]
  · rw [List.length_take]
    omega
  · rw [List.length_take, List.length_drop]
    omega
  · rw [List.length_take, List.length_drop, List.length_drop]
    omega

/-- The four bytes of a long payload length. -/
theorem longPayloadLen_bytes (msg : Frame) (pos : Nat) :
    longPayloadLen msg pos ≤ 0xFFFFFFFF ∧
      [BitVec.ofNat 8 (longPayloadLen msg pos / 16777216), BitVec.ofNat 8 (longPayloadLen msg pos / 65536),
        BitVec.ofNat 8 (longPayloadLen msg pos / 256), BitVec.ofNat 8 (longPayloadLen msg pos)] =
      [u8At msg (pos + 2), u8At msg (pos + 3), u8At msg (pos + 4), u8At msg (pos + 5)] := by
  have hlt : ∀ i, (u8At msg i).toNat < 256 := fun i => BitVec.isLt _
  have h2 := hlt (pos + 2)
  have h3 := hlt (pos + 3)
  have h4 := hlt (pos + 4)
  have h5 := hlt (pos + 5)
  rw [longPayloadLen, shift_bytes h3 h4 h5]
  refine ⟨by omega, ?_⟩
  congr 1
  · apply BitVec.eq_of_toNat_eq
    rw [BitVec.toNat_ofNat]
    omega
  congr 1
  · apply BitVec.eq_of_toNat_eq
    rw [BitVec.toNat_ofNat]
    omega
  congr 1
  · apply BitVec.eq_of_toNat_eq
    rw [BitVec.toNat_ofNat]
    omega
  congr 1
  apply BitVec.eq_of_toNat_eq
  rw [BitVec.toNat_ofNat]
  omega

/-- The id's length byte, and where the payload starts behind it. -/
theorem payloadOffsetAt_eq_some {typeOffset typeLen off : Nat} {il : Bool} (hsmall : typeOffset + typeLen ≤ 0xFFFF)
    (h : payloadOffsetAt msg pos typeOffset typeLen il = some off) :
    off = typeOffset + typeLen + (if il then (u8At msg (pos + (typeOffset - 1))).toNat else 0) := by
  rw [payloadOffsetAt] at h
  dsimp only at h
  rw [u16_of_le hsmall] at h
  cases il with
  | false =>
      rw [if_neg (by simp)] at h
      rw [if_neg (by simp)]
      exact (Option.some.inj h).symm
  | true =>
      rw [if_pos rfl] at h
      split at h
      · cases h
      split at h
      · cases h
      rw [if_pos rfl]
      exact (Option.some.inj h).symm

/-- The front of a record, as its bytes say it. -/
theorem front_bytes {front : Nat} (hfront : front = (if u8At msg pos &&& hdrSr = 0 then 6 else 3) +
    if u8At msg pos &&& hdrIl = 0 then 0 else 1) (h : pos + front ≤ msg.length) :
    (msg.drop pos).take front = u8At msg pos :: BitVec.ofNat 8 (u8At msg (pos + 1)).toNat ::
      (Record.payloadLenField (u8At msg pos)
        (if u8At msg pos &&& hdrSr = 0 then longPayloadLen msg pos else (u8At msg (pos + 2)).toNat) ++
      Record.idLenField (u8At msg pos) (u8At msg (pos + (front - 1))).toNat) := by
  rw [take_drop_eq_map h, Record.payloadLenField, Record.idLenField]
  by_cases hlong : u8At msg pos &&& hdrSr = 0 <;> by_cases hil : u8At msg pos &&& hdrIl = 0
  · rw [if_pos hlong, if_pos hil] at hfront
    rw [if_pos hlong, if_pos hlong, if_pos hil, (longPayloadLen_bytes msg pos).2, hfront]
    simp [List.range_succ]
  · rw [if_pos hlong, if_neg hil] at hfront
    rw [if_pos hlong, if_pos hlong, if_neg hil, (longPayloadLen_bytes msg pos).2, hfront]
    simp [List.range_succ]
  · rw [if_neg hlong, if_pos hil] at hfront
    rw [if_neg hlong, if_neg hlong, if_pos hil, hfront]
    simp [List.range_succ]
  · rw [if_neg hlong, if_neg hil] at hfront
    rw [if_neg hlong, if_neg hlong, if_neg hil, hfront]
    simp [List.range_succ]

/-- A guard whose failure is not a success has let a success pass. -/
theorem ok_of_guard {c : Prop} [Decidable c] {refused r : NextRecord}
    (h : (if c then refused else r).status = .ok) (hrefused : refused.status ≠ .ok) : ¬c ∧ r.status = .ok := by
  by_cases hc : c
  · rw [if_pos hc] at h
    exact absurd h hrefused
  · rw [if_neg hc] at h
    exact ⟨hc, h⟩

/-- **What is walked over is a record.** -/
theorem exists_record (h : (recordNext msg pos).status = .ok) :
    ∃ r : Record, r.header ≠ 0 ∧ ∃ rest, msg.drop pos = r.bytes ++ rest := by
  rw [recordNext] at h
  obtain ⟨-, h⟩ := ok_of_guard h (by simp [NextRecord.failed])
  obtain ⟨hpos, h⟩ := ok_of_guard h (by simp [NextRecord.failed])
  obtain ⟨hheader, h⟩ := ok_of_guard h (by simp)
  obtain ⟨hwhole, h⟩ := ok_of_guard h (by simp [NextRecord.failed])
  obtain ⟨hmin, h⟩ := ok_of_guard h (by simp [NextRecord.failed])
  obtain ⟨hlong, h⟩ := ok_of_guard h (by simp [NextRecord.failed])
  dsimp only at h
  have hpayload :
    (if (u8At msg pos &&& hdrSr != 0) = true then (u8At msg (pos + 2)).toNat else longPayloadLen msg pos) =
      if u8At msg pos &&& hdrSr = 0 then longPayloadLen msg pos else (u8At msg (pos + 2)).toNat := by
    by_cases hlong : u8At msg pos &&& hdrSr = 0 <;> simp [hlong]
  have hfront : (if (u8At msg pos &&& hdrSr != 0) = true then recordSrTypeOffset else recordLongTypeOffset) +
      (if (u8At msg pos &&& hdrIl != 0) = true then 1 else 0) = (if u8At msg pos &&& hdrSr = 0 then 6 else 3) +
        if u8At msg pos &&& hdrIl = 0 then 0 else 1 := by
    by_cases hlong : u8At msg pos &&& hdrSr = 0 <;> by_cases hil : u8At msg pos &&& hdrIl = 0 <;>
      simp [hlong, hil, recordSrTypeOffset, recordLongTypeOffset]
  rw [hpayload, hfront] at h
  generalize hfront' : (if u8At msg pos &&& hdrSr = 0 then 6 else 3) +
    (if u8At msg pos &&& hdrIl = 0 then 0 else 1) = front at h
  have htype : (u8At msg (pos + 1)).toNat < 256 := BitVec.isLt _
  have hid : (u8At msg (pos + (front - 1))).toNat < 256 := BitVec.isLt _
  have hsmall : front ≤ 7 := by
    rw [← hfront']
    split <;> split <;> omega
  cases hoff : payloadOffsetAt msg pos front (u8At msg (pos + 1)).toNat (u8At msg pos &&& hdrIl != 0) with
  | none =>
      rw [hoff] at h
      cases h
  | some off =>
      rw [hoff] at h
      dsimp only at h
      have hoff' := payloadOffsetAt_eq_some (by omega) hoff
      by_cases hfit : msg.length - pos <
          off + if u8At msg pos &&& hdrSr = 0 then longPayloadLen msg pos else (u8At msg (pos + 2)).toNat
      · rw [if_pos hfit] at h
        cases h
      have hcut : front ≤ msg.length - pos := by omega
      have hcontent : (u8At msg (pos + 1)).toNat +
          (if (u8At msg pos &&& hdrIl != 0) = true then (u8At msg (pos + (front - 1))).toNat else 0) +
          (if u8At msg pos &&& hdrSr = 0 then longPayloadLen msg pos else (u8At msg (pos + 2)).toNat) ≤
          ((msg.drop pos).drop front).length := by
        rw [List.length_drop, List.length_drop]
        omega
      obtain ⟨type, id, payload, rest, hrest, htypeLen, hidLen, hpayloadLen⟩ := exists_cut hcontent
      have hbytes := front_bytes hfront'.symm (by omega)
      have hidField : Record.idLenField (u8At msg pos) (u8At msg (pos + (front - 1))).toNat =
          Record.idLenField (u8At msg pos) id.length := by
        rw [Record.idLenField, Record.idLenField]
        by_cases hil : u8At msg pos &&& hdrIl = 0
        · rw [if_pos hil, if_pos hil]
        · have hmarked : (u8At msg pos &&& hdrIl != 0) = true := by simpa using hil
          rw [hidLen, if_pos hmarked]
      refine ⟨⟨u8At msg pos, type, id, payload, not_not.mp hwhole, by omega, ?_, ?_, ?_⟩, hheader, rest, ?_⟩
      · intro hil
        rw [if_neg (by simpa using hil)] at hidLen
        exact List.eq_nil_of_length_eq_zero hidLen
      · rw [hidLen]
        split <;> omega
      · rw [hpayloadLen]
        have hlt : (u8At msg (pos + 2)).toNat < 256 := BitVec.isLt _
        have hle := (longPayloadLen_bytes msg pos).1
        split <;> omega
      · rw [← List.take_append_drop front (msg.drop pos), hrest, hbytes, Record.bytes, Record.front]
        dsimp only
        rw [htypeLen, hpayloadLen, hidField]
        simp only [List.cons_append, List.append_assoc]

/-! ### The walk -/

/-- The records that the walker takes. -/
def records : Language Byte := {w | ∃ r : Record, w = r.bytes}

/-- What the walker passes over in one call: a zero byte, or a record that does not start with one. -/
def stretch : Language Byte := {w | w = [0] ∨ ∃ r : Record, r.header ≠ 0 ∧ w = r.bytes}

/-- The call returns a record or passes over a zero byte. -/
def NextRecord.Passes (found : NextRecord) : Prop := found.status = .ok ∨ found.status = .empty

instance (found : NextRecord) : Decidable found.Passes := inferInstanceAs (Decidable (_ ∨ _))

theorem recordNext_empty_iff : (recordNext msg pos).status = .empty ↔ pos < msg.length ∧ u8At msg pos = 0 := by
  rw [recordNext]
  dsimp only
  by_cases hbehind : msg.length < pos
  · rw [if_pos hbehind]
    exact iff_of_false (by rw [NextRecord.failed]; simp) (by omega)
  rw [if_neg hbehind]
  by_cases hend : msg.length ≤ pos
  · rw [if_pos hend]
    exact iff_of_false (by rw [NextRecord.failed]; simp) (by omega)
  rw [if_neg hend]
  by_cases hzero : u8At msg pos = 0
  · rw [if_pos hzero]
    exact iff_of_true rfl ⟨by omega, hzero⟩
  rw [if_neg hzero]
  refine iff_of_false (fun h => ?_) fun h => hzero h.2
  split at h
  · cases h
  split at h
  · cases h
  split at h
  · cases h
  split at h
  · cases h
  generalize (if (u8At msg pos &&& hdrSr != 0) = true then (u8At msg (pos + 2)).toNat else longPayloadLen msg pos) =
    payloadLen at h
  split at h
  · cases h
  · cases h

/-- A stretch is one call of the walker. -/
theorem recordNext_stretch_iff (hlen : msg.length ≤ 0xFFFF) :
    (recordNext msg pos).Passes ∧ (recordNext msg pos).next = next ↔ Spans msg stretch pos next := by
  constructor
  · rintro ⟨hok | hempty, rfl⟩
    · obtain ⟨r, hheader, rest, hdrop⟩ := exists_record hok
      have hpos := (length_of_drop hdrop (by rw [Record.bytes, Record.front]; exact List.cons_ne_nil _ _)).1
      have hword : r.bytes ∈ stretch := Or.inr ⟨r, hheader, rfl⟩
      rw [recordNext_record hlen hheader hdrop]
      exact .of_drop hword (Nat.le_of_lt hpos) hdrop
    · obtain ⟨hpos, hzero⟩ := recordNext_empty_iff.mp hempty
      have hnext : (recordNext msg pos).next = pos + 1 := by
        rw [recordNext, if_neg (by omega), if_neg (by omega)]
        dsimp only
        rw [if_pos hzero]
        exact u16_of_le (by omega)
      have hword : [0] ∈ stretch := Or.inl rfl
      rw [hnext]
      have hcut : msg.drop pos = [0] ++ msg.drop (pos + 1) := by
        rw [List.drop_eq_getElem_cons hpos]
        rw [u8At, List.getD_eq_getElem?_getD, List.getElem?_eq_getElem hpos, Option.getD_some] at hzero
        rw [hzero]
        rfl
      exact .of_drop hword (Nat.le_of_lt hpos) hcut
  · intro h
    obtain ⟨w, hw, rfl, hdrop⟩ := h.drop_eq
    rcases hw with rfl | ⟨r, hheader, rfl⟩
    · have hinside := h.inside
      rw [List.length_singleton] at hinside
      have hzero : u8At msg pos = 0 := u8At_of_drop_add hdrop 0
      have hempty := recordNext_empty_iff.mpr ⟨hinside, hzero⟩
      refine ⟨Or.inr hempty, ?_⟩
      rw [recordNext, if_neg (by omega), if_neg (by omega)]
      dsimp only
      rw [if_pos hzero]
      exact u16_of_le (by omega)
    · rw [recordNext_record hlen hheader hdrop]
      exact ⟨Or.inl rfl, rfl⟩

/-- A call of the walker, with the position it is made at. -/
abbrev Visit := Nat × NextRecord

/-- The calls from a position on that return a record or pass over a zero byte, and the position of the first that
does neither; none where so many calls do not get there. -/
def walk (msg : Frame) : Nat → Nat → Option (List Visit × Nat)
  | 0, _ => none
  | calls + 1, pos =>
      let found := recordNext msg pos
      if found.Passes then (walk msg calls found.next).map fun rest => ((pos, found) :: rest.1, rest.2)
      else some ([], pos)

/-- Calls that stand one behind the other from a position up to another. -/
def Tiles : Nat → List Visit → Nat → Prop
  | pos, [], stop => pos = stop
  | pos, visit :: rest, stop => visit.1 = pos ∧ Tiles visit.2.next rest stop

/-- A record's spans: the type, the id up to the payload, and the payload up to the end of the record, which lies
inside the message. -/
structure SpansInside (msg : Frame) (pos : Nat) (found : NextRecord) : Prop where
  id_behind_type : found.record.typeOffset + found.record.typeLen ≤ found.record.payloadOffset
  payload_last : found.record.payloadOffset + found.record.payloadLen = found.record.recordLen
  next_behind : pos + found.record.recordLen = found.next
  inside : found.next ≤ msg.length

/-- What a call of a walk returned: a record with its spans, or that one zero byte is passed over. -/
def Sound (msg : Frame) (visit : Visit) : Prop :=
  (visit.2.status = .ok ∧ SpansInside msg visit.1 visit.2) ∨
    (visit.2.status = .empty ∧ u8At msg visit.1 = 0 ∧ visit.2.next = visit.1 + 1 ∧ visit.2.next ≤ msg.length)

theorem length_of_stretch {w : Frame} (h : w ∈ stretch) : 0 < w.length := by
  rcases h with rfl | ⟨r, -, rfl⟩
  · exact Nat.one_pos
  · have hfront := r.length_front
    have hlength := r.length_bytes
    split at hfront <;> omega

theorem sound_of_passes (hlen : msg.length ≤ 0xFFFF) (h : (recordNext msg pos).Passes) :
    Sound msg (pos, recordNext msg pos) := by
  have hspans := (recordNext_stretch_iff hlen).mp ⟨h, rfl⟩
  rcases h with hok | hempty
  · obtain ⟨r, hheader, rest, hdrop⟩ := exists_record hok
    have hinside := hspans.inside
    have hlength := r.length_bytes
    refine Or.inl ⟨hok, ?_⟩
    rw [recordNext_record hlen hheader hdrop] at hinside ⊢
    refine ⟨?_, ?_, rfl, hinside⟩
    · exact Nat.le_add_right _ _
    · exact hlength.symm
  · obtain ⟨w, hw, hnext, hdrop⟩ := hspans.drop_eq
    obtain ⟨-, hzero⟩ := recordNext_empty_iff.mp hempty
    refine Or.inr ⟨hempty, hzero, ?_, hspans.inside⟩
    rcases hw with rfl | ⟨r, hheader, rfl⟩
    · exact hnext
    · exact absurd ((u8At_of_drop_add hdrop 0).symm.trans hzero) hheader

/-- **From a position on** a walk stops, with sound calls one behind the other, and it stops at the end of the
message just where stretches lie between. -/
theorem walk_from (hlen : msg.length ≤ 0xFFFF) (hpos : pos ≤ msg.length) : ∃ visits stop,
    (∀ calls, msg.length - pos < calls → walk msg calls pos = some (visits, stop)) ∧ Tiles pos visits stop ∧
      (∀ visit ∈ visits, Sound msg visit) ∧ (stop = msg.length ↔ Spans msg (stretch∗ * 1) pos msg.length) := by
  induction hleft : msg.length - pos using Nat.strong_induction_on generalizing pos with
  | _ left ih =>
      by_cases hpass : (recordNext msg pos).Passes
      · have hspans := (recordNext_stretch_iff hlen).mp ⟨hpass, rfl⟩
        obtain ⟨w, hw, hnext, -⟩ := hspans.drop_eq
        have hw := length_of_stretch hw
        have hinside := hspans.inside
        obtain ⟨visits, stop, hwalk, htiles, hsound, hend⟩ := ih _ (by omega) hinside rfl
        refine ⟨(pos, recordNext msg pos) :: visits, stop, fun calls hcalls => ?_, ⟨rfl, htiles⟩, ?_, ?_⟩
        · cases calls with
          | zero => exact absurd hcalls (Nat.not_lt_zero _)
          | succ calls =>
              rw [walk, if_pos hpass, hwalk calls (by omega)]
              rfl
        · intro visit hvisit
          rcases List.mem_cons.mp hvisit with rfl | hrest
          · exact sound_of_passes hlen hpass
          · exact hsound visit hrest
        · refine hend.trans (Iff.trans ?_ spans_kstar.symm)
          constructor
          · intro hrest
            exact Or.inr ⟨_, hspans, hrest⟩
          · rintro (hone | ⟨mid, hmid, hrest⟩)
            · obtain ⟨rfl, -⟩ := spans_one.mp hone
              omega
            · obtain rfl := ((recordNext_stretch_iff hlen).mpr hmid).2
              exact hrest
      · refine ⟨[], pos, fun calls hcalls => ?_, rfl, by simp, ?_⟩
        · cases calls with
          | zero => exact absurd hcalls (Nat.not_lt_zero _)
          | succ calls =>
              rw [walk, if_neg hpass]
        · rw [spans_kstar]
          constructor
          · rintro rfl
            exact Or.inl (spans_one.mpr ⟨rfl, Nat.le_refl _⟩)
          · rintro (hone | ⟨mid, hmid, -⟩)
            · exact (spans_one.mp hone).1
            · exact absurd ((recordNext_stretch_iff hlen).mpr hmid).1 hpass

theorem mem_iff_spans {L : Language Byte} : msg ∈ L ↔ Spans msg L 0 msg.length := by
  constructor
  · intro h
    exact ⟨Nat.zero_le _, Nat.le_refl _, by rwa [List.take_length, List.drop_zero]⟩
  · intro h
    have hword := h.word
    rwa [List.take_length, List.drop_zero] at hword

/-- **Walking a message** takes at most one call for each byte and one more, its calls tile the bytes up to where it
stops, every record's spans lie inside the record and the message, and it stops at the end of the message exactly
when the message is made of zero bytes and of records that do not start with one. -/
theorem walk_message (msg : Frame) (hlen : msg.length ≤ 0xFFFF) : ∃ visits stop,
    (∀ calls, msg.length < calls → walk msg calls 0 = some (visits, stop)) ∧ Tiles 0 visits stop ∧
      (∀ visit ∈ visits, Sound msg visit) ∧ (stop = msg.length ↔ msg ∈ stretch∗) := by
  obtain ⟨visits, stop, hwalk, htiles, hsound, hend⟩ := walk_from hlen (Nat.zero_le msg.length)
  rw [mul_one] at hend
  exact ⟨visits, stop, hwalk, htiles, hsound, hend.trans mem_iff_spans.symm⟩

theorem walk_message_padded : ∃ visits stop,
    (∀ calls, 4 < calls → walk [0x00, 0xD0, 0x00, 0x00] calls 0 = some (visits, stop)) ∧ Tiles 0 visits stop ∧
      (∀ visit ∈ visits, Sound [0x00, 0xD0, 0x00, 0x00] visit) ∧
        (stop = 4 ↔ [0x00, 0xD0, 0x00, 0x00] ∈ stretch∗) :=
  walk_message [0x00, 0xD0, 0x00, 0x00] (by decide)

/-- A zero byte in front of an empty record: the walk reaches the end, but the first record would be a long one that
the message cuts off. -/
theorem padded_message_walked :
    (∃ visits, walk [0x00, 0xD0, 0x00, 0x00] 5 0 = some (visits, 4)) ∧
      [0x00, 0xD0, 0x00, 0x00] ∉ records∗ := by
  refine ⟨⟨_, rfl⟩, fun h => ?_⟩
  rw [← mul_one (records∗), mem_iff_spans, spans_kstar] at h
  rcases h with hone | ⟨mid, hmid, -⟩
  · obtain ⟨hend, -⟩ := spans_one.mp hone
    cases hend
  · obtain ⟨w, ⟨r, rfl⟩, rfl, hdrop⟩ := hmid.drop_eq
    have hinside := hmid.inside
    have hheader : u8At [0x00, 0xD0, 0x00, 0x00] 0 = r.header := u8At_of_drop_add hdrop 0
    have hfront := r.length_front
    have hlength := r.length_bytes
    rw [← hheader, if_pos (by decide)] at hfront
    rw [List.length_cons, List.length_cons, List.length_cons, List.length_cons, List.length_nil] at hinside
    omega

end NeroReader.Ndef
