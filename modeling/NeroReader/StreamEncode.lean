import NeroReader.BlockCode
import NeroReader.Type5ReadMultiple

/-!
The transmit coder `st25_iso15693_stream_encode` in its output buffer. Every two bits of the command and of its CRC
become one symbol with a pulse in one of four places; the symbols are stored one by one at a 16-bit position, with a
check of the room for each byte and another for each symbol. A reader of pulse places gets the bytes back.
-/

namespace NeroReader.Iso15693

open Ndef Storage

/-! ### The coder -/

/-- The loop of `st25_iso15693_stream_put1of4`: the buffer and the position behind the stored symbols. -/
def putSymbols : Nat → Byte → Frame → Nat → Option (Frame × Nat)
  | 0, _, out, pos => some (out, pos)
  | n + 1, data, out, pos =>
      match copyBytes out pos [stream1of4 (data &&& dibitMask)] with
      | none => none
      | some out => putSymbols n (data >>> 2) out (u16 (pos + 1))

/-- `st25_iso15693_stream_put1of4` with its position. -/
def put1of4At (buffer : Frame × Nat) (data : Byte) : Option (Frame × Nat) :=
  if buffer.1.length < u16 (buffer.2 + streamNibblesPerByte) then none
  else putSymbols streamNibblesPerByte data buffer.1 buffer.2

/-- `st25_iso15693_stream_encode` into a buffer whose length is its capacity: the buffer and the length it reports. -/
def streamEncodeInto (tx out : Frame) : Option (Frame × Nat) :=
  if tx.length = 0 ∨ out.length < crcLen then none
  else do
    let out ← copyBytes out 0 [streamSof1of4]
    let buffer ← tx.foldlM put1of4At (out, 1)
    let buffer ← put1of4At buffer (crcLow tx)
    let buffer ← put1of4At buffer (crcHigh tx)
    let out ← copyBytes buffer.1 buffer.2 [streamEof1of4]
    return (out, u16 (buffer.2 + 1))

/-! ### Pulse places -/

/-- A symbol has eight slots; the pulse for `d` is in slot `2d + 1`. -/
def pulse (d : Fin 4) : Byte := 1 <<< (2 * d.val + 1)

def placeOf (symbol : Byte) : Option (Fin 4) := (List.finRange 4).find? fun d => symbol == pulse d

/-- Four places make a byte, the first one its low bits. -/
def byteOfPlaces (d0 d1 d2 d3 : Fin 4) : Byte := BitVec.ofNat 8 (d0.val + 4 * d1.val + 16 * d2.val + 64 * d3.val)

def symbolsOf (data : Byte) : Frame := (List.range streamNibblesPerByte).map fun i =>
    stream1of4 ((data >>> (2 * i)) &&& dibitMask)

def byteOfSymbols : Frame → Option Byte
  | [s0, s1, s2, s3] =>
      match placeOf s0, placeOf s1, placeOf s2, placeOf s3 with
      | some d0, some d1, some d2, some d3 => some (byteOfPlaces d0 d1 d2 d3)
      | _, _, _, _ => none
  | _ => none

private theorem placeOf_iff : ∀ (symbol : Byte) (d : Fin 4), placeOf symbol = some d ↔ symbol = pulse d := by
  decide

private theorem symbolsOf_byteOfPlaces : ∀ d0 d1 d2 d3 : Fin 4,
    symbolsOf (byteOfPlaces d0 d1 d2 d3) = [pulse d0, pulse d1, pulse d2, pulse d3] := by
  decide

private theorem byteOfSymbols_symbolsOf : ∀ data : Byte, byteOfSymbols (symbolsOf data) = some data := by
  decide

theorem byteOfSymbols_iff (symbols : Frame) (data : Byte) :
    byteOfSymbols symbols = some data ↔ symbols = symbolsOf data := by
  constructor
  · intro h
    rw [byteOfSymbols.eq_def] at h
    split at h
    · split at h
      · rename_i d0 d1 d2 d3 h0 h1 h2 h3
        rw [← Option.some.inj h, symbolsOf_byteOfPlaces, (placeOf_iff _ _).mp h0, (placeOf_iff _ _).mp h1,
          (placeOf_iff _ _).mp h2, (placeOf_iff _ _).mp h3]
      · cases h
    · cases h
  · rintro rfl
    exact byteOfSymbols_symbolsOf data

/-- Pulse position coding, one of four. -/
def oneOfFour : BlockCode Byte Byte where
  width := 4
  width_pos := by decide
  encode := symbolsOf
  encode_length _ := rfl
  decodeBlock := byteOfSymbols
  decodeBlock_iff := byteOfSymbols_iff

/-! ### The buffer -/

section Stores

variable {written rest : Frame}

/-- One byte behind what is written. -/
theorem copyBytes_behind (b : Byte) : copyBytes (written ++ rest) written.length [b] =
    if 1 ≤ rest.length then some (written ++ [b] ++ rest.drop 1) else none := by
  rw [copyBytes, storeAt_append, List.length_singleton]
  by_cases h : 1 ≤ rest.length
  · have hroom : spanOk written.length 1 (written ++ rest).length = true := by
      rw [spanOk, decide_eq_true_eq, List.length_append]
      omega
    rw [if_pos hroom, if_pos h]
  · have hroom : ¬spanOk written.length 1 (written ++ rest).length = true := by
      rw [spanOk, decide_eq_true_eq, List.length_append]
      omega
    rw [if_neg hroom, if_neg h]

/-- The symbols the loop stores, in the order of the shifts. -/
def symbolsFrom : Nat → Byte → Frame
  | 0, _ => []
  | n + 1, data => stream1of4 (data &&& dibitMask) :: symbolsFrom n (data >>> 2)

private theorem symbolsFrom_four : ∀ data : Byte, symbolsFrom streamNibblesPerByte data = symbolsOf data := by
  decide

theorem putSymbols_eq (hcap : (written ++ rest).length ≤ 0xFFFF) (n : Nat) (data : Byte) :
    putSymbols n data (written ++ rest) written.length =
      if n ≤ rest.length then some (written ++ symbolsFrom n data ++ rest.drop n, written.length + n) else none := by
  induction n generalizing data written rest with
  | zero => rw [if_pos (Nat.zero_le _), symbolsFrom, List.append_nil, List.drop_zero, Nat.add_zero, putSymbols]
  | succ n ih =>
      rw [putSymbols, copyBytes_behind]
      by_cases hroom : 1 ≤ rest.length
      swap
      · rw [if_neg hroom, if_neg (by omega)]
      rw [List.length_append] at hcap
      have hpos : u16 (written.length + 1) = (written ++ [stream1of4 (data &&& dibitMask)]).length := by
        rw [u16_of_le (by omega), List.length_append, List.length_singleton]
      have hcap' : ((written ++ [stream1of4 (data &&& dibitMask)]) ++ rest.drop 1).length ≤ 0xFFFF := by
        rw [List.length_append, List.length_append, List.length_singleton, List.length_drop]
        omega
      rw [if_pos hroom]
      dsimp only
      rw [hpos, ih hcap', List.length_drop]
      by_cases hall : n + 1 ≤ rest.length
      · rw [if_pos (by omega), if_pos hall, symbolsFrom, List.append_assoc written, List.singleton_append,
          List.drop_drop, List.length_append, List.length_singleton, Nat.add_comm 1 n, Nat.add_assoc,
          Nat.add_comm 1 n]
      · rw [if_neg (by omega), if_neg hall]

/-- The two checks of the room agree: a position that wraps meets the end of the buffer. -/
theorem put1of4At_eq (hcap : (written ++ rest).length ≤ 0xFFFF) (data : Byte) :
    put1of4At (written ++ rest, written.length) data =
      if 4 ≤ rest.length then some (written ++ symbolsOf data ++ rest.drop 4, written.length + 4) else none := by
  rw [put1of4At, streamNibblesPerByte, putSymbols_eq hcap]
  dsimp only
  have hlength : (written ++ rest).length = written.length + rest.length := List.length_append
  by_cases hroom : 4 ≤ rest.length
  · rw [u16_of_le (by omega), if_neg (by omega), if_pos hroom, if_pos hroom, ← symbolsFrom_four, streamNibblesPerByte]
  · rw [if_neg hroom, if_neg hroom, ite_self]

theorem putBytes_eq (hcap : (written ++ rest).length ≤ 0xFFFF) (data : Frame) :
    data.foldlM put1of4At (written ++ rest, written.length) =
      if 4 * data.length ≤ rest.length then
        some (written ++ oneOfFour.encodeAll data ++ rest.drop (4 * data.length), written.length + 4 * data.length)
      else none := by
  induction data generalizing written rest with
  | nil =>
      rw [List.length_nil, Nat.mul_zero, if_pos (Nat.zero_le _), BlockCode.encodeAll_nil, List.append_nil,
        List.drop_zero, Nat.add_zero]
      rfl
  | cons b data ih =>
      rw [List.foldlM_cons, put1of4At_eq hcap, List.length_cons]
      by_cases hroom : 4 ≤ rest.length
      swap
      · rw [if_neg hroom, if_neg (by omega)]
        rfl
      have hsymbols : (written ++ symbolsOf b).length = written.length + 4 := List.length_append
      have hcap' : ((written ++ symbolsOf b) ++ rest.drop 4).length ≤ 0xFFFF := by
        rw [List.length_append] at hcap ⊢
        rw [hsymbols, List.length_drop]
        omega
      rw [if_pos hroom, Option.bind_eq_bind, Option.bind_some, ← hsymbols, ih hcap', List.length_drop]
      by_cases hall : 4 * (data.length + 1) ≤ rest.length
      · rw [if_pos (by omega), if_pos hall, BlockCode.encodeAll_cons, List.append_assoc written,
          List.drop_drop, hsymbols, show 4 + 4 * data.length = 4 * (data.length + 1) by omega,
          show written.length + 4 + 4 * data.length = written.length + 4 * (data.length + 1) by omega]
        rfl
      · rw [if_neg (by omega), if_neg hall]

end Stores

/-! ### The frame -/

/-- The symbols of a command: the start of frame, the command with its CRC, the end of frame. -/
def streamFrame (tx : Frame) : Frame := [streamSof1of4] ++ oneOfFour.encodeAll (tx ++ crcBytes tx) ++ [streamEof1of4]

theorem streamFrame_length (tx : Frame) : (streamFrame tx).length = 1 + 4 * (tx.length + 2) + 1 := by
  rw [streamFrame, List.length_append, List.length_append, BlockCode.encodeAll_length, List.length_append,
    crcBytes_length]
  rfl

/-- The bytes in a frame of pulses, if it is one. -/
def readStreamFrame (frame : Frame) : Option Frame :=
  if frame.head? = some streamSof1of4 ∧ frame.getLast? = some streamEof1of4 then oneOfFour.decode frame.tail.dropLast
  else none

theorem readStreamFrame_streamFrame (tx : Frame) : readStreamFrame (streamFrame tx) = some (tx ++ crcBytes tx) := by
  have hlast : (streamFrame tx).getLast? = some streamEof1of4 := List.getLast?_concat
  rw [readStreamFrame, if_pos ⟨rfl, hlast⟩]
  have hinner : (streamFrame tx).tail.dropLast = oneOfFour.encodeAll (tx ++ crcBytes tx) := by
    rw [streamFrame, List.append_assoc, List.singleton_append, List.tail_cons, List.dropLast_concat]
  rw [hinner, BlockCode.decode_encodeAll]

/-- The coder stores the command and its CRC in one run. -/
theorem streamEncodeInto_run {tx out : Frame} (hne : ¬(tx.length = 0 ∨ out.length < crcLen)) :
    streamEncodeInto tx out = do
      let out ← copyBytes out 0 [streamSof1of4]
      let buffer ← (tx ++ crcBytes tx).foldlM put1of4At (out, 1)
      let out ← copyBytes buffer.1 buffer.2 [streamEof1of4]
      return (out, u16 (buffer.2 + 1)) := by
  rw [streamEncodeInto, if_neg hne]
  congr 1
  funext out
  rw [List.foldlM_append, bind_assoc]
  congr 1
  funext buffer
  rw [crcBytes, List.foldlM_cons, bind_assoc]
  congr 1
  funext buffer
  rw [List.foldlM_cons, bind_assoc]
  congr 1

/-- What the coder does to its buffer. -/
theorem streamEncodeInto_eq {tx out : Frame} (hcap : out.length ≤ 0xFFFF) : streamEncodeInto tx out =
    if tx.length = 0 ∨ out.length < (streamFrame tx).length then none
    else some (streamFrame tx ++ out.drop (streamFrame tx).length, (streamFrame tx).length) := by
  have hsize := streamFrame_length tx
  by_cases hempty : tx.length = 0
  · rw [streamEncodeInto, if_pos (.inl hempty), if_pos (.inl hempty)]
  by_cases hshort : out.length < crcLen
  · rw [streamEncodeInto, if_pos (.inr hshort), if_pos (.inr (by rw [crcLen] at hshort; omega))]
  rw [crcLen] at hshort
  rw [streamEncodeInto_run (by rw [crcLen]; omega)]
  have hsof : copyBytes out 0 [streamSof1of4] = some ([streamSof1of4] ++ out.drop 1) :=
    (@copyBytes_behind [] out streamSof1of4).trans (if_pos (by omega))
  have hcap1 : ([streamSof1of4] ++ out.drop 1).length ≤ 0xFFFF := by
    rw [List.length_append, List.length_singleton, List.length_drop]
    omega
  have hdata : (tx ++ crcBytes tx).length = tx.length + 2 := by
    rw [List.length_append, crcBytes_length]
  have hput := putBytes_eq hcap1 (tx ++ crcBytes tx)
  rw [hdata, List.length_drop] at hput
  rw [hsof, Option.bind_eq_bind, Option.bind_some]
  rw [List.length_singleton] at hput
  by_cases hroom : 4 * (tx.length + 2) ≤ out.length - 1
  swap
  · rw [if_neg hroom] at hput
    rw [hput, if_pos (.inr (by omega))]
    rfl
  rw [if_pos hroom, List.drop_drop] at hput
  rw [hput, Option.bind_eq_bind, Option.bind_some]
  dsimp only
  have hwritten : ([streamSof1of4] ++ oneOfFour.encodeAll (tx ++ crcBytes tx)).length = 1 + 4 * (tx.length + 2) := by
    rw [List.length_append, List.length_singleton, BlockCode.encodeAll_length, hdata]
    rfl
  rw [← hwritten, copyBytes_behind, List.length_drop]
  by_cases hlast : 1 ≤ out.length - (1 + 4 * (tx.length + 2))
  · rw [hwritten, if_pos hlast, if_neg (by omega), Option.bind_some, u16_of_le (by omega), hsize, List.drop_drop]
    rfl
  · rw [hwritten, if_neg hlast, if_pos (.inr (by omega))]
    rfl

theorem storeBytes_eq {outMax : Nat} (data out : Frame) : data.foldlM (streamPut1of4 outMax) out =
    if out.length + 4 * data.length ≤ outMax ∨ data = [] then some (out ++ oneOfFour.encodeAll data) else none := by
  induction data generalizing out with
  | nil =>
      rw [if_pos (.inr rfl), BlockCode.encodeAll_nil, List.append_nil]
      rfl
  | cons b data ih =>
      have hput : streamPut1of4 outMax out b = if out.length + 4 ≤ outMax then some
        (out ++ symbolsOf b) else none := rfl
      have hsymbols : (out ++ symbolsOf b).length = out.length + 4 := List.length_append
      rw [List.foldlM_cons, hput, List.length_cons]
      by_cases hroom : out.length + 4 ≤ outMax
      swap
      · rw [if_neg hroom, if_neg (not_or.mpr ⟨by omega, List.cons_ne_nil _ _⟩)]
        rfl
      rw [if_pos hroom, Option.bind_eq_bind, Option.bind_some, ih, hsymbols, BlockCode.encodeAll_cons,
        List.append_assoc]
      by_cases hall : out.length + 4 * (data.length + 1) ≤ outMax
      · rw [if_pos (.inl (by omega)), if_pos (.inl hall)]
        rfl
      · by_cases hdata : data = []
        · subst hdata
          exact absurd hall (by rw [List.length_nil]; omega)
        · rw [if_neg (not_or.mpr ⟨by omega, hdata⟩), if_neg (not_or.mpr ⟨hall, List.cons_ne_nil _ _⟩)]

/-- The coder of an exchange, with the positions as they are, leaves the frame that the buffer holds. -/
theorem streamEncode_eq (tx : Frame) {outMax : Nat} (hmax : outMax ≤ 0xFFFF) :
    streamEncode tx outMax = (streamEncodeInto tx (List.replicate outMax 0)).map fun sent => sent.1.take sent.2 := by
  have hsize := streamFrame_length tx
  rw [streamEncodeInto_eq (by rw [List.length_replicate]; exact hmax), List.length_replicate, streamEncode]
  by_cases hempty : tx.length = 0
  · rw [if_pos (.inl hempty), if_pos (.inl hempty), Option.map_none]
  by_cases hshort : outMax < crcLen
  · rw [if_pos (.inr hshort), if_pos (.inr (by rw [crcLen] at hshort; omega)), Option.map_none]
  have hdata : (tx ++ crcBytes tx).length = tx.length + 2 := by
    rw [List.length_append, crcBytes_length]
  have hsome : tx ++ crcBytes tx ≠ [] := by
    intro hnil
    rw [hnil] at hdata
    cases hdata
  have hwritten : ([streamSof1of4] ++ oneOfFour.encodeAll (tx ++ crcBytes tx)).length = 1 + 4 * (tx.length + 2) := by
    rw [List.length_append, List.length_singleton, BlockCode.encodeAll_length, hdata]
    rfl
  rw [crcLen] at hshort
  rw [if_neg (by rw [crcLen]; omega), store_eq (by rw [List.length_nil, List.length_singleton]; omega), List.nil_append,
    Option.bind_eq_bind, Option.bind_some, storeBytes_eq, hdata, List.length_singleton]
  by_cases hroom : 1 + 4 * (tx.length + 2) ≤ outMax
  swap
  · rw [if_neg (not_or.mpr ⟨hroom, hsome⟩), if_pos (.inr (by omega))]
    rfl
  rw [if_pos (.inl hroom), Option.bind_some, store, hwritten, List.length_singleton]
  by_cases hlast : 1 + 4 * (tx.length + 2) + 1 ≤ outMax
  · rw [if_pos hlast, if_neg (by omega), Option.map_some, List.take_left]
    rfl
  · rw [if_neg hlast, if_pos (.inr (by omega)), Option.map_none]

/-- **Transmit coding.** The coder succeeds exactly when there is a command and room for the start of frame, four
symbols for each byte of the command and its CRC, and the end of frame; the symbols are the command and its CRC again
when their pulses are read, and the buffer behind them is as it was. -/
theorem streamEncodeInto_correct (tx out : Frame) (hcap : out.length ≤ 0xFFFF) :
    ((streamEncodeInto tx out).isSome = true ↔ tx ≠ [] ∧ 1 + 4 * (tx.length + 2) + 1 ≤ out.length) ∧
      ∀ sent len, streamEncodeInto tx out = some (sent, len) →
        len = 1 + 4 * (tx.length + 2) + 1 ∧ readStreamFrame (sent.take len) = some (tx ++ crcBytes tx) ∧
          sent.drop len = out.drop len := by
  have hsize := streamFrame_length tx
  rw [streamEncodeInto_eq hcap]
  by_cases hfits : tx.length = 0 ∨ out.length < (streamFrame tx).length
  · rw [if_pos hfits]
    refine ⟨iff_of_false Bool.false_ne_true ?_, nofun⟩
    rintro ⟨hne, hroom⟩
    rcases hfits with hempty | hshort
    · exact hne (List.length_eq_zero_iff.mp hempty)
    · omega
  · obtain ⟨hne, hroom⟩ := not_or.mp hfits
    rw [if_neg hfits]
    refine ⟨iff_of_true rfl ⟨mt List.length_eq_zero_iff.mpr hne, by omega⟩, ?_⟩
    rintro _ _ ⟨⟩
    refine ⟨hsize, ?_, List.drop_left⟩
    rw [List.take_left]
    exact readStreamFrame_streamFrame tx

theorem streamEncodeInto_inventory :
    ((streamEncodeInto [0x26, 0x01, 0x00] (List.replicate 64 0)).isSome = true ↔
        ([0x26, 0x01, 0x00] : Frame) ≠ [] ∧ 1 + 4 * (3 + 2) + 1 ≤ (List.replicate 64 (0 : Byte)).length) ∧
      ∀ sent len, streamEncodeInto [0x26, 0x01, 0x00] (List.replicate 64 0) = some (sent, len) →
        len = 1 + 4 * (3 + 2) + 1 ∧ readStreamFrame (sent.take len) = some
          ([0x26, 0x01, 0x00] ++ crcBytes [0x26, 0x01, 0x00]) ∧
          sent.drop len = (List.replicate 64 (0 : Byte)).drop len :=
  streamEncodeInto_correct [0x26, 0x01, 0x00] (List.replicate 64 0) (by decide)

end NeroReader.Iso15693
