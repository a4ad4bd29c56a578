import NeroReader.Iso15693Stream
import NeroReader.RawFilterSafety
import NeroReader.TagCommands

/-!
READ MULTIPLE BLOCKS of a Type 5 tag through the front end. The block count is limited to 31 in the reader and in
the raw filter, the sample of an answer to 128 bytes in the front end; an answer of more than 15 blocks does not fit.
-/

namespace NeroReader.Iso15693

open BitStream Ndef Storage Tags

/-! ### The front end -/

def streamSof1of4 : Byte := 0x21
def streamEof1of4 : Byte := 0x04
def streamNibblesPerByte : Nat := 4
def dibitMask : Byte := 0x03

/-- The pulse of two bits. -/
def stream1of4 (dibit : Byte) : Byte :=
  if dibit = 0 then 0x02 else if dibit = 1 then 0x08 else if dibit = 2 then 0x20 else 0x80

/-- Bytes behind those of an output buffer, where it has room for them. -/
def store (outMax : Nat) (out bytes : Frame) : Option Frame :=
  if out.length + bytes.length ≤ outMax then some (out ++ bytes) else none

/-- `st25_iso15693_stream_put1of4`. -/
def streamPut1of4 (outMax : Nat) (out : Frame) (data : Byte) : Option Frame :=
  store outMax out ((List.range streamNibblesPerByte).map fun i => stream1of4 ((data >>> (2 * i)) &&& dibitMask))

/-- `st25_iso15693_stream_encode`. -/
def streamEncode (tx : Frame) (outMax : Nat) : Option Frame :=
  if tx.length = 0 ∨ outMax < crcLen then none
  else do
    let out ← store outMax [] [streamSof1of4]
    let out ← (tx ++ crcBytes tx).foldlM (streamPut1of4 outMax) out
    store outMax out [streamEof1of4]

/-- `nfc_frontend_iso15693_transceive`; `air` is what the chip has sampled behind a transmission, none where it
reports no end of reception. -/
def iso15693Transceive (air : Transceive) (tx : Frame) (rxMax : Nat) : Option Frame :=
  if tx.length = 0 ∨ rxMax = 0 then none
  else
    match streamEncode tx maxStreamFrame with
    | none => none
    | some encoded =>
        let raw := ((air encoded).getD []).take maxStreamFrame
        if raw.length = 0 then none else streamDecode raw rxMax

/-- The output buffer of `user_read_multiple`. -/
def readMultipleRxLen : Nat := 1 + Tags.readMultipleBlocksMax * t5UserBlockSize

/-- The command that `user_read_multiple` sends. -/
def userReadMultipleCommand (uid : Frame) (firstBlock blockCount : Word) : Frame :=
  if iso15693BlockAddr1ByteMax < firstBlock.toNat ∨ iso15693BlockAddr1ByteMax < (blockCount - 1).toNat then
    extReadMultipleCommand uid firstBlock (blockCount - 1)
  else readMultipleCommand uid (firstBlock.setWidth 8) ((blockCount - 1).setWidth 8)

/-! ### Encoding -/

theorem store_eq {outMax : Nat} {out bytes : Frame} (h : out.length + bytes.length ≤ outMax) :
    store outMax out bytes = some (out ++ bytes) := if_pos h

theorem put_bytes {n : Nat} (data out : Frame) (h : out.length + 4 * data.length ≤ n) :
    ∃ out', data.foldlM (streamPut1of4 n) out = some out' ∧ out'.length = out.length + 4 * data.length := by
  induction data generalizing out with
  | nil => exact ⟨out, rfl, rfl⟩
  | cons b rest ih =>
      rw [List.length_cons] at h
      have hput : ∃ mid, streamPut1of4 n out b = some mid ∧ mid.length = out.length + 4 :=
        ⟨_, store_eq (by simp [streamNibblesPerByte]; omega), by simp [streamNibblesPerByte]⟩
      obtain ⟨mid, hmid, hlen⟩ := hput
      obtain ⟨out', hrest, hout⟩ := ih mid (by omega)
      refine ⟨out', ?_, by rw [List.length_cons]; omega⟩
      rw [List.foldlM_cons, hmid]
      exact hrest

/-- A command with room in the output is encoded. -/
theorem streamEncode_some {tx : Frame} {n : Nat} (hne : tx.length ≠ 0) (h : 4 * (tx.length + 2) + 2 ≤ n) :
    ∃ encoded, streamEncode tx n = some encoded := by
  obtain ⟨out, hout, hlen⟩ := put_bytes (tx ++ crcBytes tx) [streamSof1of4] (n := n)
    (by rw [List.length_append, crcBytes_length, List.length_singleton]; omega)
  rw [List.length_append, crcBytes_length, List.length_singleton] at hlen
  refine ⟨out ++ [streamEof1of4], ?_⟩
  rw [streamEncode, if_neg (by rw [crcLen]; omega), store_eq (by rw [List.length_nil, List.length_singleton]; omega),
    List.nil_append]
  rw [Option.bind_eq_bind, Option.bind_some, hout, Option.bind_some]
  exact store_eq (by rw [List.length_singleton]; omega)

/-! ### One exchange -/

/-- The tag answers this command with the flags of a response that is no error, the data of these blocks and their
CRC, and the chip samples the whole frame. -/
structure AnswersBlocks (air : Transceive) (memory : Nat → Byte) (cmd : Frame) (first count : Nat) (flags : Byte)
    (sample : Frame) : Prop where
  noError : flags &&& iso15693RespFlagError = 0
  frame : bitsOf sample = viccFrame (flags :: bytesAt memory (4 * first) (4 * count))
  sampled : ∀ encoded, streamEncode cmd maxStreamFrame = some encoded → air encoded = some sample

section Exchange

variable {air : Transceive} {memory : Nat → Byte} {cmd sample : Frame} {first count rxMax : Nat} {flags : Byte}

theorem AnswersBlocks.sample_length (h : AnswersBlocks air memory cmd first count flags sample) :
    sample.length = 8 * count + 8 := by
  have hlen := congrArg List.length h.frame
  rw [bitsOf_length, viccFrame_length, List.length_cons, bytesAt_length] at hlen
  omega

/-- **What the front end decodes fits its buffer.** -/
theorem transceive_length {rx : Frame} (h : iso15693Transceive air cmd rxMax = some rx) : rx.length ≤ 61 := by
  rw [iso15693Transceive, Option.ite_none_left_eq_some] at h
  replace h := h.2
  split at h
  · cases h
  dsimp only at h
  rw [Option.ite_none_left_eq_some] at h
  obtain ⟨-, -, hmax, hframe⟩ := streamDecode_sound h.2
  have hlen := hframe.length_le
  rw [viccFrame_length, bitsOf_length] at hlen
  have hmax : _ ≤ 128 := hmax
  omega

/-- An answer of up to fifteen blocks is decoded. -/
theorem AnswersBlocks.transceive (h : AnswersBlocks air memory cmd first count flags sample) (hcount : count ≤ 15)
    (hne : cmd.length ≠ 0) (hcmd : cmd.length ≤ 29) (hrx : 1 + 4 * count ≤ rxMax) :
    iso15693Transceive air cmd rxMax = some (flags :: bytesAt memory (4 * first) (4 * count)) := by
  obtain ⟨encoded, hencoded⟩ := streamEncode_some (n := maxStreamFrame) hne (by rw [maxStreamFrame]; omega)
  have hlen := h.sample_length
  have hraw : sample.take maxStreamFrame = sample := List.take_of_length_le (by rw [maxStreamFrame]; omega)
  rw [iso15693Transceive, if_neg (by omega), hencoded]
  dsimp only
  rw [h.sampled encoded hencoded, Option.getD_some, hraw, if_neg (by omega)]
  refine streamDecode_complete (List.cons_ne_nil _ _) ?_ (by rw [maxStreamFrame]; omega) (h.frame ▸ List.prefix_refl _)
  rw [List.length_cons, bytesAt_length]
  omega

/-- **The front end and the limit.** The answer fits the raw buffer and is decoded to its data exactly when it has
no more than fifteen blocks. -/
theorem AnswersBlocks.transceive_iff (h : AnswersBlocks air memory cmd first count flags sample)
    (hne : cmd.length ≠ 0) (hcmd : cmd.length ≤ 29) (hrx : 1 + 4 * count ≤ rxMax) :
    sample.length ≤ maxStreamFrame ∧
        iso15693Transceive air cmd rxMax = some (flags :: bytesAt memory (4 * first) (4 * count)) ↔ count ≤ 15 := by
  have hlen := h.sample_length
  constructor
  · rintro ⟨hfit, -⟩
    rw [maxStreamFrame] at hfit
    omega
  · intro hcount
    exact ⟨by rw [maxStreamFrame]; omega, h.transceive hcount hne hcmd hrx⟩

end Exchange

/-! ### The reader's read -/

theorem userReadMultiple_eq (transceive : Transceive) (uid : Frame) {firstBlock blockCount : Word} {bufCap : Nat}
    (hzero : blockCount ≠ 0) (hmax : blockCount.toNat ≤ Tags.readMultipleBlocksMax)
    (hcap : blockCount.toNat * t5UserBlockSize ≤ bufCap) :
    userReadMultiple transceive uid firstBlock blockCount bufCap =
      answerData (transceive (userReadMultipleCommand uid firstBlock blockCount)) (blockCount.toNat * t5UserBlockSize)
        (blockCount.toNat * t5UserBlockSize) := by
  rw [userReadMultiple, if_neg (by rintro (h | h); exacts [hzero h, by omega])]
  dsimp only
  rw [if_neg (by omega), userReadMultipleCommand]

theorem userReadMultipleCommand_length (uid : Frame) (firstBlock blockCount : Word) :
    uid.length + 4 ≤ (userReadMultipleCommand uid firstBlock blockCount).length ∧
      (userReadMultipleCommand uid firstBlock blockCount).length ≤ uid.length + 6 := by
  rw [userReadMultipleCommand]
  split
  · simp [extReadMultipleCommand]
  · simp [readMultipleCommand]

theorem answerData_some {rx : Frame} {flags : Byte} {n : Nat} (hflags : flags &&& iso15693RespFlagError = 0)
    (hlen : rx.length = n) : answerData (some (flags :: rx)) n n = some rx := by
  rw [answerData, Option.bind_some, u8At_cons_zero, List.length_cons, List.drop_succ_cons, List.drop_zero,
    if_neg (by rintro (h | h); exacts [by omega, h hflags]), List.take_of_length_le (Nat.le_of_eq hlen)]

/-- A longer answer than the front end can decode is refused. -/
theorem answerData_none {air : Transceive} {cmd : Frame} {rxMax n : Nat} (hn : 61 ≤ n) :
    answerData (iso15693Transceive air cmd rxMax) n n = none := by
  cases hrx : iso15693Transceive air cmd rxMax with
  | none => rfl
  | some rx =>
      have hlen := transceive_length hrx
      rw [answerData, Option.bind_some, if_pos (Or.inl (by omega))]

/-- The reader's read of several blocks brings them exactly when there are no more than fifteen. -/
theorem userReadMultiple_iff {air : Transceive} {memory : Nat → Byte} {flags : Byte} {sample uid : Frame}
    {firstBlock blockCount : Word} {bufCap : Nat} (huid : uid.length = 8) (hzero : blockCount ≠ 0)
    (hmax : blockCount.toNat ≤ Tags.readMultipleBlocksMax) (hcap : blockCount.toNat * t5UserBlockSize ≤ bufCap)
    (h : AnswersBlocks air memory (userReadMultipleCommand uid firstBlock blockCount) firstBlock.toNat blockCount.toNat
      flags sample) :
    sample.length ≤ maxStreamFrame ∧
        userReadMultiple (iso15693Transceive air · readMultipleRxLen) uid firstBlock blockCount bufCap =
          some (bytesAt memory (4 * firstBlock.toNat) (4 * blockCount.toNat)) ↔ blockCount.toNat ≤ 15 := by
  obtain ⟨hshort, hlong⟩ := userReadMultipleCommand_length uid firstBlock blockCount
  rw [userReadMultiple_eq _ uid hzero hmax hcap]
  constructor
  · rintro ⟨hfit, -⟩
    have hlen := h.sample_length
    rw [maxStreamFrame] at hfit
    omega
  · intro hcount
    have hrx : 1 + 4 * blockCount.toNat ≤ readMultipleRxLen := by
      rw [readMultipleRxLen, Tags.readMultipleBlocksMax, t5UserBlockSize]
      omega
    obtain ⟨hfit, hdecoded⟩ := (h.transceive_iff (by omega) (by omega) hrx).mpr hcount
    refine ⟨hfit, ?_⟩
    rw [hdecoded]
    apply answerData_some h.noError
    rw [bytesAt_length, t5UserBlockSize, Nat.mul_comm]

/-! ### The host's read -/

/-- A READ MULTIPLE that the raw filter lets through is a complete request. -/
theorem raw_multiple {tag : Tag} {tx : Buffer Byte} (h : (tag.type5RawTransceiveAllowed tx).value = true)
    (hop : tx.mem 1 = rawT5ReadMultiple ∨ tx.mem 1 = rawT5ExtReadMultiple) :
    ∃ (r : Type5Request) (c : BlockCommand), tx.contents = r.encode ∧ r.command = .block c ∧ r.ReadOnly tag := by
  have hcut : ¬Tag.CutInventory tag tx := by
    rintro ⟨-, -, hinventory, -⟩
    rw [hinventory] at hop
    exact absurd hop (by decide)
  obtain ⟨r, hcontents, hreadOnly⟩ := Tag.type5RawTransceiveAllowed_spec h hcut
  have hlen : 2 ≤ tx.len := by
    have hsize := congrArg List.length hcontents
    rw [Buffer.contents, Buffer.slice_length] at hsize
    rw [hsize, Type5Request.encode]
    split <;> simp
  have hsecond : tx.mem 1 = u8At r.encode 1 := by
    rw [← hcontents, Tag.contents_eq_cons hlen, u8At_cons_succ, u8At_cons_zero]
  rw [hsecond, Type5Request.encode] at hop
  cases hcommand : r.command with
  | block c => exact ⟨r, c, hcontents, hcommand, hreadOnly⟩
  | inventory afi maskLen mask =>
      rw [hcommand] at hop
      exact absurd hop (by simp [rawT5ReadMultiple, rawT5ExtReadMultiple])
  | getSysInfo =>
      rw [hcommand] at hop
      exact absurd hop (by simp [rawT5ReadMultiple, rawT5ExtReadMultiple])
  | extGetSysInfo param =>
      rw [hcommand] at hop
      exact absurd hop (by simp [rawT5ReadMultiple, rawT5ExtReadMultiple])

theorem block_encode_length {r : Type5Request} {c : BlockCommand} (hcommand : r.command = .block c) (h : r.Complete) :
    r.encode.length ≠ 0 ∧ r.encode.length ≤ 14 := by
  rw [Type5Request.Complete, hcommand] at h
  have huid : r.uid.length ≤ 8 := by
    rw [h]
    split <;> omega
  have hfields : c.fields.length ≤ 4 := by cases c <;> simp [BlockCommand.fields]
  rw [Type5Request.encode, hcommand]
  simp only [List.length_cons, List.length_append]
  omega

/-- **Reads of several blocks and the raw buffer.** Whatever the blocks hold, a correct answer of the tag fits the
front end's raw buffer, is decoded and brings exactly the data of the blocks if and only if there are no more than
fifteen: of those that the reader's own read admits, and of those that the raw filter lets through. -/
theorem multiple_reads_delivered_iff (air : Transceive) (memory : Nat → Byte) (flags : Byte) (sample : Frame) :
    (∀ (uid : Vector Byte 8) (firstBlock blockCount : Word) (bufCap : Nat), blockCount ≠ 0 →
      blockCount.toNat ≤ Tags.readMultipleBlocksMax → blockCount.toNat * t5UserBlockSize ≤ bufCap →
      AnswersBlocks air memory (userReadMultipleCommand uid.toList firstBlock blockCount) firstBlock.toNat
        blockCount.toNat flags sample →
      (sample.length ≤ maxStreamFrame ∧
        userReadMultiple (iso15693Transceive air · readMultipleRxLen) uid.toList firstBlock blockCount bufCap =
          some (bytesAt memory (4 * firstBlock.toNat) (4 * blockCount.toNat)) ↔ blockCount.toNat ≤ 15)) ∧
    ∀ (tag : Tag) (tx : Buffer Byte), (tag.type5RawTransceiveAllowed tx).value = true →
      (tx.mem 1 = rawT5ReadMultiple ∨ tx.mem 1 = rawT5ExtReadMultiple) →
      ∃ (r : Type5Request) (c : BlockCommand), tx.contents = r.encode ∧ r.command = .block c ∧
        ∀ rxMax, 1 + 4 * c.count ≤ rxMax → AnswersBlocks air memory tx.contents c.first c.count flags sample →
          (sample.length ≤ maxStreamFrame ∧
            iso15693Transceive air tx.contents rxMax = some (flags :: bytesAt memory (4 * c.first) (4 * c.count)) ↔
              c.count ≤ 15) := by
  refine ⟨fun uid firstBlock blockCount bufCap hzero hmax hcap h => ?_, fun tag tx hallowed hop => ?_⟩
  · exact userReadMultiple_iff (Vector.length_toList) hzero hmax hcap h
  · obtain ⟨r, c, hcontents, hcommand, hreadOnly⟩ := raw_multiple hallowed hop
    refine ⟨r, c, hcontents, hcommand, fun rxMax hrx h => ?_⟩
    obtain ⟨hne, hlen⟩ := block_encode_length hcommand hreadOnly.complete
    rw [← hcontents] at hne hlen
    exact h.transceive_iff hne (by omega) hrx

theorem multiple_reads_delivered_one :
    ∃ sample, AnswersBlocks (fun _ => some sample) (fun _ => 0x00)
        (userReadMultipleCommand (Vector.replicate 8 0x00).toList 0 1) 0 1 0x00 sample ∧
      userReadMultiple (iso15693Transceive (fun _ => some sample) · readMultipleRxLen)
        (Vector.replicate 8 0x00).toList 0 1
        4 = some [0x00, 0x00, 0x00, 0x00] := by
  obtain ⟨sample, hsample⟩ := exists_bytes _ (viccFrame_length (0x00 :: bytesAt (fun _ => 0x00) 0 4))
  have hanswers : AnswersBlocks (fun _ => some sample) (fun _ => 0x00)
      (userReadMultipleCommand (Vector.replicate 8 0x00).toList 0 1) 0 1 0x00 sample :=
      ⟨by decide, hsample, fun _ _ => rfl⟩
  have hread := (multiple_reads_delivered_iff (fun _ => some sample) (fun _ => 0x00) 0x00 sample).1
    (Vector.replicate 8 0x00) 0 1 4 (by decide) (by decide) (by decide) hanswers
  exact ⟨sample, hanswers, (hread.mpr (by decide)).2⟩

/-- Sixteen blocks are admitted, and a correct answer is refused. -/
theorem sixteen_blocks_refused :
    ∃ sample, AnswersBlocks (fun _ => some sample) (fun _ => 0x00)
        (userReadMultipleCommand (List.replicate 8 0x00) 0 16) 0 16 0x00 sample ∧
      userReadMultiple (iso15693Transceive (fun _ => some sample) · readMultipleRxLen) (List.replicate 8 0x00) 0 16 64 =
        none := by
  obtain ⟨sample, hsample⟩ := exists_bytes _ (viccFrame_length (0x00 :: bytesAt (fun _ => 0x00) 0 64))
  refine ⟨sample, ⟨by decide, hsample, fun _ _ => rfl⟩, ?_⟩
  rw [userReadMultiple_eq _ _ (by decide) (by decide) (by decide)]
  exact answerData_none (by decide)

end NeroReader.Iso15693
