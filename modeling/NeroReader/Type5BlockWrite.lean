import NeroReader.FilledBuffer
import NeroReader.TagWrites

/-!
The block writes of a Type 5 tag with the buffer their commands are built in. `st25_iso15693_write_block` and
`st25_iso15693_ext_write_block` store flags, opcode, UID, block number and data one after the other into sixteen
bytes; their guards admit eight bytes of data. What is sent is the command of the exchange; where the stores fall is a
matter of the header in front of the data.
-/

namespace NeroReader.Tags

open Ndef Storage

def writeCmdCap : Nat := 16
def st25Iso15693UidLen : Nat := 8

/-- A request to the front end: a write command from its buffer, or any other. -/
inductive BlockRequest where
  | write (cmd : FilledBuffer Byte)
  | other (request : Request)

/-- What the front end sends. -/
def BlockRequest.sent : BlockRequest → Request
  | .write cmd => .command cmd.contents
  | .other request => request

abbrev BlockExchange := Dialogue BlockRequest (Option Frame)

/-! ### The functions -/

/-- The loop over the UID, most significant byte last. -/
def pushUid (uid : Vector Byte 8) (cmd : FilledBuffer Byte) : FilledBuffer Byte :=
  (List.range st25Iso15693UidLen).foldl (fun cmd i => cmd.push (u8At uid.toList (st25Iso15693UidLen - 1 - i))) cmd

def pushData (data : Frame) (cmd : FilledBuffer Byte) : FilledBuffer Byte :=
  (List.range data.length).foldl (fun cmd i => cmd.push (u8At data i)) cmd

/-- The buffer of a write command: the header, the block field, and the data. -/
def writeCommandBuffer (mem : Nat → Byte) (flags opcode : Byte) (uid : Vector Byte 8) (blockField data : Frame) :
    FilledBuffer Byte :=
  let cmd := ((FilledBuffer.fresh mem).push flags).push opcode
  let cmd := pushUid uid cmd
  let cmd := blockField.foldl (fun cmd b => cmd.push b) cmd
  pushData data cmd

/-- A write command from its buffer and the tag's word on it. -/
def writeFromBuffer (cmd : FilledBuffer Byte) (data : Frame) : BlockExchange Bool :=
  if data.length = 0 ∨ iso15693MaxBlockData < data.length then pure false
  else
    .ask (.write cmd) fun answer => pure (match answer with
      | none => false
      | some rx => decide (1 ≤ rx.length) && u8At rx 0 &&& iso15693RespFlagError == 0)

section Functions

variable (mem : Nat → Byte) (uid : Vector Byte 8) (data : Frame)

/-- `st25_iso15693_write_block`. -/
def st25Iso15693WriteBlock (blockAddr : Byte) : BlockExchange Bool :=
  writeFromBuffer (writeCommandBuffer mem iso15693FlagsAddressed iso15693CmdWriteSingleBlock uid [blockAddr] data) data

/-- `st25_iso15693_ext_write_block`. -/
def st25Iso15693ExtWriteBlock (blockAddr : Word) : BlockExchange Bool :=
  writeFromBuffer (writeCommandBuffer mem (iso15693FlagsAddressed ||| iso15693FlagProtocolExtension)
    iso15693CmdExtWriteSingle uid [blockAddr.setWidth 8, (blockAddr >>> 8).setWidth 8] data) data

/-- `reader_tags_iso15693_user_write`. -/
def readerTagsIso15693UserWrite (block : Word) : BlockExchange Bool :=
  (if block.toNat ≤ iso15693BlockAddr1ByteMax then st25Iso15693WriteBlock mem uid data (block.setWidth 8)
    else pure false) >>= fun ok =>
    if ok then pure true else st25Iso15693ExtWriteBlock mem uid data block

/-- `reader_tags_type5_write_block`. -/
def readerTagsType5WriteBlock (block : Word) : BlockExchange Bool :=
  if data.length = 0 ∨ sysInfoUidFieldLen < data.length then pure false
  else
    readerTagsIso15693UserWrite mem uid data block >>= fun written =>
      if written then
        (readBlock uid.toList block).mapRequest .other >>= fun verify => pure (verifies data verify)
      else pure false

end Functions

/-! ### What is in the buffer -/

theorem map_u8At_reverse (bytes : Frame) {n : Nat} (h : bytes.length = n) :
    (List.range n).map (fun i => u8At bytes (n - 1 - i)) = bytes.reverse := by
  apply List.ext_getElem
  · rw [List.length_map, List.length_range, List.length_reverse, h]
  · intro i hi hrev
    rw [List.length_map, List.length_range] at hi
    rw [List.getElem_map, List.getElem_range, List.getElem_reverse, u8At, List.getD_eq_getElem?_getD,
      List.getElem?_eq_getElem (show n - 1 - i < bytes.length by omega), Option.getD_some]
    congr 1
    omega

theorem map_u8At (bytes : Frame) : (List.range bytes.length).map (u8At bytes) = bytes := by
  apply List.ext_getElem
  · rw [List.length_map, List.length_range]
  · intro i hi hlist
    rw [List.getElem_map, List.getElem_range, u8At, List.getD_eq_getElem?_getD, List.getElem?_eq_getElem hlist,
      Option.getD_some]

section Contents

variable {mem : Nat → Byte} {flags opcode : Byte} {uid : Vector Byte 8} {blockField data : Frame}

theorem writeCommandBuffer_contents : (writeCommandBuffer mem flags opcode uid blockField data).contents =
    [flags, opcode] ++ uid.toList.reverse ++ blockField ++ data := by
  have huid : (List.range st25Iso15693UidLen).map
      (fun i => u8At uid.toList (st25Iso15693UidLen - 1 - i)) = uid.toList.reverse :=
    map_u8At_reverse uid.toList Vector.length_toList
  have hfield : ∀ cmd : FilledBuffer Byte, (blockField.foldl (fun cmd b => cmd.push b) cmd).contents =
      cmd.contents ++ blockField := by
    intro cmd
    have hfold := FilledBuffer.contents_foldl id blockField cmd
    rwa [List.map_id] at hfold
  rw [writeCommandBuffer, pushData, FilledBuffer.contents_foldl, map_u8At, hfield, pushUid, FilledBuffer.contents_foldl,
    huid, FilledBuffer.contents_push, FilledBuffer.contents_push, FilledBuffer.contents_fresh]
  rfl

theorem writeCommandBuffer_inOrder : (writeCommandBuffer mem flags opcode uid blockField data).InOrder := by
  rw [writeCommandBuffer, pushData]
  apply FilledBuffer.InOrder.foldl
  apply FilledBuffer.InOrder.foldl id
  apply FilledBuffer.InOrder.foldl
  exact ((FilledBuffer.inOrder_fresh mem).push flags).push opcode

theorem writeCommandBuffer_inside_iff : (writeCommandBuffer mem flags opcode uid blockField data).Inside writeCmdCap ↔
    10 + blockField.length + data.length ≤ 16 := by
  rw [writeCommandBuffer_inOrder.inside_iff, writeCommandBuffer_contents]
  simp only [List.length_append, List.length_reverse, Vector.length_toList, List.length_cons, List.length_nil,
    writeCmdCap]

end Contents

/-! ### What is sent -/

section Sent

variable (mem : Nat → Byte) (uid : Vector Byte 8) (data : Frame)

theorem writeFromBuffer_sent (cmd : FilledBuffer Byte) :
    (writeFromBuffer cmd data).mapRequest BlockRequest.sent = sendWrite cmd.contents data := by
  rw [writeFromBuffer, sendWrite]
  split
  · rfl
  · rfl

theorem st25Iso15693WriteBlock_sent (blockAddr : Byte) :
    (st25Iso15693WriteBlock mem uid data blockAddr).mapRequest BlockRequest.sent =
      sendWrite (writeBlockCommand uid.toList blockAddr data) data := by
  rw [st25Iso15693WriteBlock, writeFromBuffer_sent, writeCommandBuffer_contents, writeBlockCommand]

theorem st25Iso15693ExtWriteBlock_sent (blockAddr : Word) :
    (st25Iso15693ExtWriteBlock mem uid data blockAddr).mapRequest BlockRequest.sent =
      sendWrite (extWriteBlockCommand uid.toList blockAddr data) data := by
  rw [st25Iso15693ExtWriteBlock, writeFromBuffer_sent, writeCommandBuffer_contents, extWriteBlockCommand]

/-- With its buffers the write of a block is the exchange of the reader. -/
theorem readerTagsType5WriteBlock_sent (block : Word) :
    (readerTagsType5WriteBlock mem uid data block).mapRequest BlockRequest.sent =
    type5WriteBlock uid.toList block data := by
  rw [readerTagsType5WriteBlock, type5WriteBlock]
  split
  · rfl
  rw [Dialogue.mapRequest_bind, readerTagsIso15693UserWrite, userWrite, Dialogue.mapRequest_bind]
  have hfirst : (if block.toNat ≤ iso15693BlockAddr1ByteMax then
      st25Iso15693WriteBlock mem uid data (block.setWidth 8) else pure false).mapRequest BlockRequest.sent =
      (if block.toNat ≤ iso15693BlockAddr1ByteMax then
        sendWrite (writeBlockCommand uid.toList (block.setWidth 8) data) data else pure false) := by
    split
    · exact st25Iso15693WriteBlock_sent mem uid data _
    · rfl
  rw [hfirst]
  congr 1
  · congr 1
    funext ok
    split
    · rfl
    · exact st25Iso15693ExtWriteBlock_sent mem uid data block
  · funext written
    split
    · rw [Dialogue.mapRequest_bind, Dialogue.mapRequest_mapRequest _ _ fun _ => rfl]
      rfl
    · rfl

end Sent

/-! ### Where the stores fall -/

/-- A write command with this layout, every store of which is inside its buffer. -/
def BlockRequest.Built (layouts : List Frame) : BlockRequest → Prop
  | .write cmd => cmd.contents ∈ layouts ∧ cmd.Inside writeCmdCap
  | .other _ => True

section Stores

variable {mem : Nat → Byte} {uid : Vector Byte 8} {data : Frame}

theorem writeFromBuffer_asks_iff {cmd : FilledBuffer Byte} {allowed : BlockRequest → Prop} :
    (writeFromBuffer cmd data).Asks allowed ↔
      (data.length = 0 ∨ iso15693MaxBlockData < data.length) ∨ allowed (.write cmd) := by
  rw [writeFromBuffer]
  split
  · rename_i hguard
    exact iff_of_true trivial (.inl hguard)
  · rename_i hguard
    rw [or_iff_right hguard]
    exact and_iff_left fun _ => trivial

theorem st25Iso15693WriteBlock_stays_iff (blockAddr : Byte) :
    (st25Iso15693WriteBlock mem uid data blockAddr).Asks
        (BlockRequest.Built [writeBlockCommand uid.toList blockAddr data]) ↔
      data.length ≤ 5 ∨ 8 < data.length := by
  rw [st25Iso15693WriteBlock, writeFromBuffer_asks_iff, iso15693MaxBlockData, BlockRequest.Built,
    writeCommandBuffer_contents, writeCommandBuffer_inside_iff, List.length_singleton, writeBlockCommand]
  rw [and_iff_right (List.mem_singleton.mpr rfl)]
  omega

theorem st25Iso15693ExtWriteBlock_stays_iff (blockAddr : Word) :
    (st25Iso15693ExtWriteBlock mem uid data blockAddr).Asks
        (BlockRequest.Built [extWriteBlockCommand uid.toList blockAddr data]) ↔
      data.length ≤ 4 ∨ 8 < data.length := by
  rw [st25Iso15693ExtWriteBlock, writeFromBuffer_asks_iff, iso15693MaxBlockData, BlockRequest.Built,
    writeCommandBuffer_contents, writeCommandBuffer_inside_iff, extWriteBlockCommand]
  rw [and_iff_right (List.mem_singleton.mpr rfl), List.length_cons, List.length_singleton]
  omega

/-- The tag may refuse a write, and a write that the guard turns away is refused too. -/
theorem asks_refused {cmd : FilledBuffer Byte} {allowed : BlockRequest → Prop} {next : Bool → BlockExchange Bool}
    (h : (writeFromBuffer cmd data >>= next).Asks allowed) : (next false).Asks allowed := by
  rw [writeFromBuffer] at h
  split at h
  · exact h
  · exact h.2 none

/-- Both commands a block write may come to. -/
def blockWriteLayouts (uid : Vector Byte 8) (block : Word) (data : Frame) : List Frame :=
  [writeBlockCommand uid.toList (block.setWidth 8) data, extWriteBlockCommand uid.toList block data]

theorem readerTagsType5WriteBlock_stays_iff (block : Word) :
    (readerTagsType5WriteBlock mem uid data block).Asks (BlockRequest.Built (blockWriteLayouts uid block data)) ↔
      data.length ≤ 4 ∨ 8 < data.length := by
  have hext : (st25Iso15693ExtWriteBlock mem uid data block).Asks
      (BlockRequest.Built (blockWriteLayouts uid block data)) ↔ data.length ≤ 4 ∨ 8 < data.length := by
    rw [st25Iso15693ExtWriteBlock, writeFromBuffer_asks_iff, iso15693MaxBlockData, BlockRequest.Built,
      writeCommandBuffer_contents, writeCommandBuffer_inside_iff, blockWriteLayouts, extWriteBlockCommand]
    rw [and_iff_right (List.mem_cons_of_mem _ (List.mem_singleton.mpr rfl)), List.length_cons, List.length_singleton]
    omega
  constructor
  · intro h
    rw [readerTagsType5WriteBlock, sysInfoUidFieldLen] at h
    split at h
    · omega
    have hwrite := h.of_bind
    rw [readerTagsIso15693UserWrite] at hwrite
    split at hwrite
    · exact hext.mp (asks_refused hwrite)
    · exact hext.mp hwrite
  · intro hlen
    rw [readerTagsType5WriteBlock, sysInfoUidFieldLen]
    split
    · exact trivial
    apply Dialogue.asks_bind
    · rw [readerTagsIso15693UserWrite]
      apply Dialogue.asks_bind
      · split
        · rw [st25Iso15693WriteBlock, writeFromBuffer_asks_iff, iso15693MaxBlockData, BlockRequest.Built,
            writeCommandBuffer_contents, writeCommandBuffer_inside_iff, blockWriteLayouts, writeBlockCommand]
          refine hlen.elim (fun hshort => .inr ⟨List.mem_cons_self, ?_⟩) fun hlong => .inl (.inr hlong)
          rw [List.length_singleton]
          omega
        · exact trivial
      · intro ok
        split
        · exact trivial
        · exact hext.mpr hlen
    · intro written
      split
      · apply Dialogue.asks_bind
        · rw [Dialogue.asks_mapRequest]
          exact Dialogue.asks_of_forall (fun _ => trivial) _
        · intro verify
          exact trivial
      · exact trivial

end Stores

/-! ### The three functions -/

/-- Whatever the stack held and whatever the tag answers, each of the three functions sends the command of its layout
and stores inside its buffer. -/
structure WritesStay (uid : Vector Byte 8) (block : Word) (data : Frame) : Prop where
  short : ∀ mem, (st25Iso15693WriteBlock mem uid data (block.setWidth 8)).Asks
    (BlockRequest.Built [writeBlockCommand uid.toList (block.setWidth 8) data])
  extended : ∀ mem, (st25Iso15693ExtWriteBlock mem uid data block).Asks
    (BlockRequest.Built [extWriteBlockCommand uid.toList block data])
  reader : ∀ mem, (readerTagsType5WriteBlock mem uid data block).Asks
    (BlockRequest.Built (blockWriteLayouts uid block data))

/-- **Block writes and their buffer.** Up to four bytes of data fit behind either header; of the lengths the guards
admit, the other four do not. -/
theorem writesStay_iff (uid : Vector Byte 8) (block : Word) (data : Frame) :
    WritesStay uid block data ↔ data.length ≤ 4 ∨ 8 < data.length := by
  constructor
  · intro h
    exact (st25Iso15693ExtWriteBlock_stays_iff block).mp (h.extended fun _ => 0)
  · intro hlen
    refine ⟨fun mem => ?_, fun mem => ?_, fun mem => ?_⟩
    · exact (st25Iso15693WriteBlock_stays_iff _).mpr (by omega)
    · exact (st25Iso15693ExtWriteBlock_stays_iff block).mpr hlen
    · exact (readerTagsType5WriteBlock_stays_iff block).mpr hlen

/-- Eight bytes of data behind the long header are stored up to offset 19. -/
theorem eightBytes_leave_buffer :
    ¬WritesStay #v[0xE0, 0x02, 0x08, 1, 2, 3, 4, 5] 0x100 [0xA0, 0xA1, 0xA2, 0xA3, 0xA4, 0xA5, 0xA6, 0xA7] ∧
      19 ∈ (writeCommandBuffer (fun _ => 0) 0x2A 0x31 #v[0xE0, 0x02, 0x08, 1, 2, 3, 4, 5] [0x00, 0x01]
        [0xA0, 0xA1, 0xA2, 0xA3, 0xA4, 0xA5, 0xA6, 0xA7]).stores := by
  refine ⟨fun h => ?_, by decide⟩
  have hlen := (st25Iso15693ExtWriteBlock_stays_iff 0x100).mp (h.extended fun _ => 0)
  exact absurd hlen (by decide)

end NeroReader.Tags
