import NeroReader.Dialogue
import NeroReader.FastRead
import NeroReader.FileUpdate

/-!
Writing a Type 2 or a Type 5 tag unit by unit. A page or a block is written by its command and read back, and the
write counts only when the tag returns the data. A message TLV takes the units from a first one on; the last one is
filled up with zeros.
-/

namespace NeroReader.Tags

open Ndef Storage
open FileUpdate (File Has AgreeOutside)

def ntagCmdWrite : Byte := 0xA2
def t2tAckNibbleMask : Byte := 0x0F
def t2tAckNibble : Byte := 0x0A
def readerType2WriteAttempts : Nat := 3
def iso15693CmdWriteSingleBlock : Byte := 0x21
def iso15693CmdExtWriteSingle : Byte := 0x31
def iso15693MaxBlockData : Nat := 8
def sysInfoUidFieldLen : Nat := 8

/-- What is asked of the front end: to activate the tag again, or a command to it. -/
inductive Request where
  | activate
  | command (cmd : Frame)

/-- An exchange with a tag; no answer where the front end reports an error. -/
abbrev RfExchange := Dialogue Request (Option Frame)

def send (cmd : Frame) : RfExchange (Option Frame) := .ask (.command cmd) .done

/-- `reader_protocol_activate_iso14443a`. -/
def activateIso14443a : RfExchange Bool := .ask .activate fun answer => .done answer.isSome

/-- What was read back are the data. -/
def verifies (data : Frame) (readBack : Option Frame) : Bool :=
  match readBack with
  | none => false
  | some rx => decide (data.length ≤ rx.length) && rx.take data.length == data

/-! ### Pages -/

def ntagWriteCommand (page : Byte) (data : Frame) : Frame := [ntagCmdWrite, page] ++ data

/-- `reader_tags_ntag_read_page`, as an exchange. -/
def readPage (page : Byte) : RfExchange (Option Frame) := do
  let answer ← send (ntagReadCommand page)
  return answer.map (·.take t2tReadRespBytes)

/-- `reader_tags_ntag_write_page`. -/
def ntagWritePage (page : Byte) (data : Frame) : RfExchange Bool := do
  let answer ← send (ntagWriteCommand page (data.take t2tPageSizeBytes))
  return match answer with
    | none => false
    | some rx => decide (1 ≤ rx.length) && u8At rx 0 &&& t2tAckNibbleMask == t2tAckNibble

def type2WriteAttemptNeedsActivation (attempt : Nat) : Bool := attempt != 0

/-- The attempts of `reader_tags_type2_write_page`. -/
def type2WritePageFrom (page : Byte) (data : Frame) : List Nat → RfExchange Bool
  | [] => pure false
  | attempt :: attempts =>
      (if type2WriteAttemptNeedsActivation attempt then activateIso14443a else pure true) >>= fun ready =>
        if ready then
          ntagWritePage page data >>= fun _ =>
            readPage page >>= fun verify =>
              if verifies (data.take t2tPageSizeBytes) verify then pure true else type2WritePageFrom page data attempts
        else type2WritePageFrom page data attempts

/-- `reader_tags_type2_write_page`. -/
def type2WritePage (page : Byte) (data : Frame) : RfExchange Bool :=
  type2WritePageFrom page data (List.range readerType2WriteAttempts)

/-- `reader_tags_type2_write_unit`. -/
def type2WriteUnit (unit : Word) (data : Frame) : RfExchange Bool :=
  if data.length ≠ type2UnitSize.toNat ∨ 0xFF < unit.toNat then pure false
  else type2WritePage (unit.setWidth 8) data

/-! ### Blocks -/

def writeBlockCommand (uid : Frame) (block : Byte) (data : Frame) : Frame :=
  [iso15693FlagsAddressed, iso15693CmdWriteSingleBlock] ++ uid.reverse ++ [block] ++ data

def extWriteBlockCommand (uid : Frame) (block : Word) (data : Frame) : Frame :=
  [iso15693FlagsAddressed ||| iso15693FlagProtocolExtension, iso15693CmdExtWriteSingle] ++ uid.reverse ++
    [block.setWidth 8, (block >>> 8).setWidth 8] ++ data

/-- `reader_tags_iso15693_user_read`, as an exchange. -/
def readBlock (uid : Frame) (block : Word) : RfExchange (Option Frame) :=
  (if block.toNat ≤ iso15693BlockAddr1ByteMax then
      send (readBlockCommand uid (block.setWidth 8)) >>= fun answer =>
        pure (answerData answer (iso15693MinStatusRx - 1) t5UserBlockSize)
    else pure none) >>= fun short =>
    match short with
    | some data => pure (some data)
    | none =>
        send (extReadBlockCommand uid block) >>= fun answer =>
          pure (answerData answer (iso15693MinStatusRx - 1) t5UserBlockSize)

/-- A write command and the tag's word on it, as `st25_iso15693_write_block` and its extended form have it. -/
def sendWrite (cmd : Frame) (data : Frame) : RfExchange Bool :=
  if data.length = 0 ∨ iso15693MaxBlockData < data.length then pure false
  else do
    let answer ← send cmd
    return match answer with
      | none => false
      | some rx => decide (1 ≤ rx.length) && u8At rx 0 &&& iso15693RespFlagError == 0

/-- `reader_tags_iso15693_user_write`. -/
def userWrite (uid : Frame) (block : Word) (data : Frame) : RfExchange Bool :=
  (if block.toNat ≤ iso15693BlockAddr1ByteMax then sendWrite (writeBlockCommand uid (block.setWidth 8) data) data
    else pure false) >>= fun ok =>
    if ok then pure true else sendWrite (extWriteBlockCommand uid block data) data

/-- `reader_tags_type5_write_block`. -/
def type5WriteBlock (uid : Frame) (block : Word) (data : Frame) : RfExchange Bool :=
  if data.length = 0 ∨ sysInfoUidFieldLen < data.length then pure false
  else
    userWrite uid block data >>= fun written =>
      if written then readBlock uid block >>= fun verify => pure (verifies data verify) else pure false

/-! ### System information -/

def iso15693CmdGetSysInfo : Byte := 0x2B
def iso15693CmdExtGetSysInfo : Byte := 0x3B
def extSysInfoRequestFields : Byte := 0x0F

def systemInfoCommand (uid : Frame) : Frame := [iso15693FlagsAddressed, iso15693CmdGetSysInfo] ++ uid.reverse

def systemInfoExtCommand (uid : Frame) : Frame :=
  [iso15693FlagsAddressed ||| iso15693FlagProtocolExtension, iso15693CmdExtGetSysInfo, extSysInfoRequestFields] ++
    uid.reverse

/-! ### Message TLVs -/

/-- The bytes of a TLV for one unit, zeros behind its end. -/
def unitData (tlv : Frame) (off unitSize : Nat) : Frame :=
  ((tlv.drop off).take (min (tlv.length - off) unitSize) ++ List.replicate type5BlockSize.toNat 0).take unitSize

/-- The loop of `write_storage_tlv_units`. -/
def writeTlvUnitsFrom (writeUnit : Word → Frame → RfExchange Bool) (tlv : Frame) (firstUnit : Word) (unitSize : Byte) :
    Nat → Nat → RfExchange Bool
  | 0, _ => pure true
  | left + 1, unitIndex =>
      let off := u16 (unitIndex * unitSize.toNat)
      writeUnit (firstUnit + BitVec.ofNat 16 unitIndex) (unitData tlv off unitSize.toNat) >>= fun ok =>
        if ok then writeTlvUnitsFrom writeUnit tlv firstUnit unitSize left (unitIndex + 1) else pure false

/-- `reader_tags_write_storage_tlv_units`, and `writer_tag_write_storage_tlv_units`. -/
def writeStorageTlvUnits (writeUnit : Word → Frame → RfExchange Bool) (tlv : Frame) (firstUnit : Word)
    (unitSize : Byte) : RfExchange Bool :=
  if unitSize = 0 ∨ type5BlockSize < unitSize then pure false
  else
    match ceilUnits (BitVec.ofNat 16 tlv.length) unitSize with
    | none => pure false
    | some unitsNeeded =>
        if unitsNeeded = 0 then pure false
        else writeTlvUnitsFrom writeUnit tlv firstUnit unitSize unitsNeeded.toNat 0

/-! ### The tag -/

/-- A tag's memory, and the units written since it was met. -/
structure TagState where
  memory : File Byte
  written : List Nat

/-- What a Type 2 tag may do: it answers a READ with the page, and a WRITE may leave anything in its page. -/
structure Type2Step (s : TagState) (request : Request) (answer : Option Frame) (t : TagState) : Prop where
  activate : request = .activate → t = s
  read (page : Byte) : request = .command (ntagReadCommand page) →
    t = s ∧ ∀ rx, answer = some rx → CutFrom s.memory (4 * page.toNat) (4 * page.toNat + 4) rx
  write (page : Byte) (data : Frame) : data.length = 4 → request = .command (ntagWriteCommand page data) →
    t.written = s.written ++ [page.toNat] ∧
      AgreeOutside s.memory t.memory (4 * page.toNat) (4 * page.toNat + 4)

/-- What a Type 5 tag may do. It answers for its system information always the same. -/
structure Type5Step (uid : Frame) (systemInfo systemInfoExt : Option Frame) (s : TagState) (request : Request)
    (answer : Option Frame) (t : TagState) : Prop where
  read (block : Byte) : request = .command (readBlockCommand uid block) →
    t = s ∧ DataCutFrom s.memory (4 * block.toNat) (4 * block.toNat + 4) answer
  extRead (block : Word) : request = .command (extReadBlockCommand uid block) →
    t = s ∧ DataCutFrom s.memory (4 * block.toNat) (4 * block.toNat + 4) answer
  write (block : Byte) (data : Frame) : data.length = 4 → request = .command (writeBlockCommand uid block data) →
    t.written = s.written ++ [block.toNat] ∧
      AgreeOutside s.memory t.memory (4 * block.toNat) (4 * block.toNat + 4)
  extWrite (block : Word) (data : Frame) : data.length = 4 → request = .command (extWriteBlockCommand uid block data) →
    t.written = s.written ++ [block.toNat] ∧
      AgreeOutside s.memory t.memory (4 * block.toNat) (4 * block.toNat + 4)
  systemInfo : request = .command (systemInfoCommand uid) → t = s ∧ answer = systemInfo
  systemInfoExt : request = .command (systemInfoExtCommand uid) → t = s ∧ answer = systemInfoExt

/-- What was written lies in these units, and nothing else has changed. -/
structure WroteWithin (units : Set Nat) (s t : TagState) : Prop where
  written : ∀ u ∈ t.written, u ∈ s.written ∨ u ∈ units
  outside : ∀ i, i / 4 ∉ units → t.memory i = s.memory i

namespace WroteWithin

variable {units : Set Nat} {s t u : TagState}

theorem refl (units : Set Nat) (s : TagState) : WroteWithin units s s := ⟨fun _ hu => Or.inl hu, fun _ _ => rfl⟩

theorem trans (h : WroteWithin units s t) (h' : WroteWithin units t u) : WroteWithin units s u :=
  ⟨fun v hv => (h'.written v hv).elim (h.written v) Or.inr, fun i hi => (h'.outside i hi).trans (h.outside i hi)⟩

theorem mono {wider : Set Nat} (h : WroteWithin units s t) (hsub : units ⊆ wider) : WroteWithin wider s t :=
  ⟨fun v hv => (h.written v hv).imp_right (@hsub v), fun i hi => h.outside i fun hmem => hi (hsub hmem)⟩

/-- The write of one unit. -/
theorem one {unit : Nat} (hwritten : t.written = s.written ++ [unit])
    (hagree : AgreeOutside s.memory t.memory (4 * unit) (4 * unit + 4)) : WroteWithin {unit} s t := by
  refine ⟨fun v hv => ?_, fun i hi => hagree i ?_⟩
  · rw [hwritten, List.mem_append, List.mem_singleton] at hv
    exact hv
  · rw [Set.mem_singleton_iff] at hi
    omega

/-- Data outside the units stay in place. -/
theorem has {off : Nat} {data : Frame} (h : WroteWithin units s t)
    (hout : ∀ i, off ≤ i → i < off + data.length → i / 4 ∉ units) (hdata : Has s.memory off data) :
    Has t.memory off data := by
  intro i hi
  rw [h.outside (off + i) (hout _ (Nat.le_add_right _ _) (by omega))]
  exact hdata i hi

end WroteWithin

/-- The data at an offset are the bytes from there on. -/
theorem has_iff_bytesAt {memory : File Byte} {off : Nat} {data : Frame} :
    Has memory off data ↔ bytesAt memory off data.length = data := by
  constructor
  · intro h
    apply List.ext_getElem
    · rw [bytesAt_length]
    · intro i _ hi
      rw [← h i hi]
      simp only [bytesAt, List.getElem_map, List.getElem_range]
  · intro h i hi
    have hbyte := congrArg (u8At · i) h
    simp only [u8At_bytesAt memory off hi] at hbyte
    rw [hbyte, u8At, List.getD_eq_getElem _ _ hi]

theorem has_of_verifies {memory : File Byte} {off : Nat} {data : Frame} {readBack : Option Frame}
    (hcut : ∀ rx, readBack = some rx → CutFrom memory off (off + data.length) rx)
    (h : verifies data readBack = true) : Has memory off data := by
  cases readBack with
  | none => exact absurd h (by simp [verifies])
  | some rx =>
      rw [verifies, Bool.and_eq_true, decide_eq_true_eq, beq_iff_eq] at h
      rw [has_iff_bytesAt, ← (hcut rx rfl).take h.1 (Nat.le_refl _), h.2]

/-! ### One unit -/

/-- The address of a unit that one byte holds. -/
theorem toNat_lowByte {unit : Word} (h : unit.toNat ≤ 0xFF) : (unit.setWidth 8).toNat = unit.toNat := by
  rw [BitVec.toNat_setWidth, Nat.mod_eq_of_lt (by omega)]

section Units

variable {peer : TagState → Request → Option Frame → TagState → Prop}

/-- The exchange writes within these units and ends like this. -/
def Writes (peer : TagState → Request → Option Frame → TagState → Prop) (units : Set Nat) {α : Type}
    (post : α → TagState → Prop) (program : RfExchange α) (s : TagState) : Prop :=
  program.Holds peer (WroteWithin units s) post s

theorem writes_pure {units : Set Nat} {α : Type} {post : α → TagState → Prop} {result : α} {s : TagState}
    (h : post result s) : Writes peer units post (pure result) s := Dialogue.holds_pure (WroteWithin.refl units s) h

/-- What a success leaves holds of a refusal. -/
theorem writes_refused {units : Set Nat} {post : TagState → Prop} {s : TagState} :
    Writes peer units (fun ok t => ok = true → post t) (pure false) s :=
  writes_pure fun h => absurd h Bool.false_ne_true

theorem Writes.bind {units : Set Nat} {α β : Type} {post : α → TagState → Prop} {post' : β → TagState → Prop}
    {program : RfExchange α} {next : α → RfExchange β} {s : TagState} (h : Writes peer units post program s)
    (hnext : ∀ result t, WroteWithin units s t → post result t → Writes peer units post' (next result) t) :
    Writes peer units post' (program >>= next) s :=
  Dialogue.holds_bind h fun result t hkeeps hpost =>
    (hnext result t hkeeps hpost).mono (fun _ => hkeeps.trans) fun _ _ _ h => h

theorem Writes.mono {units : Set Nat} {α : Type} {post post' : α → TagState → Prop} {program : RfExchange α}
    {s : TagState} (h : Writes peer units post program s)
    (hpost : ∀ result t, WroteWithin units s t → post result t → post' result t) :
    Writes peer units post' program s := Dialogue.Holds.mono h (fun _ h => h) hpost

/-- A command that reads. -/
theorem writes_send_read {units : Set Nat} {cmd : Frame} {post : Option Frame → Prop} {s : TagState}
    (h : ∀ answer t, peer s (.command cmd) answer t → t = s ∧ post answer) :
    Writes peer units (fun answer t => t = s ∧ post answer) (send cmd) s := by
  refine ⟨WroteWithin.refl units s, fun answer t hstep => ?_⟩
  obtain ⟨rfl, hpost⟩ := h answer t hstep
  exact ⟨WroteWithin.refl units t, rfl, hpost⟩

/-- A command that writes one unit. -/
theorem writes_send_write {unit : Nat} {cmd : Frame} {s : TagState}
    (h : ∀ answer t, peer s (.command cmd) answer t → t.written = s.written ++ [unit] ∧
      AgreeOutside s.memory t.memory (4 * unit) (4 * unit + 4)) :
    Writes peer {unit} (fun _ _ => True) (send cmd) s := by
  refine ⟨WroteWithin.refl _ s, fun answer t hstep => ?_⟩
  obtain ⟨hwritten, hagree⟩ := h answer t hstep
  exact ⟨.one hwritten hagree, trivial⟩

/-- A unit writer: it writes its unit only, and where it reports success the data are there. -/
def WritesUnit (peer : TagState → Request → Option Frame → TagState → Prop)
    (writeUnit : Word → Frame → RfExchange Bool) : Prop :=
  ∀ unit data s, data.length = 4 →
    Writes peer {unit.toNat} (fun ok t => ok = true → Has t.memory (4 * unit.toNat) data) (writeUnit unit data) s

theorem writes_readPage {units : Set Nat} (page : Byte) (s : TagState) :
    Writes Type2Step units (fun rx t => t = s ∧
      ∀ data, rx = some data → CutFrom s.memory (4 * page.toNat) (4 * page.toNat + 4) data) (readPage page) s := by
  refine Writes.bind (writes_send_read fun answer t hstep => hstep.read page rfl) fun answer t _ h => ?_
  obtain ⟨rfl, hcut⟩ := h
  refine writes_pure ⟨rfl, fun data hdata => ?_⟩
  obtain ⟨rx, hrx, rfl⟩ := Option.map_eq_some_iff.mp hdata
  exact (hcut rx hrx).cut _

theorem take_page {data : Frame} (hdata : data.length = 4) : data.take t2tPageSizeBytes = data :=
  List.take_of_length_le (Nat.le_of_eq hdata)

theorem writes_ntagWritePage (page : Byte) {data : Frame} (hdata : data.length = 4) (s : TagState) :
    Writes Type2Step {page.toNat} (fun _ _ => True) (ntagWritePage page data) s := by
  rw [ntagWritePage, take_page hdata]
  exact Writes.bind (writes_send_write fun answer t hstep => hstep.write page data hdata rfl)
    fun _ _ _ _ => writes_pure trivial

theorem writes_activate {units : Set Nat} (s : TagState) :
    Writes Type2Step units (fun _ _ => True) activateIso14443a s := by
  refine ⟨WroteWithin.refl units s, fun answer t hstep => ?_⟩
  obtain rfl := hstep.activate rfl
  exact ⟨WroteWithin.refl units t, trivial⟩

/-- An attempt that writes a page and reads it back. What follows an activation that fails, and data that are not
there, is another attempt. -/
theorem writes_pageAttempt {page : Byte} {data : Frame} (hdata : data.length = 4) {activates : Prop}
    [Decidable activates] {inactive unverified : RfExchange Bool}
    (hinactive : ∀ t, Writes Type2Step {page.toNat}
    (fun ok u => ok = true → Has u.memory (4 * page.toNat) data) inactive t)
    (hunverified : ∀ t,
      Writes Type2Step {page.toNat} (fun ok u => ok = true → Has u.memory (4 * page.toNat) data) unverified t)
    (s : TagState) :
    Writes Type2Step {page.toNat} (fun ok t => ok = true → Has t.memory (4 * page.toNat) data)
      ((if activates then activateIso14443a else pure true) >>= fun ready =>
        if ready then
          ntagWritePage page data >>= fun _ =>
            readPage page >>= fun verify =>
              if verifies (data.take t2tPageSizeBytes) verify then pure true else unverified
        else inactive) s := by
  have hready : Writes Type2Step {page.toNat} (fun _ _ => True)
      (if activates then activateIso14443a else pure true) s := by
    split
    · exact writes_activate s
    · exact writes_pure trivial
  refine hready.bind fun ready t _ _ => ?_
  split
  swap
  · exact hinactive t
  refine (writes_ntagWritePage page hdata t).bind fun _ u _ _ => ?_
  refine (writes_readPage page u).bind fun verify v _ hread => ?_
  obtain ⟨rfl, hcut⟩ := hread
  split
  next hok =>
    rw [take_page hdata] at hok
    refine writes_pure fun _ => has_of_verifies ?_ hok
    rwa [hdata]
  next => exact hunverified v

theorem writes_type2WritePageFrom (page : Byte) {data : Frame} (hdata : data.length = 4) (attempts : List Nat)
    (s : TagState) :
    Writes Type2Step {page.toNat} (fun ok t => ok = true → Has t.memory (4 * page.toNat) data)
      (type2WritePageFrom page data attempts) s := by
  induction attempts generalizing s with
  | nil => exact writes_refused
  | cons attempt attempts ih => exact writes_pageAttempt hdata ih ih s

/-- **A page write** touches its page only, and succeeds only when the page holds the data. -/
theorem writesUnit_type2 : WritesUnit Type2Step type2WriteUnit := by
  intro unit data s hdata
  rw [type2WriteUnit]
  split
  · exact writes_refused
  next hfits =>
    have hbyte : (unit.setWidth 8).toNat = unit.toNat := toNat_lowByte (by omega)
    have h := writes_type2WritePageFrom (unit.setWidth 8) hdata (List.range readerType2WriteAttempts) s
    rwa [hbyte] at h

section Blocks

variable {uid : Frame} {systemInfo systemInfoExt : Option Frame}

theorem writes_readBlock {units : Set Nat} (block : Word) (s : TagState) :
    Writes (Type5Step uid systemInfo systemInfoExt) units (fun rx t => t = s ∧
      ∀ data, rx = some data → CutFrom s.memory (4 * block.toNat) (4 * block.toNat + 4) data)
        (readBlock uid block) s := by
  have hshort : Writes (Type5Step uid systemInfo systemInfoExt) units (fun rx t => t = s ∧
      ∀ data, rx = some data → CutFrom s.memory (4 * block.toNat) (4 * block.toNat + 4) data)
      (if block.toNat ≤ iso15693BlockAddr1ByteMax then
        send (readBlockCommand uid (block.setWidth 8)) >>= fun answer =>
          pure (answerData answer (iso15693MinStatusRx - 1) t5UserBlockSize)
      else pure none) s := by
    split
    next hone =>
      have hbyte : (block.setWidth 8).toNat = block.toNat := toNat_lowByte hone
      refine Writes.bind
        (writes_send_read fun answer t hstep => hstep.read (block.setWidth 8) rfl) fun answer t _ h => ?_
      obtain ⟨rfl, hcut⟩ := h
      rw [hbyte] at hcut
      exact writes_pure ⟨rfl, fun data hdata => (hcut.answerData hdata).1⟩
    next => exact writes_pure ⟨rfl, fun data hdata => absurd hdata (by simp)⟩
  refine hshort.bind fun rx t _ h => ?_
  obtain ⟨rfl, hcut⟩ := h
  cases rx with
  | some data => exact writes_pure ⟨rfl, hcut⟩
  | none =>
      refine Writes.bind (writes_send_read fun answer u hstep => hstep.extRead block rfl) fun answer u _ h => ?_
      obtain ⟨rfl, hcut⟩ := h
      exact writes_pure ⟨rfl, fun data hdata => (hcut.answerData hdata).1⟩

theorem writes_sendWrite {unit : Nat} {cmd data : Frame} {s : TagState}
    (h : ∀ answer t, peer s (.command cmd) answer t → t.written = s.written ++ [unit] ∧
      AgreeOutside s.memory t.memory (4 * unit) (4 * unit + 4)) :
    Writes peer {unit} (fun _ _ => True) (sendWrite cmd data) s := by
  rw [sendWrite]
  split
  · exact writes_pure trivial
  · exact (writes_send_write h).bind fun _ _ _ _ => writes_pure trivial

theorem writes_userWrite (block : Word) {data : Frame} (hdata : data.length = 4) (s : TagState) :
    Writes (Type5Step uid systemInfo systemInfoExt) {block.toNat} (fun _ _ => True) (userWrite uid block data) s := by
  have hshort : Writes (Type5Step uid systemInfo systemInfoExt) {block.toNat} (fun _ _ => True)
      (if block.toNat ≤ iso15693BlockAddr1ByteMax then sendWrite (writeBlockCommand uid (block.setWidth 8) data) data
        else pure false) s := by
    split
    next hone =>
      have hbyte : (block.setWidth 8).toNat = block.toNat := toNat_lowByte hone
      refine writes_sendWrite fun answer t hstep => ?_
      rw [← hbyte]
      exact hstep.write (block.setWidth 8) data hdata rfl
    next => exact writes_pure trivial
  refine hshort.bind fun ok t _ _ => ?_
  split
  · exact writes_pure trivial
  · exact writes_sendWrite fun answer u hstep => hstep.extWrite block data hdata rfl

/-- **A block write** touches its block only, and succeeds only when the block holds the data. -/
theorem writesUnit_type5 : WritesUnit (Type5Step uid systemInfo systemInfoExt) (type5WriteBlock uid) := by
  intro block data s hdata
  rw [type5WriteBlock]
  split
  · exact writes_refused
  refine (writes_userWrite block hdata s).bind fun written t _ _ => ?_
  split
  swap
  · exact writes_refused
  refine (writes_readBlock block t).bind fun verify u _ h => ?_
  obtain ⟨rfl, hcut⟩ := h
  exact writes_pure fun hok => has_of_verifies (by rwa [hdata]) hok

end Blocks

/-! ### The whole TLV -/

/-- A TLV with the zeros that fill its last unit. -/
def padded (tlv : Frame) : Frame := tlv ++ List.replicate (4 * Tags.units tlv.length - tlv.length) 0

theorem length_padded (tlv : Frame) : (padded tlv).length = 4 * Tags.units tlv.length := by
  rw [padded, List.length_append, List.length_replicate, Tags.units]
  omega

/-- A unit takes its stretch of the padded TLV. -/
theorem unitData_eq {tlv : Frame} {k : Nat} (hk : k < Tags.units tlv.length) :
    unitData tlv (4 * k) 4 = ((padded tlv).drop (4 * k)).take 4 := by
  rw [Tags.units] at hk
  have hmin : (tlv.drop (4 * k)).take (min (tlv.length - 4 * k) 4) = (tlv.drop (4 * k)).take 4 := by
    rw [Nat.min_comm, ← List.length_drop, ← List.take_eq_take_min]
  rw [unitData, hmin, padded, List.drop_append_of_le_length (by omega), List.take_append, List.take_append,
    List.take_take, Nat.min_self, List.length_take, List.length_drop, List.take_replicate, List.take_replicate,
    type5BlockSize, show (4 : Byte).toNat = 4 from rfl, Tags.units]
  congr 2
  omega

theorem length_unitData {tlv : Frame} {k : Nat} (hk : k < Tags.units tlv.length) :
    (unitData tlv (4 * k) 4).length = 4 := by
  rw [unitData_eq hk, List.length_take, List.length_drop, length_padded]
  omega

/-- The units that a TLV takes from a first one on. -/
def unitsFrom (firstUnit : Nat) (tlv : Frame) : Set Nat := {u | firstUnit ≤ u ∧ u < firstUnit + Tags.units tlv.length}

section Loop

variable {writeUnit : Word → Frame → RfExchange Bool} {tlv : Frame} {firstUnit : Word}

theorem toNat_unit {k : Nat} (h : firstUnit.toNat + k < 0x10000) :
    (firstUnit + BitVec.ofNat 16 k).toNat = firstUnit.toNat + k := by
  rw [BitVec.toNat_add, BitVec.toNat_ofNat]
  omega

/-- **The loop writes the TLV.** It goes on from any state that holds the units in front. -/
theorem writes_writeTlvUnitsFrom (hunit : WritesUnit peer writeUnit) (hlen : tlv.length ≤ 0xFFFF)
    (hrange : firstUnit.toNat + Tags.units tlv.length ≤ 0x10000) :
    ∀ left k s, k + left = Tags.units tlv.length →
      Has s.memory (4 * firstUnit.toNat) ((padded tlv).take (4 * k)) →
      Writes peer (unitsFrom firstUnit.toNat tlv)
        (fun ok t => ok = true → Has t.memory (4 * firstUnit.toNat) (padded tlv))
        (writeTlvUnitsFrom writeUnit tlv firstUnit 4 left k) s := by
  intro left
  induction left with
  | zero =>
      intro k s hk hstored
      rw [List.take_of_length_le (by rw [length_padded]; omega)] at hstored
      exact writes_pure fun _ => hstored
  | succ left ih =>
      intro k s hk hstored
      have hk' : k < Tags.units tlv.length := by omega
      have hoff : u16 (k * (4 : Byte).toNat) = 4 * k := by
        rw [show (4 : Byte).toNat = 4 from rfl, u16_of_le (by rw [Tags.units] at hk'; omega), Nat.mul_comm]
      have hnumber : (firstUnit + BitVec.ofNat 16 k).toNat = firstUnit.toNat + k := toNat_unit (by omega)
      have hfront : ((padded tlv).take (4 * k)).length = 4 * k := by
        rw [List.length_take, length_padded]
        omega
      have hwrite := hunit (firstUnit + BitVec.ofNat 16 k) (unitData tlv (4 * k) 4) s (length_unitData hk')
      rw [hnumber] at hwrite
      -- the units in front stay in place under the write of this one
      have hstep : Writes peer (unitsFrom firstUnit.toNat tlv) (fun ok t =>
          ok = true → Has t.memory (4 * firstUnit.toNat) ((padded tlv).take (4 * (k + 1))))
          (writeUnit (firstUnit + BitVec.ofNat 16 k) (unitData tlv (4 * k) 4)) s := by
        refine Dialogue.Holds.mono hwrite (fun t ht => ht.mono ?_) fun ok t hwrote hok htrue => ?_
        · rintro u rfl
          exact ⟨Nat.le_add_right _ _, by omega⟩
        · rw [Nat.mul_add, List.take_add, FileUpdate.has_append, hfront, ← unitData_eq hk', ← Nat.mul_add]
          refine ⟨hwrote.has (fun i _ hi => ?_) hstored, hok htrue⟩
          rw [hfront] at hi
          rw [Set.mem_singleton_iff]
          omega
      rw [writeTlvUnitsFrom, hoff]
      refine hstep.bind fun ok t _ hok => ?_
      split
      next htrue => exact ih (k + 1) t (by omega) (hok htrue)
      next => exact writes_refused

theorem writeStorageTlvUnits_eq (hpos : 0 < tlv.length) (hlen : tlv.length ≤ 0xFFFF) :
    writeStorageTlvUnits writeUnit tlv firstUnit 4 =
      writeTlvUnitsFrom writeUnit tlv firstUnit 4 (Tags.units tlv.length) 0 := by
  have hword : (BitVec.ofNat 16 tlv.length).toNat = tlv.length := by
    rw [BitVec.toNat_ofNat, Nat.mod_eq_of_lt (by omega)]
  have hunits : (BitVec.ofNat 16 (Tags.units tlv.length)).toNat = Tags.units tlv.length := by
    rw [BitVec.toNat_ofNat, Nat.mod_eq_of_lt (by rw [Tags.units]; omega)]
  have hne : BitVec.ofNat 16 (Tags.units tlv.length) ≠ 0 := by
    intro hzero
    rw [hzero, Tags.units] at hunits
    have : (0 : Word).toNat = 0 := rfl
    omega
  rw [writeStorageTlvUnits, if_neg (by decide), ceilUnits_four, hword]
  dsimp only
  rw [show (tlv.length + 3) / 4 = Tags.units tlv.length from rfl, if_neg hne, hunits]

/-- **A whole TLV** is written over its units, and nothing else is touched. -/
theorem writes_writeStorageTlvUnits (hunit : WritesUnit peer writeUnit) (hpos : 0 < tlv.length)
    (hlen : tlv.length ≤ 0xFFFF) (hrange : firstUnit.toNat + Tags.units tlv.length ≤ 0x10000) (s : TagState) :
    Writes peer (unitsFrom firstUnit.toNat tlv)
      (fun ok t => ok = true → Has t.memory (4 * firstUnit.toNat) (padded tlv))
      (writeStorageTlvUnits writeUnit tlv firstUnit 4) s := by
  rw [writeStorageTlvUnits_eq hpos hlen]
  refine writes_writeTlvUnitsFrom hunit hlen hrange _ 0 s (Nat.zero_add _) ?_
  rw [Nat.mul_zero, List.take_zero]
  exact fun i hi => absurd hi (Nat.not_lt_zero i)

/-- Where every unit can be written the whole TLV can. -/
theorem writeStorageTlvUnits_reaches (hunit : ∀ unit data s, data.length = 4 →
      ∃ t, Dialogue.Reaches peer (writeUnit unit data) s (.done true) t) (hpos : 0 < tlv.length)
    (hlen : tlv.length ≤ 0xFFFF) (s : TagState) :
    ∃ t, Dialogue.Reaches peer (writeStorageTlvUnits writeUnit tlv firstUnit 4) s (.done true) t := by
  rw [writeStorageTlvUnits_eq hpos hlen]
  have hrun : ∀ left k s, k + left = Tags.units tlv.length →
      ∃ t, Dialogue.Reaches peer (writeTlvUnitsFrom writeUnit tlv firstUnit 4 left k) s (.done true) t := by
    intro left
    induction left with
    | zero => exact fun k s _ => ⟨s, .here _ s⟩
    | succ left ih =>
        intro k s hk
        have hoff : u16 (k * (4 : Byte).toNat) = 4 * k := by
          rw [show (4 : Byte).toNat = 4 from rfl, u16_of_le (by rw [Tags.units] at hk; omega), Nat.mul_comm]
        obtain ⟨t, ht⟩ := hunit (firstUnit + BitVec.ofNat 16 k) (unitData tlv (4 * k) 4) s (length_unitData (by omega))
        obtain ⟨u, hu⟩ := ih (k + 1) t (by omega)
        rw [writeTlvUnitsFrom, hoff]
        exact ⟨u, ht.bind hu⟩
  exact hrun _ 0 s (Nat.zero_add _)

end Loop

end Units

end NeroReader.Tags
