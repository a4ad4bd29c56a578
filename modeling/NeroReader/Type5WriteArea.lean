import NeroReader.Type5Container

/-!
The area that a Type 5 tag declares behind a successful write of the host. The tag answers reads with what its
memory holds, and a write it acknowledges is stored. The TLV is then in place behind the container; whether the
container declares room for it depends on the container that was there: an extended one is left as it is, and a
short one is enlarged to whole units of eight bytes that the blocks of the tag fill.
-/

namespace NeroReader.HostStorage

open Storage Ndef
open HostApdu (responseSwOk)
open FileUpdate (File Update Has AgreeOutside)

/-! ### The tag -/

/-- What is accepted of an answer. -/
def accepted (answer : Except String Frame) : Option Frame :=
  match answer with
  | .ok rapdu => if responseSwOk rapdu then some (withoutStatus rapdu) else none
  | .error _ => none

/-- The block of a WRITE SINGLE BLOCK, and its data. -/
def isoWriteOf (cmd : Frame) : Option (Nat × Frame) :=
  if u8At cmd 0 = 0x22 ∧ u8At cmd 1 = iso15693CmdWriteSingle then some ((u8At cmd 10).toNat, cmd.drop 11)
  else if u8At cmd 0 = 0x2A ∧ u8At cmd 1 = iso15693CmdExtWriteSingle then
    some ((bigEndian (u8At cmd 11) (u8At cmd 10)).toNat, cmd.drop 12)
  else none

/-- The block of a READ SINGLE BLOCK. -/
def isoReadOf (cmd : Frame) : Option Nat :=
  if u8At cmd 0 = 0x22 ∧ u8At cmd 1 = iso15693CmdReadSingle then some (u8At cmd 10).toNat
  else if u8At cmd 0 = 0x2A ∧ u8At cmd 1 = iso15693CmdExtReadSingle then
    some (bigEndian (u8At cmd 11) (u8At cmd 10)).toNat
  else none

/-- What an APDU writes to the memory of the tag. -/
def writeOf (apdu : Frame) : Option (Update Byte) :=
  if u8At apdu 1 = insUpdateBinary then (blockUpdated apdu).map fun w => ⟨w.1.toNat * 4, w.2⟩
  else if u8At apdu 1 = insTransparent then (isoWriteOf (apdu.drop 5)).map fun w => ⟨w.1 * 4, w.2⟩
  else none

/-- A write is acknowledged: by 9000, and for a transparent command by a response without the error flag. -/
def Acknowledged (apdu : Frame) (answer : Except String Frame) : Prop :=
  ∃ response, accepted answer = some response ∧ (u8At apdu 1 = insTransparent → transparentWritten response = true)

/-- A system information that counts so many blocks of four bytes. -/
def Counts (count : Word) (systemInfo : Frame) : Prop :=
  systemInfo.length ≤ byteValueMax ∧ systemInfoResponseOk sysInfoMinReplyLen systemInfo = true ∧
    ∀ info, (applySystemInfo info systemInfo).blockCount = count ∧
    (applySystemInfo info systemInfo).blockSize = type5BlockSize

def getDataApdu (p1 : Byte) : Frame := [claProprietary, insGetData, p1, getDataP2Default, sw2Success]

/-- The ways by which a reader reports the system information of the tag with this UID: it answers GET DATA, or it
relays the tag's own command, in the first form of the transparent APDU or, where it knows only that, in the second. -/
inductive Route (uid : Frame) where
  | getData
  | transparent (huid : uid.length = iso15693UidLen)
  | transparentAgain (huid : uid.length = iso15693UidLen)

def systemInfoApdu (p2 : Byte) (uid : Frame) : Frame :=
  transparentApdu p2 (type5AddressedCommand iso15693CmdGetSysInfo uid.reverse)

/-- The APDU that is answered with the system information. -/
def Route.asks {uid : Frame} : Route uid → Frame
  | .getData => getDataApdu getDataType5SysInfo
  | .transparent _ => systemInfoApdu sw2Success uid
  | .transparentAgain _ => systemInfoApdu getDataAts uid

/-- How many blocks of four bytes the reader reports, and how. -/
structure Report (uid : Frame) where
  count : Word
  route : Route uid

/-- The answers tell what the memory holds. Unless the container defers its size, the reader reports how many blocks
there are, and no system information tells another number. -/
structure Truthful {uid : Frame} (told : Report uid) (memory : File Byte) (apdu : Frame)
    (answer : Except String Frame) : Prop where
  readBinary : ∀ data block, accepted answer = some data → u8At apdu 1 = insReadBinary → blockRead apdu = some block →
    4 ∣ data.length ∧ data = bytesAt memory (block.toNat * 4) data.length
  container : ∀ data, accepted answer = some data → apdu = getDataApdu getDataType5Cc →
    data = bytesAt memory 0 data.length
  reported : apdu = told.route.asks → ccSignalsMlenOverflow (containerOf memory) = false →
    ∃ data, accepted answer = some data ∧ Counts told.count data
  secondForm : ∀ huid, told.route = .transparentAgain huid → apdu = systemInfoApdu sw2Success uid →
    accepted answer = none
  systemInfo : ∀ data, accepted answer = some data → (∃ route : Route uid, apdu = route.asks) →
    systemInfoResponseOk sysInfoMinReplyLen data = true → ccSignalsMlenOverflow (containerOf memory) = false →
    Counts told.count data
  transparent : ∀ response data block, accepted answer = some response → u8At apdu 1 = insTransparent →
    isoReadOf (apdu.drop 5) = some block → transparentBlock response = .ok data →
    data = bytesAt memory (block * 4) 4

/-- One exchange with the tag: a write may fail behind any part of it, a read changes nothing. -/
def Answers {uid : Frame} (told : Report uid) (s : File Byte) (apdu : Frame) (answer : Except String Frame)
    (t : File Byte) : Prop :=
  match writeOf apdu with
  | some u => AgreeOutside s t u.offset (u.offset + u.data.length) ∧ (Acknowledged apdu answer → Has t u.offset u.data)
  | none => t = s ∧ Truthful told s apdu answer

variable {tagUid : Frame} {told : Report tagUid}

/-! ### Writes -/

/-- The program tries one write and reports success only when it is stored. -/
def Attempts {tagUid : Frame} (told : Report tagUid) (u : Update Byte)
    (program : Exchange (Except String Unit)) : Prop :=
  ∀ s, program.Holds (Answers told) (fun _ => True)
    (fun r t => AgreeOutside s t u.offset (u.offset + u.data.length) ∧ (r = .ok () → Has t u.offset u.data)) s

section Attempts

variable {u : Update Byte}

theorem attempts_error (err : String) : Attempts told u (pure (.error err)) :=
  fun _ => Dialogue.holds_pure trivial ⟨AgreeOutside.refl _ _ _, fun h => nomatch h⟩

/-- A second attempt behind the failure of the first. -/
theorem Attempts.orElse {first : Exchange (Except String Unit)} (h : Attempts told u first)
    {second : Except String Unit → Exchange (Except String Unit)} (hok : second (.ok ()) = pure (.ok ()))
    (herr : ∀ err, Attempts told u (second (.error err))) : Attempts told u (first >>= second) := by
  intro s
  refine Dialogue.holds_bind (h s) fun result t _ hfirst => ?_
  cases result with
  | ok =>
      rw [hok]
      exact Dialogue.holds_pure trivial hfirst
  | error err => exact (herr err t).mono (fun _ _ => trivial) fun r v _ hv => ⟨hfirst.1.trans hv.1, hv.2⟩

theorem Attempts.mapError {program : Exchange (Except String Unit)} (h : Attempts told u program)
    (f : String → String) :
    Attempts told u (program >>= fun r => pure (r.mapError f)) :=
  h.orElse rfl fun err => attempts_error (f err)

/-- An UPDATE BINARY. -/
theorem attempts_transmitOk {apdu : Frame} (hwrite : writeOf apdu = some u) (hins : u8At apdu 1 = insUpdateBinary) :
    Attempts told u (transmitOk apdu >>= fun r => pure (r.map fun _ => ())) := by
  intro s
  refine ⟨trivial, fun answer t hstep => ?_⟩
  rw [Answers, hwrite] at hstep
  obtain ⟨hagree, hstored⟩ := hstep
  cases answer with
  | error err => exact ⟨trivial, hagree, fun h => nomatch h⟩
  | ok rapdu =>
      refine ⟨trivial, hagree, fun hok => hstored ?_⟩
      by_cases hsw : responseSwOk rapdu = true
      · refine ⟨withoutStatus rapdu, if_pos hsw, fun htransparent => ?_⟩
        rw [hins] at htransparent
        exact absurd htransparent (by decide)
      · rw [if_neg hsw] at hok
        nomatch hok

theorem attempts_updateBinary {block : Word} {bytes : Frame} (p1 p2 : Byte)
    (h : 0 < bytes.length → bytes.length ≤ byteValueMax →
      blockUpdated (updateBinaryApdu p1 p2 bytes) = some (block, bytes)) :
    Attempts told ⟨block.toNat * 4, bytes⟩ (storageUpdateBinaryApdu p1 p2 bytes) := by
  rw [storageUpdateBinaryApdu]
  split
  · exact attempts_error _
  · rename_i hlen
    have hupdated := h (by omega) (by omega)
    refine attempts_transmitOk ?_ rfl
    have hins : u8At (updateBinaryApdu p1 p2 bytes) 1 = insUpdateBinary := rfl
    rw [writeOf, if_pos hins, hupdated]
    rfl

/-- Both forms of the address name the block. -/
theorem attempts_type5StorageUpdateBinary {block : Word} (hblock : block.toNat < 0x3FC0) (bytes : Frame) :
    Attempts told ⟨block.toNat * 4, bytes⟩ (type5StorageUpdateBinary block bytes) := by
  refine Attempts.orElse ?_ rfl fun err => ?_
  · split
    · rename_i hle
      exact attempts_updateBinary _ _ (blockUpdated_byBlock hle)
    · exact attempts_error _
  · dsimp only
    split
    · exact attempts_error _
    · rename_i offset hoffset
      exact (attempts_updateBinary _ _ (blockUpdated_byOffset hoffset hblock)).mapError _

/-- What follows a response that is taken for a success only without an error flag. -/
def Offers {tagUid : Frame} (told : Report tagUid) (u : Update Byte)
    (program : Exchange (Except String Frame)) : Prop :=
  ∀ s, program.Holds (Answers told) (fun _ => True)
    (fun r t => AgreeOutside s t u.offset (u.offset + u.data.length) ∧
      ∀ response, r = .ok response → transparentWritten response = true → Has t u.offset u.data) s

theorem offers_transmitOk {apdu : Frame} (hwrite : writeOf apdu = some u) : Offers told u (transmitOk apdu) := by
  intro s
  refine ⟨trivial, fun answer t hstep => ?_⟩
  rw [Answers, hwrite] at hstep
  obtain ⟨hagree, hstored⟩ := hstep
  cases answer with
  | error err => exact ⟨trivial, hagree, fun response h => nomatch h⟩
  | ok rapdu =>
      refine ⟨trivial, hagree, fun response hok hwritten => hstored ⟨response, ?_, fun _ => hwritten⟩⟩
      by_cases hsw : responseSwOk rapdu = true
      · rw [if_pos hsw] at hok
        obtain rfl := Except.ok.inj hok
        exact if_pos hsw
      · rw [if_neg hsw] at hok
        nomatch hok

theorem offers_error (err : String) : Offers told u (pure (.error err)) :=
  fun _ => Dialogue.holds_pure trivial ⟨AgreeOutside.refl _ _ _, fun _ h => nomatch h⟩

theorem offers_exchange {cmd : Frame} (hwrite : isoWriteOf cmd = some (u.offset / 4, u.data))
    (hplace : u.offset / 4 * 4 = u.offset) :
    Offers told u (type5TransparentExchange cmd) := by
  have hapdu : ∀ p2, writeOf (transparentApdu p2 cmd) = some u := by
    intro p2
    have hins : u8At (transparentApdu p2 cmd) 1 = insTransparent := rfl
    have hbody : (transparentApdu p2 cmd).drop 5 = cmd := rfl
    rw [writeOf, hins, if_neg (by decide), if_pos rfl, hbody, hwrite, Option.map_some, hplace]
  rw [type5TransparentExchange]
  split
  · exact offers_error _
  intro s
  refine Dialogue.holds_bind (offers_transmitOk (hapdu _) s) fun result t _ hfirst => ?_
  cases result with
  | ok response => exact Dialogue.holds_pure trivial hfirst
  | error err =>
      exact (offers_transmitOk (hapdu _) t).mono (fun _ _ => trivial) fun r v _ hv => ⟨hfirst.1.trans hv.1, hv.2⟩

/-- The command names the block and carries the data. -/
theorem isoWriteOf_command {uidLsb data : Frame} (huid : uidLsb.length = iso15693UidLen) (block : Word) :
    isoWriteOf (type5AddressedBlockCommand iso15693CmdWriteSingle iso15693CmdExtWriteSingle uidLsb block ++ data) =
      some (block.toNat, data) := by
  rw [iso15693UidLen] at huid
  rw [type5AddressedBlockCommand]
  split
  · have hlow : u8At ([iso15693FlagsAddressed ||| iso15693FlagProtocolExtension, iso15693CmdExtWriteSingle] ++ uidLsb ++
        [unitLow block, unitHigh block] ++ data) 10 = unitLow block := by
      rw [List.append_assoc, u8At_append_right _ _ (by simp [huid])]
      simp [huid]
    have hhigh :
      u8At ([iso15693FlagsAddressed ||| iso15693FlagProtocolExtension, iso15693CmdExtWriteSingle] ++ uidLsb ++
        [unitLow block, unitHigh block] ++ data) 11 = unitHigh block := by
      rw [List.append_assoc, u8At_append_right _ _ (by simp [huid])]
      simp [huid]
    rw [isoWriteOf, if_neg (fun h => absurd h.1 (show (0x2A : Byte) ≠ 0x22 by decide)), if_pos ⟨rfl, rfl⟩, hlow, hhigh,
      bigEndian_unit, List.drop_left' (by simp [huid])]
  · rename_i hle
    have hlow : u8At (type5AddressedCommand iso15693CmdWriteSingle uidLsb ++ [unitLow block] ++ data) 10 =
        unitLow block := by
      rw [type5AddressedCommand, List.append_assoc, u8At_append_right _ _ (by simp [huid])]
      simp [huid]
    have hnat : (unitLow block).toNat = block.toNat := by
      rw [iso15693BlockAddr1ByteMax] at hle
      rw [unitLow, BitVec.toNat_setWidth]
      omega
    rw [isoWriteOf, if_pos ⟨rfl, rfl⟩, hlow, hnat, List.drop_left' (by simp [huid, type5AddressedCommand])]

theorem attempts_type5TransparentWriteBlock (uid : Frame) (block : Word) (data : Frame) :
    Attempts told ⟨block.toNat * 4, data⟩ (type5TransparentWriteBlock uid block data) := by
  rw [type5TransparentWriteBlock]
  split
  · exact attempts_error _
  have hoffers : Offers told ⟨block.toNat * 4, data⟩ (type5Addressed uid fun uidLsb =>
      type5AddressedBlockCommand iso15693CmdWriteSingle iso15693CmdExtWriteSingle uidLsb block ++ data) := by
    rw [type5Addressed, type5UidLsbFirst]
    by_cases huid : uid.length ≠ iso15693UidLen
    · rw [if_pos huid]
      exact offers_error _
    · rw [if_neg huid]
      refine offers_exchange ?_ ?_
      · rw [isoWriteOf_command (by rw [List.length_reverse]; exact not_not.mp huid), Nat.mul_div_cancel _ (by decide)]
      · rw [Nat.mul_div_cancel _ (by decide)]
  intro s
  refine Dialogue.holds_bind (hoffers s) fun result t _ hresult => ?_
  cases result with
  | error err => exact Dialogue.holds_pure trivial ⟨hresult.1, fun h => nomatch h⟩
  | ok response =>
      refine Dialogue.holds_pure trivial ⟨hresult.1, fun hok => ?_⟩
      by_cases hwritten : transparentWritten response = true
      · exact hresult.2 response rfl hwritten
      · rw [Except.bind, if_neg hwritten] at hok
        nomatch hok

theorem attempts_type5WriteBlock (uid : Frame) {block : Word} (hblock : block.toNat < 0x3FC0) (data : Frame) :
    Attempts told ⟨block.toNat * 4, data⟩ (type5WriteBlock uid block data) :=
  (attempts_type5StorageUpdateBinary hblock data).orElse rfl fun _ =>
    (attempts_type5TransparentWriteBlock uid block data).mapError _

theorem attempts_type5StorageWriteUnit (uid : Frame) {unit : Word} (hunit : unit.toNat < 0x3FC0) (bytes : Frame) :
    Attempts told ⟨unit.toNat * 4, bytes⟩ (type5StorageWriteUnit uid unit bytes) := by
  rw [type5StorageWriteUnit]
  split
  · split
    · exact attempts_error _
    · exact attempts_type5StorageUpdateBinary hunit bytes
  · exact attempts_type5WriteBlock uid hunit bytes

end Attempts

/-! ### Reads -/

/-- The program writes nothing and ends with what the memory says it can. -/
def Finds {tagUid : Frame} (told : Report tagUid) {α : Type} (found : File Byte → α → Prop)
    (program : Exchange α) : Prop :=
  ∀ s, program.Holds (Answers told) (fun _ => True) (fun r t => t = s ∧ found s r) s

section Finds

variable {α β : Type} {found : File Byte → α → Prop} {found' : File Byte → β → Prop}

theorem finds_pure {result : α} (h : ∀ s, found s result) : Finds told found (pure result) :=
  fun s => Dialogue.holds_pure trivial ⟨rfl, h s⟩

theorem Finds.bind {first : Exchange α} (h : Finds told found first) {next : α → Exchange β}
    (hnext : ∀ r, Finds told (fun s r' => found s r → found' s r') (next r)) : Finds told found' (first >>= next) := by
  intro s
  refine Dialogue.holds_bind (h s) fun r t _ hr => ?_
  obtain ⟨rfl, hfound⟩ := hr
  exact (hnext r t).mono (fun _ _ => trivial) fun r' u _ hu => ⟨hu.1, hu.2 hfound⟩

theorem Finds.mono {program : Exchange α} (h : Finds told found program) {found'' : File Byte → α → Prop}
    (hmono : ∀ s r, found s r → found'' s r) : Finds told found'' program := fun s =>
  (h s).mono (fun _ _ => trivial) fun r _ _ hr => ⟨hr.1, hmono s r hr.2⟩

/-- A block that was read, or whole blocks from it on. -/
def BlockData (block : Word) (s : File Byte) (data : Frame) : Prop :=
  4 ∣ data.length ∧ data = bytesAt s (block.toNat * 4) data.length

/-- A successful read has brought such data. -/
def Brings {ε : Type} (data : File Byte → Frame → Prop) (s : File Byte) (r : Except ε Frame) : Prop :=
  ∀ x, r = .ok x → data s x

theorem brings_error {ε : Type} {data : File Byte → Frame → Prop} {s : File Byte} {err : ε} :
    Brings data s (.error err) := fun _ h => nomatch h

/-- A command that writes nothing: what is accepted of its answer is the result. -/
theorem finds_answer {apdu : Frame} (hwrite : writeOf apdu = none) :
    Finds told (fun s r => ∃ answer, Truthful told s apdu answer ∧ ∀ x, r = .ok x ↔ accepted answer = some x)
      (transmitOk apdu) := by
  intro s
  refine ⟨trivial, fun answer t hstep => ?_⟩
  rw [Answers, hwrite] at hstep
  obtain ⟨rfl, htruthful⟩ := hstep
  cases answer with
  | error err => exact ⟨trivial, rfl, _, htruthful, fun x => iff_of_false nofun nofun⟩
  | ok rapdu =>
      refine ⟨trivial, rfl, _, htruthful, fun x => ?_⟩
      rw [accepted]
      by_cases hsw : responseSwOk rapdu = true
      · rw [if_pos hsw, if_pos hsw, Except.ok.injEq, Option.some.injEq]
      · rw [if_neg hsw, if_neg hsw]
        exact iff_of_false nofun nofun

theorem finds_transmitOk {apdu : Frame} {data : File Byte → Frame → Prop} (hwrite : writeOf apdu = none)
    (htrue : ∀ s answer x, Truthful told s apdu answer → accepted answer = some x → data s x) :
    Finds told (Brings data) (transmitOk apdu) :=
  (finds_answer hwrite).mono fun s _ ⟨answer, htruthful, haccepted⟩ x hx =>
    htrue s answer x htruthful ((haccepted x).mp hx)

theorem finds_readWithLen {p1 p2 : Byte} {block : Word} (h : ∀ le, blockRead (readBinaryApdu p1 p2 le) = some block)
    (le : Byte) (sw : Byte × Byte) : Finds told (Brings (BlockData block)) (readWithLen p1 p2 le sw) := by
  have hwrite : writeOf (readBinaryApdu p1 p2 le) = none := rfl
  intro s
  refine ⟨trivial, fun answer t hstep => ?_⟩
  rw [Answers, hwrite] at hstep
  obtain ⟨rfl, htruthful⟩ := hstep
  cases answer with
  | error err => exact ⟨trivial, rfl, fun x h => nomatch h⟩
  | ok rapdu =>
      refine ⟨trivial, rfl, fun x hx => ?_⟩
      by_cases hsw : responseSwOk rapdu = true
      · rw [if_pos hsw] at hx
        obtain rfl := Except.ok.inj hx
        exact htruthful.readBinary _ block (if_pos hsw) rfl (h le)
      · rw [if_neg hsw] at hx
        nomatch hx

theorem finds_readAgain {p1 p2 : Byte} {block : Word} (h : ∀ le, blockRead (readBinaryApdu p1 p2 le) = some block)
    (asks : Byte × Byte → Option Byte) (before : Except (String × Byte × Byte) Frame) :
    Finds told (fun s r => Brings (BlockData block) s before → Brings (BlockData block) s r)
      (readAgain p1 p2 asks before) := by
  rcases before with ⟨err, sw⟩ | data
  · rw [readAgain]
    split
    · exact finds_pure fun s hbefore => hbefore
    · exact (finds_readWithLen h _ _).mono fun s r hr _ => hr
  · exact finds_pure fun s hbefore => hbefore

theorem finds_storageReadBinaryApdu {p1 p2 : Byte} {block : Word}
    (h : ∀ le, blockRead (readBinaryApdu p1 p2 le) = some block) (len : Byte) :
    Finds told (Brings (BlockData block)) (storageReadBinaryApdu p1 p2 len) := by
  refine (finds_readWithLen h _ _).bind fun first => ?_
  refine (finds_readAgain h _ first).bind fun second => ?_
  refine (finds_readAgain h _ second).bind fun third => finds_pure fun s hthird hsecond hfirst x hx => ?_
  cases third with
  | error err => nomatch hx
  | ok data =>
      obtain rfl := Except.ok.inj hx
      exact hthird (hsecond hfirst) data rfl

theorem finds_type5StorageReadBinary {block : Word} (hblock : block.toNat < 0x3FC0) (len : Byte) :
    Finds told (Brings (BlockData block)) (type5StorageReadBinary block len) := by
  have hfirst : Finds told (Brings (BlockData block))
      (if block.toNat ≤ iso15693BlockAddr1ByteMax then storageReadBinaryApdu claProprietary (unitLow block) len
        else pure (.error "")) := by
    split
    · rename_i hle
      exact finds_storageReadBinaryApdu (blockRead_byBlock hle) len
    · exact finds_pure fun s x h => nomatch h
  refine hfirst.bind fun first => ?_
  cases first with
  | ok data => exact finds_pure fun s h => h
  | error err =>
      dsimp only
      split
      · exact finds_pure fun s _ x h => nomatch h
      rename_i offset hoffset
      refine (finds_storageReadBinaryApdu (blockRead_byOffset hoffset hblock) len).bind fun second => ?_
      refine finds_pure fun s hsecond _ x hx => ?_
      cases second with
      | error err => nomatch hx
      | ok data =>
          obtain rfl := Except.ok.inj hx
          exact hsecond data rfl

theorem finds_exchange {cmd : Frame} {data : File Byte → Frame → Prop} (hwrite : isoWriteOf cmd = none)
    (htrue : ∀ s p2 answer x, Truthful told s (transparentApdu p2 cmd) answer → accepted answer = some x → data s x) :
    Finds told (Brings data) (type5TransparentExchange cmd) := by
  have hapdu : ∀ p2, writeOf (transparentApdu p2 cmd) = none := by
    intro p2
    have hins : u8At (transparentApdu p2 cmd) 1 = insTransparent := rfl
    have hbody : (transparentApdu p2 cmd).drop 5 = cmd := rfl
    rw [writeOf, hins, if_neg (by decide), if_pos rfl, hbody, hwrite, Option.map_none]
  rw [type5TransparentExchange]
  split
  · exact finds_pure fun s x h => nomatch h
  refine (finds_transmitOk (hapdu _) fun s answer x => htrue s _ answer x).bind fun first => ?_
  cases first with
  | ok response => exact finds_pure fun s h => h
  | error err => exact (finds_transmitOk (hapdu _) fun s answer x => htrue s _ answer x).mono fun s r h _ => h

theorem finds_type5Addressed {uid : Frame} {command : Frame → Frame} {data : File Byte → Frame → Prop}
    (h : ∀ uidLsb, uidLsb.length = iso15693UidLen →
      Finds told (Brings data) (type5TransparentExchange (command uidLsb))) :
    Finds told (Brings data) (type5Addressed uid command) := by
  rw [type5Addressed, type5UidLsbFirst]
  by_cases huid : uid.length ≠ iso15693UidLen
  · rw [if_pos huid]
    exact finds_pure fun s x hx => nomatch hx
  · rw [if_neg huid]
    exact h _ (by rw [List.length_reverse]; exact not_not.mp huid)

theorem isoReadOf_command {uidLsb : Frame} (huid : uidLsb.length = iso15693UidLen) (block : Word) :
    isoReadOf (type5AddressedBlockCommand iso15693CmdReadSingle iso15693CmdExtReadSingle uidLsb block) =
      some block.toNat ∧
    isoWriteOf (type5AddressedBlockCommand iso15693CmdReadSingle iso15693CmdExtReadSingle uidLsb block) = none := by
  rw [iso15693UidLen] at huid
  rw [type5AddressedBlockCommand]
  split
  · have hlow : u8At ([iso15693FlagsAddressed ||| iso15693FlagProtocolExtension, iso15693CmdExtReadSingle] ++ uidLsb ++
        [unitLow block, unitHigh block]) 10 = unitLow block := by
      rw [u8At_append_right _ _ (by simp [huid])]
      simp [huid]
    have hhigh : u8At ([iso15693FlagsAddressed ||| iso15693FlagProtocolExtension, iso15693CmdExtReadSingle] ++ uidLsb ++
        [unitLow block, unitHigh block]) 11 = unitHigh block := by
      rw [u8At_append_right _ _ (by simp [huid])]
      simp [huid]
    constructor
    · rw [isoReadOf, if_neg (fun h => absurd h.1 (show (0x2A : Byte) ≠ 0x22 by decide)), if_pos ⟨rfl, rfl⟩, hlow, hhigh,
        bigEndian_unit]
    · rw [isoWriteOf, if_neg (fun h => absurd h.1 (show (0x2A : Byte) ≠ 0x22 by decide)),
        if_neg (fun h => absurd h.2 (show (0x30 : Byte) ≠ 0x31 by decide))]
  · rename_i hle
    have hlow : u8At (type5AddressedCommand iso15693CmdReadSingle uidLsb ++ [unitLow block]) 10 = unitLow block := by
      rw [type5AddressedCommand, u8At_append_right _ _ (by simp [huid])]
      simp [huid]
    have hnat : (unitLow block).toNat = block.toNat := by
      rw [iso15693BlockAddr1ByteMax] at hle
      rw [unitLow, BitVec.toNat_setWidth]
      omega
    constructor
    · rw [isoReadOf, if_pos ⟨rfl, rfl⟩, hlow, hnat]
    · rw [isoWriteOf, if_neg (fun h => absurd h.2 (show (0x20 : Byte) ≠ 0x21 by decide)),
        if_neg (fun h => absurd h.1 (show (0x22 : Byte) ≠ 0x2A by decide))]

theorem finds_type5TransparentReadBlock (uid : Frame) (block : Word) :
    Finds told (Brings fun s data => data = bytesAt s (block.toNat * 4) 4) (type5TransparentReadBlock uid block) := by
  have hresponse : Finds told
      (Brings fun s response => ∀ data, transparentBlock response = .ok data → data = bytesAt s (block.toNat * 4) 4)
      (type5Addressed uid fun uidLsb =>
        type5AddressedBlockCommand iso15693CmdReadSingle iso15693CmdExtReadSingle uidLsb block) := by
    refine finds_type5Addressed fun uidLsb huid => ?_
    obtain ⟨hread, hwrite⟩ := isoReadOf_command huid block
    refine finds_exchange hwrite fun s p2 answer response htruthful haccepted data hdata => ?_
    exact htruthful.transparent response data _ haccepted rfl hread hdata
  refine hresponse.bind fun r => finds_pure fun s hr data hdata => ?_
  cases r with
  | error err => nomatch hdata
  | ok response => exact hr response rfl data hdata

end Finds

/-! ### The container -/

section Container

theorem finds_tryGetDataBytes : Finds told (fun s data => data = bytesAt s 0 data.length)
    (tryGetDataBytes getDataType5Cc getDataP2Default) := by
  have hwrite : writeOf (getDataApdu getDataType5Cc) = none := rfl
  have htransmit : Finds told (Brings fun s data => data = bytesAt s 0 data.length)
      (transmitOk (getDataApdu getDataType5Cc)) :=
    finds_transmitOk hwrite fun s answer x htruthful haccepted => htruthful.container x haccepted rfl
  refine htransmit.bind fun r => finds_pure fun s hr => ?_
  cases r with
  | error err => rfl
  | ok data => exact hr data rfl

theorem finds_readSecondCcBlock (firstBlock : Frame) :
    Finds told (fun s r => ccLenOf s = 8 → firstBlock = bytesAt s 0 firstBlock.length → 4 ∣ firstBlock.length →
      4 ≤ firstBlock.length → Brings IsContainer s r) (readSecondCcBlock firstBlock) := by
  refine (finds_type5StorageReadBinary (by decide) _).bind fun second => ?_
  refine finds_pure fun s hsecond hlen hfirst hwhole hpos x hx => ?_
  cases second with
  | error err => nomatch hx
  | ok secondBlock =>
      obtain ⟨-, hdata⟩ := hsecond secondBlock rfl
      by_cases hshort : secondBlock.length < t5tCcLenShort
      · rw [Except.bind, if_pos hshort] at hx
        nomatch hx
      · rw [Except.bind, if_neg hshort] at hx
        obtain rfl := Except.ok.inj hx
        rw [t5tCcLenShort] at hshort
        refine isContainer_two hlen hfirst hwhole hpos ?_
        rw [hdata]
        exact bytesAt_take s 4 (Nat.le_of_not_lt hshort)

theorem finds_readType5CcStorage (cc : Frame) :
    Finds told (fun s r => cc = bytesAt s 0 cc.length → Brings IsContainer s r) (readType5CcStorage cc) := by
  have hfirst : Finds told (Brings fun s firstBlock => cc = bytesAt s 0 cc.length →
        4 ∣ firstBlock.length ∧ firstBlock = bytesAt s 0 firstBlock.length ∧ (firstBlock.length = 4 ∨ cc.length < 4))
      (if t5tCcLenShort ≤ cc.length then pure (.ok (cc.take t5tCcLenShort)) else type5StorageReadBinary 0 4) := by
    split
    · rename_i hle
      have hlen : (cc.take t5tCcLenShort).length = 4 := List.length_take_of_le hle
      refine finds_pure fun s x hx hcc => ?_
      obtain rfl := Except.ok.inj hx
      rw [hlen]
      refine ⟨Nat.dvd_refl 4, ?_, Or.inl rfl⟩
      rw [hcc]
      exact bytesAt_take s 0 hle
    · rename_i hlt
      rw [t5tCcLenShort] at hlt
      refine (finds_type5StorageReadBinary (by decide) _).mono fun s r hr x hx _ => ?_
      obtain ⟨hwhole, hdata⟩ := hr x hx
      exact ⟨hwhole, hdata, Or.inr (by omega)⟩
  refine hfirst.bind fun first => ?_
  cases first with
  | error err => exact finds_pure fun s _ _ => brings_error
  | ok firstBlock =>
      dsimp only
      split
      · exact finds_pure fun s _ _ => brings_error
      rename_i hpos
      rw [t5tCcLenShort] at hpos
      split
      · exact finds_pure fun s _ _ => brings_error
      split
      · rename_i hle
        refine finds_pure fun s hr hcc x hx => ?_
        obtain rfl := Except.ok.inj hx
        obtain ⟨-, hdata, -⟩ := hr firstBlock rfl hcc
        have hdeclared := declaredCcLen_bytesAt s (show 4 ≤ firstBlock.length by omega)
        rw [← hdata] at hdeclared
        rw [hdeclared] at hle ⊢
        rw [IsContainer, List.take_take, Nat.min_self, hcc]
        exact bytesAt_take s 0 hle
      rename_i hmore
      split
      · rename_i hext
        refine (finds_readSecondCcBlock firstBlock).mono fun s r hr hfound hcc => ?_
        obtain ⟨hwhole, hdata, -⟩ := hfound firstBlock rfl hcc
        have hdeclared := declaredCcLen_bytesAt s (show 4 ≤ firstBlock.length by omega)
        rw [← hdata, hext] at hdeclared
        exact hr hdeclared.symm hdata hwhole (by omega)
      · rename_i hext
        refine finds_pure fun s hr hcc x hx => ?_
        obtain rfl := Except.ok.inj hx
        obtain ⟨-, hdata, -⟩ := hr firstBlock rfl hcc
        have hdeclared := declaredCcLen_bytesAt s (show 4 ≤ firstBlock.length by omega)
        rw [← hdata] at hdeclared
        rw [hdeclared, t5tCcLenExtended] at hext
        have hshort := (ccLenOf_cases s).resolve_right hext
        rw [hdata]
        exact isContainer_bytesAt s (by omega)

theorem finds_readType5CcTransparent (uid : Frame) (storageErr : String) :
    Finds told (Brings IsContainer) (readType5CcTransparent uid storageErr) := by
  refine (finds_type5TransparentReadBlock uid 0).bind fun first => ?_
  cases first with
  | error err => exact finds_pure fun s _ x hx => nomatch hx
  | ok firstBlock =>
      have hdeclared : ∀ s, Brings (ε := String) (fun s data => data = bytesAt s ((0 : Word).toNat * 4) 4) s
        (.ok firstBlock) →
          firstBlock = bytesAt s 0 4 ∧ type5DeclaredCcLen firstBlock = ccLenOf s := by
        intro s hfirst
        have hdata : firstBlock = bytesAt s 0 4 := hfirst firstBlock rfl
        refine ⟨hdata, ?_⟩
        rw [hdata]
        exact declaredCcLen_bytesAt s (Nat.le_refl 4)
      dsimp only
      split
      · rename_i hext
        refine (finds_type5TransparentReadBlock uid 1).bind fun second => finds_pure fun s hsecond hfirst x hx => ?_
        obtain ⟨hdata, hlen⟩ := hdeclared s hfirst
        cases second with
        | error err => nomatch hx
        | ok secondBlock =>
            obtain rfl := Except.ok.inj hx
            have hfour : firstBlock.length = 4 := by rw [hdata, bytesAt_length]
            refine isContainer_two (hlen.symm.trans hext) (by rw [hfour]; exact hdata) (by omega) (by omega) ?_
            exact hsecond secondBlock rfl
      · rename_i hshort
        refine finds_pure fun s hfirst x hx => ?_
        obtain ⟨hdata, hlen⟩ := hdeclared s hfirst
        obtain rfl := Except.ok.inj hx
        rw [hlen, t5tCcLenExtended] at hshort
        rw [hdata]
        exact isContainer_bytesAt s (Nat.le_of_eq ((ccLenOf_cases s).resolve_right hshort))

/-- **The container is read from the tag.** -/
theorem finds_readType5Cc (uid : Frame) : Finds told (Brings IsContainer) (readType5Cc uid []) := by
  have hfirst : Finds told (fun s data => data = bytesAt s 0 data.length)
      (if ([] : Frame).length < t5tCcLenShort then tryGetDataBytes getDataType5Cc getDataP2Default else pure []) :=
    finds_tryGetDataBytes
  refine hfirst.bind fun cached => ?_
  have hcached : (if cached.length = 0 then [] else cached) = cached := by
    split
    · rename_i hzero
      exact (List.length_eq_zero_iff.mp hzero).symm
    · rfl
  rw [hcached]
  refine (finds_readType5CcStorage cached).bind fun storage => ?_
  cases storage with
  | ok cc => exact finds_pure fun s h hcc => h hcc
  | error err => exact (finds_readType5CcTransparent uid err).mono fun s r h _ _ => h

end Container

/-! ### The system information -/

/-- One byte counts 256 blocks at most. -/
theorem applySystemInfo_blockCount (info : Type5Info) (raw : Frame) :
    (applySystemInfo info raw).blockCount.toNat ≤ 256 := by
  rw [applySystemInfo]
  split
  · exact Nat.zero_le _
  split
  · have hlt := (u8At raw (memorySizePos raw)).isLt
    change ((u8At raw (memorySizePos raw)).zeroExtend 16 + 1).toNat ≤ 256
    rw [BitVec.toNat_add, BitVec.toNat_setWidth, show (1 : BitVec 16).toNat = 1 by rfl]
    omega
  · exact Nat.zero_le _

theorem acceptSystemInfo_cc {apply : Type5Info → Frame → Type5Info}
    (happly : ∀ info raw, (apply info raw).toType5Cc = info.toType5Cc) (minLen rawMax : Nat) (info : Type5Info)
    (answer : Except String Frame) :
    (acceptSystemInfo minLen rawMax apply info answer).toType5Cc = info.toType5Cc := by
  cases answer with
  | error err => rfl
  | ok systemInfo =>
      rw [acceptSystemInfo]
      split
      · exact happly _ _
      · rfl

theorem Counts.applied {count : Word} {systemInfo : Frame} (h : Counts count systemInfo) (info : Type5Info) :
    (applySystemInfo info (systemInfo.take byteValueMax)).blockCount = count ∧
      (applySystemInfo info (systemInfo.take byteValueMax)).blockSize = type5BlockSize ∧ count.toNat ≤ 256 := by
  obtain ⟨hlen, -, hcount⟩ := h
  obtain ⟨hblocks, hsize⟩ := hcount info
  rw [List.take_of_length_le hlen]
  refine ⟨hblocks, hsize, ?_⟩
  rw [← hblocks]
  exact applySystemInfo_blockCount _ _

/-- GET DATA brings the count where it is the way the reader reports it, and no other count in any case. -/
theorem finds_systemInfo : Finds told
    (fun s data => ccSignalsMlenOverflow (containerOf s) = false →
      (systemInfoResponseOk sysInfoMinReplyLen data = true → Counts told.count data) ∧
        (told.route = .getData → Counts told.count data))
    (tryGetDataBytes getDataType5SysInfo getDataP2Default) := by
  refine (finds_answer (show writeOf (getDataApdu getDataType5SysInfo) = none from rfl)).bind fun r =>
    finds_pure fun s h hdefers => ?_
  obtain ⟨answer, htruthful, haccepted⟩ := h
  cases r with
  | error err =>
      refine ⟨fun hok => absurd hok Bool.false_ne_true, fun hroute => ?_⟩
      obtain ⟨data, hdata, -⟩ := htruthful.reported (by rw [hroute]; rfl) hdefers
      nomatch (haccepted data).mpr hdata
  | ok x =>
      have hx := (haccepted x).mp rfl
      refine ⟨fun hok => htruthful.systemInfo x hx ⟨.getData, rfl⟩ hok hdefers, fun hroute => ?_⟩
      obtain ⟨data, hdata, hcounts⟩ := htruthful.reported (by rw [hroute]; rfl) hdefers
      rw [hx] at hdata
      obtain rfl := Option.some.inj hdata
      exact hcounts

theorem isoWriteOf_systemInfo (uidLsb : Frame) :
    isoWriteOf (type5AddressedCommand iso15693CmdGetSysInfo uidLsb) = none := by
  rw [isoWriteOf, if_neg (fun h => absurd h.2 (show (0x2B : Byte) ≠ 0x21 by decide)),
    if_neg (fun h => absurd h.1 (show (0x22 : Byte) ≠ 0x2A by decide))]

theorem writeOf_systemInfoApdu (p2 : Byte) (uid : Frame) : writeOf (systemInfoApdu p2 uid) = none := by
  have hins : u8At (systemInfoApdu p2 uid) 1 = insTransparent := rfl
  have hbody : (systemInfoApdu p2 uid).drop 5 = type5AddressedCommand iso15693CmdGetSysInfo uid.reverse := rfl
  rw [writeOf, hins, if_neg (by decide), if_pos rfl, hbody, isoWriteOf_systemInfo, Option.map_none]

/-- One form of the transparent command, when it is the way the reader reports the count and when it is not. -/
theorem Truthful.counted {s : File Byte} {answer r : Except String Frame} (route : Route tagUid)
    (htruthful : Truthful told s route.asks answer) (haccepted : ∀ x, r = .ok x ↔ accepted answer = some x)
    (hdefers : ccSignalsMlenOverflow (containerOf s) = false) :
    (∀ x, r = .ok x → systemInfoResponseOk sysInfoMinReplyLen x = true → Counts told.count x) ∧
      (told.route = route → ∃ x, r = .ok x ∧ Counts told.count x) := by
  refine ⟨fun x hx hok => htruthful.systemInfo x ((haccepted x).mp hx) ⟨route, rfl⟩ hok hdefers, fun hroute => ?_⟩
  obtain ⟨data, hdata, hcounts⟩ := htruthful.reported (by rw [hroute]) hdefers
  exact ⟨data, (haccepted data).mpr hdata, hcounts⟩

/-- The transparent command brings the count where the reader does not report it by GET DATA. -/
theorem finds_transparentSystemInfo : Finds told
    (fun s (r : Except String Frame) => ccSignalsMlenOverflow (containerOf s) = false →
      (∀ x, r = .ok x → systemInfoResponseOk sysInfoMinReplyLen x = true → Counts told.count x) ∧
        (told.route ≠ .getData → ∃ x, r = .ok x ∧ Counts told.count x))
    (type5Addressed tagUid (type5AddressedCommand iso15693CmdGetSysInfo)) := by
  rw [type5Addressed, type5UidLsbFirst]
  by_cases huid : tagUid.length ≠ iso15693UidLen
  · rw [if_pos huid]
    refine finds_pure fun s _ => ⟨nofun, fun hroute => ?_⟩
    cases hcase : told.route with
    | getData => exact absurd hcase hroute
    | transparent hlen => exact absurd hlen huid
    | transparentAgain hlen => exact absurd hlen huid
  rw [if_neg huid]
  have hlen : (type5AddressedCommand iso15693CmdGetSysInfo tagUid.reverse).length = 10 := by
    rw [type5AddressedCommand, List.length_append, List.length_reverse, not_ne_iff.mp huid]
    rfl
  dsimp only
  rw [type5TransparentExchange, if_neg (by rw [hlen]; decide)]
  refine (finds_answer (writeOf_systemInfoApdu sw2Success tagUid)).bind fun first => ?_
  cases first with
  | ok response =>
      refine finds_pure fun s h hdefers => ?_
      obtain ⟨answer, htruthful, haccepted⟩ := h
      obtain ⟨hcounts, hreported⟩ :=
        htruthful.counted (.transparent (not_ne_iff.mp huid)) haccepted hdefers
      refine ⟨hcounts, fun hroute => ?_⟩
      cases hcase : told.route with
      | getData => exact absurd hcase hroute
      | transparent hlen => exact hreported hcase
      | transparentAgain hlen =>
          -- the first form would have been refused
          have hrefused := htruthful.secondForm hlen hcase rfl
          rw [(haccepted response).mp rfl] at hrefused
          nomatch hrefused
  | error err =>
      refine (finds_answer (writeOf_systemInfoApdu getDataAts tagUid)).mono fun s second h hfirst hdefers => ?_
      obtain ⟨answer, htruthful, haccepted⟩ := h
      obtain ⟨hcounts, hreported⟩ :=
        htruthful.counted (.transparentAgain (not_ne_iff.mp huid)) haccepted hdefers
      refine ⟨hcounts, fun hroute => ?_⟩
      cases hcase : told.route with
      | getData => exact absurd hcase hroute
      | transparent hlen =>
          -- the first form would have been answered
          obtain ⟨answer, htruthful, haccepted⟩ := hfirst
          obtain ⟨x, hx, -⟩ := (htruthful.counted (.transparent hlen) haccepted hdefers).2 hcase
          nomatch hx
      | transparentAgain hlen => exact hreported hcase

theorem finds_plainCommand (uid : Frame) {command : Frame → Frame} (h : ∀ uidLsb, isoWriteOf (command uidLsb) = none) :
    Finds told (Brings fun _ _ => True) (type5Addressed uid command) :=
  finds_type5Addressed fun uidLsb _ => finds_exchange (h uidLsb) fun _ _ _ _ _ _ => trivial

/-- **The block count is the one that is reported**; a container that defers its size may keep another. -/
theorem finds_type5ApplySystemInfo {info : Type5Info} (hinfo : info.blockCount = 0) :
    Finds told (fun s r => info.toType5Cc = containerOf s → r.ccLen = info.ccLen ∧
        (ccSignalsMlenOverflow (containerOf s) = false → r.toType5Cc = info.toType5Cc ∧ r.blockCount = told.count ∧
          r.blockSize = type5BlockSize ∧ told.count.toNat ≤ 256))
      (type5ApplySystemInfo tagUid info) := by
  rw [type5ApplySystemInfo, if_neg (not_not.mpr hinfo)]
  refine finds_systemInfo.bind fun systemInfo => ?_
  have hfirst : Finds told (fun s (r : Type5Info) => (ccSignalsMlenOverflow (containerOf s) = false →
        (systemInfoResponseOk sysInfoMinReplyLen systemInfo = true → Counts told.count systemInfo) ∧
          (told.route = .getData → Counts told.count systemInfo)) →
      r.toType5Cc = info.toType5Cc ∧ (ccSignalsMlenOverflow (containerOf s) = false →
        r.blockCount = told.count ∧ r.blockSize = type5BlockSize ∧ told.count.toNat ≤ 256))
      (if systemInfoResponseOk sysInfoMinReplyLen systemInfo then
        pure (applySystemInfo info (systemInfo.take byteValueMax))
      else type5Addressed tagUid (type5AddressedCommand iso15693CmdGetSysInfo) >>= fun answer =>
        pure (acceptSystemInfo sysInfoMinReplyLen byteValueMax applySystemInfo info answer)) := by
    split
    · rename_i hok
      exact finds_pure fun s hcounts => ⟨applySystemInfo_cc _ _, fun hdefers => ((hcounts hdefers).1 hok).applied info⟩
    · rename_i hrefused
      refine finds_transparentSystemInfo.bind fun answer => finds_pure fun s hanswer hcounts => ?_
      refine ⟨acceptSystemInfo_cc applySystemInfo_cc _ _ _ _, fun hdefers => ?_⟩
      have hroute : told.route ≠ .getData := fun hroute => hrefused ((hcounts hdefers).2 hroute).2.1
      obtain ⟨x, rfl, hx⟩ := (hanswer hdefers).2 hroute
      rw [acceptSystemInfo, if_pos hx.2.1]
      exact hx.applied info
  refine hfirst.bind fun read => ?_
  have hsecond : Finds told (fun s (r : Type5Info) => read.toType5Cc = containerOf s →
      r.toType5Cc = read.toType5Cc ∧ (ccSignalsMlenOverflow (containerOf s) = false → r = read))
      (if ccSignalsMlenOverflow read.toType5Cc then
        type5Addressed tagUid type5AddressedSystemInfoExtCommand >>= fun answer =>
          pure (acceptSystemInfo extSysInfoMinReplyLen sysInfoRawFieldMax applySystemInfoExt read answer)
      else pure read) := by
    split
    · rename_i hdefers
      have hcommand : ∀ uidLsb, isoWriteOf (type5AddressedSystemInfoExtCommand uidLsb) = none := by
        intro uidLsb
        rw [isoWriteOf, if_neg (fun h => absurd h.1 (show (0x2A : Byte) ≠ 0x22 by decide)),
          if_neg (fun h => absurd h.2 (show (0x3B : Byte) ≠ 0x31 by decide))]
      refine (finds_plainCommand tagUid hcommand).bind fun answer => finds_pure fun s _ hcc => ?_
      refine ⟨acceptSystemInfo_cc applySystemInfoExt_cc _ _ _ _, fun hno => ?_⟩
      rw [← hcc, hdefers] at hno
      nomatch hno
    · exact finds_pure fun s _ => ⟨rfl, fun _ => rfl⟩
  refine hsecond.bind fun last => finds_pure fun s hlast hread hcounts hcc => ?_
  obtain ⟨hreadCc, hreadCount⟩ := hread hcounts
  obtain ⟨hlastCc, hlastSame⟩ := hlast (hreadCc.trans hcc)
  have hlen : last.ccLen = info.ccLen := congrArg Type5Cc.ccLen (hlastCc.trans hreadCc)
  refine ⟨(resolveMlenOverflow_ccLen last).trans hlen, fun hdefers => ?_⟩
  have hstays : resolveMlenOverflow last = last := by
    rw [resolveMlenOverflow, hlastCc, hreadCc, hcc]
    exact if_pos (Or.inr hdefers)
  rw [hstays, hlastSame hdefers]
  exact ⟨hreadCc, hreadCount hdefers⟩

/-! ### The write -/

/-- The bytes, zero-padded to whole blocks. -/
def wholeBlocks (bytes : Frame) : Frame := bytes ++ List.replicate ((bytes.length + 3) / 4 * 4 - bytes.length) 0

/-- **The message is in place**: the container is one that is accepted, it declares room for the TLV, and the
blocks behind it hold the TLV. -/
structure InPlace (s : File Byte) (tlv : Frame) : Prop where
  accepted : (containerOf s).ccValid = true
  declared : tlv.length ≤ (containerOf s).dataAreaSizeBytes.toNat
  stored : Has s (containerOf s).ccLen.toNat (wholeBlocks tlv)

/-- **The old container leads to room for the TLV**: it declares enough, or it is a short one and the TLV fits the
blocks behind it, as far as they fill whole units of eight bytes. -/
def LeadsToRoom (count : Word) (s : File Byte) (tlvLen : Nat) : Prop :=
  tlvLen ≤ (containerOf s).dataAreaSizeBytes.toNat ∨
    s 2 ≠ 0 ∧ (count.toNat ≤ 1 ∨ tlvLen ≤ 8 * ((count.toNat - 1) / 2))

theorem type5StorageWriteUnit_wrote (uid : Frame) (im : Image) (hsize : im.unitSize = type5BlockSize)
    (hrange : im.firstUnit.toNat + im.units ≤ 0x3FC0) (unit : Word) (chunk : Frame) (s : File Byte)
    (hpart : im.Part unit chunk) :
    (type5StorageWriteUnit uid unit chunk).Holds (Answers told) (fun _ => True)
      (Wrote id (fun _ _ _ => True) im.unitSize.toNat s unit chunk) s := by
  obtain ⟨k, n, hpos, -, hend, hunit, -⟩ := hpart
  have hfour : im.unitSize.toNat = 4 := by rw [hsize]; rfl
  rw [hfour]
  refine (attempts_type5StorageWriteUnit uid (by omega) chunk s).mono (fun _ _ => trivial) fun r t _ hr => ?_
  refine ⟨hr.1, ?_⟩
  cases r with
  | ok => exact hr.2 rfl
  | error err => trivial

/-- The TLV goes behind the container, and nothing else changes. -/
theorem type5WriteTlv_holds (uid : Frame) {info : Type5Info} {cc tlv : Frame} {len : Nat}
    (hlen : type5CcLenOrDefault info cc = len) (hcases : len = 4 ∨ len = 8) (htlv : tlv.length ≤ 2040) (s : File Byte) :
    (type5WriteTlv uid info cc tlv).Holds (Answers told) (fun _ => True)
      (fun r t => (∀ i < len, t i = s i) ∧ (r = .ok () → Has t len (wholeBlocks tlv))) s := by
  have herror : ∀ err, (pure (.error err) : Exchange (Except String Unit)).Holds (Answers told) (fun _ => True)
      (fun r t => (∀ i < len, t i = s i) ∧ (r = .ok () → Has t len (wholeBlocks tlv))) s :=
    fun _ => Dialogue.holds_pure trivial ⟨fun _ _ => rfl, fun h => nomatch h⟩
  have hunits : storageUnits tlv.length 4 = (tlv.length + 3) / 4 := u16_of_le (by omega)
  have hstart : (BitVec.ofNat 16 (len / storageType5BlockSize) : Word).toNat * 4 = len := by
    rw [storageType5BlockSize, BitVec.toNat_ofNat]
    omega
  have hfirst : (BitVec.ofNat 16 (len / storageType5BlockSize) : Word).toNat ≤ 2 := by omega
  rw [type5WriteTlv, hlen]
  dsimp only
  split
  · exact herror _
  split
  · exact herror _
  split
  · exact herror _
  have hrange : (BitVec.ofNat 16 (len / storageType5BlockSize) : Word).toNat +
      storageUnits tlv.length type5BlockSize.toNat ≤ 0x10000 := by
    change _ + storageUnits tlv.length 4 ≤ 0x10000
    omega
  obtain ⟨im, himFirst, himSize, himBytes, hloop⟩ := storageWriteUnitsWithIo_eq (type5StorageWriteUnit uid)
    (show 1 ≤ type5BlockSize.toNat by decide) (show tlv.length ≤ 0xFFFF by omega) hrange
  have himUnits : im.units = (tlv.length + 3) / 4 := by
    rw [Image.units, himBytes, himSize]
    exact hunits
  have hplace : im.place 0 = len := by
    rw [Image.place, Nat.add_zero, himFirst, himSize]
    exact hstart
  have hpadded : im.padded = wholeBlocks tlv := by
    rw [Image.padded, himUnits, himBytes, himSize, wholeBlocks]
    rfl
  have hstored := Image.storedTo_zero id im s
  have hwrite : ∀ unit chunk (t : File Byte), True → im.Part unit chunk →
      (type5StorageWriteUnit uid unit chunk).Holds (Answers told) (fun _ => True)
        (Wrote id (fun _ _ _ => True) im.unitSize.toNat t unit chunk) t := fun unit chunk t _ hpart =>
    type5StorageWriteUnit_wrote uid im himSize (by rw [himFirst]; omega) unit chunk t hpart
  rw [hloop]
  refine (writeUnitsFrom_holds hwrite (Nat.zero_le _) trivial hstored).mono (fun _ _ => trivial) fun r t _ hr => ?_
  refine ⟨fun i hi => hr.1 i (Or.inl (by rw [hplace]; exact hi)), ?_⟩
  rintro rfl
  have hhas := hr.2
  rwa [hplace, hpadded] at hhas

/-- What the refresh of the container comes to when it succeeds: the TLV fits the short form, and the container
stays because it is extended or declares enough, or it is a short one and is replaced. -/
theorem type5RefreshCcIfNeeded_holds (uid : Frame) {info : Type5Info} {cc : Frame} {s : File Byte}
    (hcc : IsContainer s cc) (tlvLen : Nat) :
    (type5RefreshCcIfNeeded uid info cc tlvLen).Holds (Answers told) (fun _ => True)
      (fun r t => r = .ok () → (tlvLen + 7) / 8 ≤ 255 ∧
        ((t = s ∧ (s 2 = 0 ∨ type5NeedMlen info cc ((tlvLen + 7) / 8) ≤ (s 2).toNat)) ∨
          s 2 ≠ 0 ∧ (s 2).toNat < type5NeedMlen info cc ((tlvLen + 7) / 8) ∧
            Has t 0 [forumCcMagic, t5tCcVerAccess, BitVec.ofNat 8 (type5NeedMlen info cc ((tlvLen + 7) / 8)),
              sw2Success])) s := by
  obtain ⟨-, hdeclared, hlen, hmlen⟩ := hcc.spec
  rw [type5RefreshCcIfNeeded, hdeclared, if_pos hlen, hmlen]
  split
  · exact Dialogue.holds_pure trivial (by simp)
  rename_i hneed
  have hfits : (tlvLen + 7) / 8 ≤ 255 := Nat.le_of_not_lt hneed
  split
  · rename_i hext
    refine Dialogue.holds_pure trivial fun _ => ⟨hfits, Or.inl ⟨rfl, Or.inl ?_⟩⟩
    by_contra hne
    rw [ccLenOf, if_neg hne] at hext
    exact absurd hext (by decide)
  rename_i hshort
  have hne : s 2 ≠ 0 := by
    intro hzero
    rw [ccLenOf, if_pos hzero] at hshort
    exact hshort rfl
  split
  · rename_i hle
    exact Dialogue.holds_pure trivial fun _ => ⟨hfits, Or.inl ⟨rfl, Or.inr hle⟩⟩
  · rename_i hgt
    rw [type5WriteCc]
    refine (attempts_type5WriteBlock uid (by decide) _ s).mono (fun _ _ => trivial) fun r t _ hr hok => ?_
    exact ⟨hfits, Or.inr ⟨hne, Nat.lt_of_not_le hgt, hr.2 hok⟩⟩

theorem type5DataAreaBytes_le (info : Type5Info) (cc : Frame) : type5DataAreaBytes info cc ≤ 0xFFFF := by
  have hlt := info.dataAreaSizeBytes.isLt
  rw [type5DataAreaBytes]
  split
  · omega
  split
  · omega
  dsimp only
  split
  · omega
  split <;> omega

theorem buildStorageNdefTlv_eq {ndef tlv : Frame} {area : Nat} (harea : area ≤ 0xFFFF)
    (h : buildStorageNdefTlv ndef area = .ok tlv) : tlv = messageTlv ndef := by
  have hout : (List.replicate area (0 : Byte)).length = area := List.length_replicate ..
  rw [buildStorageNdefTlv] at h
  split at h
  · nomatch h
  split at h
  · nomatch h
  dsimp only at h
  split at h
  · nomatch h
  rename_i hok
  by_cases hfits : tlvEnvelopeLen ndef.length ≤ area
  · rw [buildMessageTlv_of_fits (by rw [hout]; exact harea) (by rw [hout]; exact hfits)] at h
    obtain rfl := Except.ok.inj h
    rw [BuiltTlv.written, List.take_left' (messageTlv_length ndef)]
  · refine absurd ?_ hok
    rw [buildMessageTlv, if_pos (by rw [hout]; omega)]

theorem type5NeedMlen_le {n : Nat} (hn : (n + 7) / 8 ≤ 255) (info : Type5Info) (cc : Frame) :
    type5NeedMlen info cc ((n + 7) / 8) ≤ 255 := by
  rw [type5NeedMlen, areaSizeUnitBytes]
  split <;> omega

/-- The MLEN is enough for the TLV unless the blocks of the tag bound it, and then it is their whole units. -/
theorem type5NeedMlen_covers {count : Word} {info : Type5Info} {cc : Frame} (n cur : Nat)
    (hblocks : type5CcBlocks info cc = 1)
    (hcount : info.blockCount = count) (hsize : info.blockSize = type5BlockSize) (hle : count.toNat ≤ 256) :
    n ≤ 8 * cur ∨ count.toNat ≤ 1 ∨ n ≤ 8 * ((count.toNat - 1) / 2) ↔
      n ≤ 8 * max cur (type5NeedMlen info cc ((n + 7) / 8)) := by
  have hunits : (count.toNat - 1) * 4 / 8 % 256 = (count.toNat - 1) / 2 := by omega
  rw [type5NeedMlen, hblocks, hcount, hsize, areaSizeUnitBytes, storageType5BlockSize, hunits]
  by_cases hmany : 0 < count.toNat ∧ type5BlockSize = type5BlockSize ∧ 1 < count.toNat
  · rw [if_pos hmany]
    omega
  · rw [if_neg hmany]
    have hfew : count.toNat ≤ 1 := by
      by_contra hgt
      exact hmany ⟨by omega, rfl, by omega⟩
    omega

/-- A short container leads to room for the TLV exactly when it, or the MLEN that replaces it, declares it. -/
theorem leadsToRoom_iff {info : Type5Info} {cc : Frame} {s : File Byte} {n : Nat} (hn : (n + 7) / 8 ≤ 255)
    (hvalid : (containerOf s).ccValid = true) (hshort : s 2 ≠ 0) (hblocks : type5CcBlocks info cc = 1)
    (hinfo : ccSignalsMlenOverflow (containerOf s) = false →
      info.blockCount = told.count ∧ info.blockSize = type5BlockSize ∧ told.count.toNat ≤ 256) :
    LeadsToRoom told.count s n ↔ n ≤ 8 * max (s 2).toNat (type5NeedMlen info cc ((n + 7) / 8)) := by
  obtain ⟨-, harea⟩ := containerOf_valid hvalid
  rw [LeadsToRoom, harea hshort]
  cases hdefers : ccSignalsMlenOverflow (containerOf s) with
  | false =>
      obtain ⟨hcount, hsize, hle⟩ := hinfo hdefers
      rw [← type5NeedMlen_covers n (s 2).toNat hblocks hcount hsize hle]
      exact or_congr_right (and_iff_right hshort)
  | true =>
      have hmlen : (s 2).toNat = 255 := congrArg BitVec.toNat (mlen_of_overflow hdefers)
      refine iff_of_true (Or.inl ?_) ?_ <;> omega

/-- **What the write leaves.** Behind a success the message is in place exactly when the old container led to
room for it. -/
theorem type5WriteMessage_holds (uid ndef : Frame) {info : Type5Info} {cc : Frame} {s : File Byte}
    (hcc : IsContainer s cc) (hvalid : (containerOf s).ccValid = true) (hlen : info.ccLen = (containerOf s).ccLen)
    (hinfo : ccSignalsMlenOverflow (containerOf s) = false →
      info.blockCount = told.count ∧ info.blockSize = type5BlockSize ∧ told.count.toNat ≤ 256) :
    (type5WriteMessage uid ndef cc info).Holds (Answers told) (fun _ => True)
      (fun r t => r = .ok () →
        (InPlace t (messageTlv ndef) ↔ LeadsToRoom told.count s (messageTlv ndef).length)) s := by
  have herror : ∀ (t : File Byte) err, (pure (.error err) : Exchange (Except String Unit)).Holds (Answers told)
      (fun _ => True)
      (fun r t => r = .ok () → (InPlace t (messageTlv ndef) ↔ LeadsToRoom told.count s (messageTlv ndef).length)) t :=
    fun _ _ => Dialogue.holds_pure trivial fun h => nomatch h
  obtain ⟨hccLen, harea⟩ := containerOf_valid hvalid
  have hcases := ccLenOf_cases s
  have hne : info.ccLen ≠ 0 := by
    intro hzero
    rw [hlen] at hzero
    rw [hzero] at hccLen
    change 0 = ccLenOf s at hccLen
    omega
  have hdefault : type5CcLenOrDefault info cc = ccLenOf s := by
    rw [type5CcLenOrDefault, if_pos hne, hlen, hccLen]
  rw [type5WriteMessage]
  split
  · exact herror s _
  rename_i tlv hbuilt
  obtain rfl := buildStorageNdefTlv_eq (by split; exact Nat.le_refl _; exact type5DataAreaBytes_le info cc) hbuilt
  split
  · exact herror s _
  refine Dialogue.holds_bind (type5RefreshCcIfNeeded_holds uid hcc _) fun refreshed t _ hrefreshed => ?_
  cases refreshed with
  | error err => exact herror t err
  | ok =>
      obtain ⟨hfits, hcontainer⟩ := hrefreshed rfl
      refine (type5WriteTlv_holds uid hdefault hcases (by omega) t).mono
        (fun _ _ => trivial) fun r u _ hwritten hok => ?_
      obtain ⟨hkept, hstored⟩ := hwritten
      have hhas := hstored hok
      have hblocks : s 2 ≠ 0 → type5CcBlocks info cc = 1 := by
        intro hshort
        rw [type5CcBlocks, hdefault, ccLenOf, if_neg hshort]
        rfl
      rcases hcontainer with ⟨rfl, hstays⟩ | ⟨hshort, hgrows, hwrote⟩
      · -- the container stays
        have hsame := containerOf_congr hkept
        have hplace : InPlace u (messageTlv ndef) ↔
            (messageTlv ndef).length ≤ (containerOf t).dataAreaSizeBytes.toNat := by
          refine ⟨fun h => hsame ▸ h.declared, fun h => ⟨hsame ▸ hvalid, hsame ▸ h, ?_⟩⟩
          rwa [hsame, hccLen]
        rw [hplace]
        rcases hstays with hzero | hle
        · rw [LeadsToRoom, or_iff_left (fun h => h.1 hzero)]
        by_cases hzero : t 2 = 0
        · rw [LeadsToRoom, or_iff_left (fun h => h.1 hzero)]
        · rw [leadsToRoom_iff hfits hvalid hzero (hblocks hzero) hinfo, Nat.max_eq_left hle, harea hzero]
      · -- a short container is replaced
        have hneed := type5NeedMlen_le hfits info cc
        have hnat : (BitVec.ofNat 8 (type5NeedMlen info cc (((messageTlv ndef).length + 7) / 8)) : Byte).toNat =
            type5NeedMlen info cc (((messageTlv ndef).length + 7) / 8) := by
          rw [BitVec.toNat_ofNat]
          omega
        have hmlen : (BitVec.ofNat 8 (type5NeedMlen info cc (((messageTlv ndef).length + 7) / 8)) : Byte) ≠ 0 := by
          intro hzero
          rw [hzero] at hnat
          change 0 = type5NeedMlen info cc (((messageTlv ndef).length + 7) / 8) at hnat
          omega
        have hfour : ccLenOf s = 4 := if_neg hshort
        have hhead : Has u 0 [forumCcMagic, t5tCcVerAccess,
            BitVec.ofNat 8 (type5NeedMlen info cc (((messageTlv ndef).length + 7) / 8)), sw2Success] := by
          intro i hi
          have hlt : 0 + i < 4 := by
            rw [Nat.zero_add]
            exact hi
          rw [hkept (0 + i) (by omega)]
          exact hwrote i hi
        obtain ⟨hnewValid, hnewFour, hnewMlen⟩ := containerOf_written hmlen hhead
        obtain ⟨hnewLen, hnewArea⟩ := containerOf_valid hnewValid
        have hroom : (containerOf u).dataAreaSizeBytes.toNat =
            8 * type5NeedMlen info cc (((messageTlv ndef).length + 7) / 8) := by
          rw [hnewArea (by rwa [hnewMlen]), hnewMlen, hnat]
        rw [leadsToRoom_iff hfits hvalid hshort (hblocks hshort) hinfo, Nat.max_eq_right (Nat.le_of_lt hgrows), ← hroom]
        refine ⟨fun h => h.declared, fun h => ⟨hnewValid, h, ?_⟩⟩
        rwa [hnewLen, hnewFour, ← hfour]

theorem parseType5Cc_eq {s : File Byte} {cc : Frame} {info : Type5Info} (hcc : IsContainer s cc)
    (h : parseType5Cc cc = .ok info) :
    info.toType5Cc = containerOf s ∧ info.blockCount = 0 ∧ (containerOf s).ccValid = true := by
  obtain ⟨hcontainer, -, hlen, -⟩ := hcc.spec
  rw [parseType5Cc, if_neg (Nat.not_lt.mpr hlen), hcontainer] at h
  dsimp only at h
  split at h
  · nomatch h
  rename_i hvalid
  obtain rfl := Except.ok.inj h
  refine ⟨rfl, rfl, ?_⟩
  cases hcase : (containerOf s).ccValid with
  | false => exact absurd (Or.inl hcase) hvalid
  | true => rfl

theorem writeType5StorageNdef_holds (ndef : Frame) (memory : File Byte) :
    (writeType5StorageNdef tagUid ndef).Holds (Answers told) (fun _ => True)
      (fun r t => r = .ok () →
        (InPlace t (messageTlv ndef) ↔ LeadsToRoom told.count memory (messageTlv ndef).length)) memory := by
  refine Dialogue.holds_bind (finds_readType5Cc tagUid memory) fun read s _ hread => ?_
  obtain ⟨rfl, hcontainer⟩ := hread
  cases read with
  | error err => exact Dialogue.holds_pure trivial fun h => nomatch h
  | ok cc =>
      have hcc := hcontainer cc rfl
      dsimp only
      split
      · exact Dialogue.holds_pure trivial fun h => nomatch h
      rename_i info hparse
      obtain ⟨hinfo, hcount, hvalid⟩ := parseType5Cc_eq hcc hparse
      split
      · exact Dialogue.holds_pure trivial fun h => nomatch h
      refine Dialogue.holds_bind (finds_type5ApplySystemInfo hcount s) fun reported t _ hreported => ?_
      obtain ⟨rfl, hfound⟩ := hreported
      obtain ⟨hlen, hblocks⟩ := hfound hinfo
      refine type5WriteMessage_holds tagUid ndef hcc hvalid
        (hlen.trans (congrArg Type5Cc.ccLen hinfo)) fun hdefers => ?_
      obtain ⟨-, hreport⟩ := hblocks hdefers
      exact hreport

/-- **When the host's write leaves the message in place.** Whatever the tag answered and wherever writes failed in
between, behind a reported success the message is in place exactly when the old container led to room for it. -/
theorem type5_write_in_place_iff {ndef : Frame} {memory s : File Byte}
    (hreach : Dialogue.Reaches (Answers told) (writeType5StorageNdef tagUid ndef) memory (.done (.ok ())) s) :
    InPlace s (messageTlv ndef) ↔ LeadsToRoom told.count memory (messageTlv ndef).length :=
  ((writeType5StorageNdef_holds ndef memory).reaches hreach).2 _ rfl rfl

/-! ### Two tags -/

/-- A write that is acknowledged at once. -/
theorem updateBinary_reaches {block : Word} {bytes : Frame} (hblock : block.toNat ≤ iso15693BlockAddr1ByteMax)
    (hpos : 0 < bytes.length) (hmax : bytes.length ≤ byteValueMax) (s : File Byte) :
    ∃ t, Dialogue.Reaches (Answers told) (type5StorageUpdateBinary block bytes) s (.done (.ok ())) t := by
  have hwrite : writeOf (updateBinaryApdu claProprietary (unitLow block) bytes) = some ⟨block.toNat * 4, bytes⟩ := by
    have hins : u8At (updateBinaryApdu claProprietary (unitLow block) bytes) 1 = insUpdateBinary := rfl
    rw [writeOf, if_pos hins, blockUpdated_byBlock hblock hpos hmax]
    rfl
  have hstep : Answers told s (updateBinaryApdu claProprietary (unitLow block) bytes) (.ok [0x90, 0x00])
      (FileUpdate.patch s ⟨block.toNat * 4, bytes⟩) := by
    rw [Answers, hwrite]
    exact ⟨FileUpdate.agreeOutside_patch _ _ (Nat.le_refl _), fun _ => FileUpdate.has_patch _ _⟩
  have hapdu : Dialogue.Reaches (Answers told) (storageUpdateBinaryApdu claProprietary (unitLow block) bytes) s
      (.done (.ok ())) (FileUpdate.patch s ⟨block.toNat * 4, bytes⟩) := by
    rw [storageUpdateBinaryApdu, if_neg (by omega)]
    exact .ask (.ok [0x90, 0x00]) hstep (.here _ _)
  have hfirst : Dialogue.Reaches (Answers told)
      (if block.toNat ≤ iso15693BlockAddr1ByteMax then storageUpdateBinaryApdu claProprietary (unitLow block) bytes
        else pure (.error "")) s (.done (.ok ())) (FileUpdate.patch s ⟨block.toNat * 4, bytes⟩) := by
    rw [if_pos hblock]
    exact hapdu
  exact ⟨_, hfirst.bind (.here _ _)⟩

/-- A container that declares the eight bytes of two blocks. -/
def eightBytes : File Byte := memoryOf 0 [0xE1, 0x40, 0x01, 0x00]

def eightBytesUid : Frame := [0xE0, 0x04, 0x01, 0x00, 0x00, 0x00, 0x00, 0x01]

/-- A system information of so many blocks, less one, of four bytes. -/
def eightBytesSystemInfo (last : Byte) : Frame :=
  [0x00, 0x04, 0x01, 0x00, 0x00, 0x00, 0x00, 0x01, 0x04, 0xE0, last, 0x03]

/-- Its tag of four blocks, counted by GET DATA, and of six, counted by the tag's own command. -/
def fourBlocks : Report eightBytesUid := ⟨4, .getData⟩
def sixBlocks : Report eightBytesUid := ⟨6, .transparent rfl⟩

def eightBytesInfo (count : Word) : Type5Info :=
    { toType5Cc := containerOf eightBytes, blockSize := 4, blockCount := count }

theorem getDataCc_ne_asks (route : Route eightBytesUid) : getDataApdu getDataType5Cc ≠ route.asks := by
  cases route with
  | getData => decide
  | transparent => exact fun h => absurd (congrArg (u8At · 1) h) (show (0xCA : Byte) ≠ 0xC2 by decide)
  | transparentAgain => exact fun h => absurd (congrArg (u8At · 1) h) (show (0xCA : Byte) ≠ 0xC2 by decide)

theorem truthful_getDataCc (told : Report eightBytesUid) :
    Truthful told eightBytes (getDataApdu getDataType5Cc) (.ok [0xE1, 0x40, 0x01, 0x00, 0x90, 0x00]) where
  readBinary _ _ _ hins := absurd hins (by decide)
  container data hdata _ := by
    obtain rfl : data = [0xE1, 0x40, 0x01, 0x00] := (Option.some.inj hdata).symm
    decide
  reported hapdu := absurd hapdu (getDataCc_ne_asks _)
  secondForm _ _ hapdu := absurd hapdu (by decide)
  systemInfo _ _ hroute := hroute.elim fun route hapdu => absurd hapdu (getDataCc_ne_asks route)
  transparent _ _ _ _ hins := absurd hins (by decide)

theorem eightBytes_readCc (told : Report eightBytesUid) : Dialogue.Reaches (Answers told) (readType5Cc eightBytesUid [])
    eightBytes (.done (.ok [0xE1, 0x40, 0x01, 0x00])) eightBytes :=
  .ask (.ok [0xE1, 0x40, 0x01, 0x00, 0x90, 0x00]) ⟨rfl, truthful_getDataCc told⟩ (.here _ _)

theorem counts_four : Counts 4 (eightBytesSystemInfo 3) := ⟨by decide, by decide, fun _ => ⟨rfl, rfl⟩⟩

theorem counts_six : Counts 6 (eightBytesSystemInfo 5) := ⟨by decide, by decide, fun _ => ⟨rfl, rfl⟩⟩

theorem fourBlocks_truthful : Truthful fourBlocks eightBytes (getDataApdu getDataType5SysInfo)
    (.ok (eightBytesSystemInfo 3 ++ [0x90, 0x00])) where
  readBinary _ _ _ hins := absurd hins (by decide)
  container _ _ hapdu := absurd hapdu (by decide)
  reported _ _ := ⟨eightBytesSystemInfo 3, by decide, counts_four⟩
  secondForm _ hroute := nomatch hroute
  systemInfo data hdata _ _ _ := by
    obtain rfl : data = eightBytesSystemInfo 3 := (Option.some.inj hdata).symm
    exact counts_four
  transparent _ _ _ _ hins := absurd hins (by decide)

theorem fourBlocks_systemInfo : Dialogue.Reaches (Answers fourBlocks)
    (type5ApplySystemInfo eightBytesUid { toType5Cc := containerOf eightBytes, blockSize := 0, blockCount := 0 })
    eightBytes (.done (eightBytesInfo 4)) eightBytes :=
  .ask (.ok (eightBytesSystemInfo 3 ++ [0x90, 0x00])) ⟨rfl, fourBlocks_truthful⟩ (.here _ _)

theorem sixBlocks_refused : Truthful sixBlocks eightBytes (getDataApdu getDataType5SysInfo) (.ok [0x6A, 0x81]) where
  readBinary _ _ hdata := nomatch hdata
  container _ hdata := nomatch hdata
  reported hapdu := absurd hapdu (by decide)
  secondForm _ hroute := nomatch hroute
  systemInfo _ hdata := nomatch hdata
  transparent _ _ _ hdata := nomatch hdata

theorem sixBlocks_truthful : Truthful sixBlocks eightBytes (systemInfoApdu sw2Success eightBytesUid)
    (.ok (eightBytesSystemInfo 5 ++ [0x90, 0x00])) where
  readBinary _ _ _ hins := absurd hins (by decide)
  container _ _ hapdu := absurd hapdu (by decide)
  reported _ _ := ⟨eightBytesSystemInfo 5, by decide, counts_six⟩
  secondForm _ hroute := nomatch hroute
  systemInfo data hdata _ _ _ := by
    obtain rfl : data = eightBytesSystemInfo 5 := (Option.some.inj hdata).symm
    exact counts_six
  transparent _ _ _ _ _ hread := nomatch hread

/-- GET DATA is refused, and the tag's own command answered. -/
theorem sixBlocks_systemInfo : Dialogue.Reaches (Answers sixBlocks)
    (type5ApplySystemInfo eightBytesUid { toType5Cc := containerOf eightBytes, blockSize := 0, blockCount := 0 })
    eightBytes (.done (eightBytesInfo 6)) eightBytes :=
  .ask (.ok [0x6A, 0x81]) ⟨rfl, sixBlocks_refused⟩
    (.ask (.ok (eightBytesSystemInfo 5 ++ [0x90, 0x00])) ⟨rfl, sixBlocks_truthful⟩ (.here _ _))

theorem buildStorageNdefTlv_of_fits {ndef : Frame} {area : Nat} (harea : area ≤ 0xFFFF)
    (hfits : tlvEnvelopeLen ndef.length ≤ area) : buildStorageNdefTlv ndef area = .ok (messageTlv ndef) := by
  have hout : (List.replicate area (0 : Byte)).length = area := List.length_replicate ..
  have hle : ndef.length ≤ tlvEnvelopeLen ndef.length := Nat.le_add_right _ _
  rw [buildStorageNdefTlv, if_neg (by rw [ndefMaxTotalBytes]; omega), if_neg (by omega),
    buildMessageTlv_of_fits (by rw [hout]; exact harea) (by rw [hout]; exact hfits)]
  exact congrArg Except.ok (List.take_left' (messageTlv_length ndef))

/-- A TLV of sixteen bytes at most is written behind a short container. -/
theorem type5WriteTlv_reaches (uid : Frame) {info : Type5Info} {cc tlv : Frame}
    (hccLen : type5CcLenOrDefault info cc = 4)
    (hlen : tlv.length ≤ 16) (s : File Byte) :
    ∃ t, Dialogue.Reaches (Answers told) (type5WriteTlv uid info cc tlv) s (.done (.ok ())) t := by
  have hunits : storageUnits tlv.length type5BlockSize.toNat ≤ 4 :=
    (u16_of_le (by change (tlv.length + 4 - 1) / 4 ≤ _; omega)).trans_le
      (by change (tlv.length + 4 - 1) / 4 ≤ _; omega)
  obtain ⟨im, himFirst, himSize, himBytes, hloop⟩ := storageWriteUnitsWithIo_eq (type5StorageWriteUnit uid)
    (show 1 ≤ type5BlockSize.toNat by decide) (show tlv.length ≤ 0xFFFF by omega)
    (show (1 : Word).toNat + _ ≤ 0x10000 from Nat.le_trans (Nat.add_le_add_left hunits 1) (by decide))
  have himUnits : im.units ≤ 4 := by
    rw [Image.units, himBytes, himSize]
    exact hunits
  have hwrite : ∀ unit chunk (t : File Byte), True → im.Part unit chunk → ∃ u, True ∧
      Dialogue.Reaches (Answers told) (type5StorageWriteUnit uid unit chunk) t (.done (.ok ())) u := by
    rintro unit chunk t - ⟨k, n, hpos, hmax, hend, hunit, rfl⟩
    have hchunk := Image.length_makeChunk hpos hmax hend
    rw [himSize, show type5BlockSize.toNat = 4 by rfl] at hchunk
    rw [himFirst, show (1 : Word).toNat = 1 by rfl] at hunit
    obtain ⟨u, hu⟩ := updateBinary_reaches (show unit.toNat ≤ iso15693BlockAddr1ByteMax by
      rw [iso15693BlockAddr1ByteMax]; omega) (show 0 < (im.makeChunk k n).length by omega)
      (show (im.makeChunk k n).length ≤ byteValueMax by rw [byteValueMax]; omega) t
    refine ⟨u, trivial, ?_⟩
    rw [type5StorageWriteUnit]
    split
    · rw [if_neg (by rw [byteValueMax, storageType5BlockSize]; omega)]
      exact hu
    · exact hu.bind (.here _ _)
  obtain ⟨t, -, ht⟩ := writeUnitsFrom_reaches hwrite (Nat.zero_le _) (trivial : True) (t := s)
  have hrange : ¬ (u16 ((tlv.length + 3) / storageType5BlockSize) ≠ 0 ∧
      0x10000 < 4 / storageType5BlockSize + u16 ((tlv.length + 3) / storageType5BlockSize)) := by
    rw [storageType5BlockSize, u16_of_le (by omega)]
    omega
  refine ⟨t, ?_⟩
  rw [type5WriteTlv, hccLen, if_neg (by decide), if_neg (by omega), if_neg hrange]
  exact hloop ▸ ht

/-- The container behind a short one is kept or rewritten. -/
theorem type5RefreshCcIfNeeded_reaches (uid : Frame) {info : Type5Info} {cc : Frame} {tlvLen : Nat}
    (hlen : tlvLen ≤ 2040) (hshort : type5DeclaredCcLen cc ≠ t5tCcLenExtended) (s : File Byte) :
    ∃ t, Dialogue.Reaches (Answers told) (type5RefreshCcIfNeeded uid info cc tlvLen) s (.done (.ok ())) t := by
  rw [type5RefreshCcIfNeeded, if_neg (by rw [byteValueMax, areaSizeUnitBytes]; omega), if_neg hshort]
  by_cases hcovers : type5NeedMlen info cc ((tlvLen + (areaSizeUnitBytes - 1)) / areaSizeUnitBytes) ≤
      (if t5tCcLenShort ≤ cc.length then (u8At cc 2).toNat else 0)
  · exact ⟨s, by rw [if_pos hcovers]; exact .here _ _⟩
  · rw [if_neg hcovers]
    obtain ⟨t, ht⟩ := updateBinary_reaches (show (0 : Word).toNat ≤ iso15693BlockAddr1ByteMax by decide)
      (show 0 < ([forumCcMagic, t5tCcVerAccess, BitVec.ofNat 8 (type5NeedMlen info cc
        ((tlvLen + (areaSizeUnitBytes - 1)) / areaSizeUnitBytes)), sw2Success] : Frame).length from Nat.succ_pos 3)
      (show 4 ≤ byteValueMax by decide) s
    exact ⟨t, ht.bind (.here _ _)⟩

/-- A message that fits the blocks of its tag is written with success. -/
theorem eightBytes_reaches {told : Report eightBytesUid} {ndef : Frame}
    (hinfo : Dialogue.Reaches (Answers told)
      (type5ApplySystemInfo eightBytesUid { toType5Cc := containerOf eightBytes, blockSize := 0, blockCount := 0 })
      eightBytes (.done (eightBytesInfo told.count)) eightBytes)
    (hcount : told.count ≠ 0)
    (hroom : tlvEnvelopeLen ndef.length ≤ type5DataAreaBytes (eightBytesInfo told.count) [0xE1, 0x40, 0x01, 0x00])
    (hshort : tlvEnvelopeLen ndef.length ≤ 16) :
    ∃ s, Dialogue.Reaches (Answers told) (writeType5StorageNdef eightBytesUid ndef) eightBytes (.done (.ok ())) s := by
  have hlen := messageTlv_length ndef
  have hrefresh : ∃ s, Dialogue.Reaches (Answers told) (type5RefreshCcIfNeeded eightBytesUid (eightBytesInfo told.count)
      [0xE1, 0x40, 0x01, 0x00] (messageTlv ndef).length) eightBytes (.done (.ok ())) s :=
    type5RefreshCcIfNeeded_reaches eightBytesUid (by omega) (by decide) eightBytes
  obtain ⟨s, hs⟩ := hrefresh
  have hwritten : ∃ t, Dialogue.Reaches (Answers told) (type5WriteTlv eightBytesUid (eightBytesInfo told.count)
      [0xE1, 0x40, 0x01, 0x00] (messageTlv ndef)) s (.done (.ok ())) t := type5WriteTlv_reaches eightBytesUid
    (show type5CcLenOrDefault (eightBytesInfo told.count) [0xE1, 0x40, 0x01, 0x00] = 4 from rfl) (by omega) s
  obtain ⟨t, ht⟩ := hwritten
  have hmessage : Dialogue.Reaches (Answers told)
      (type5WriteMessage eightBytesUid ndef [0xE1, 0x40, 0x01, 0x00] (eightBytesInfo told.count)) eightBytes
      (.done (.ok ())) t := by
    have harea := type5DataAreaBytes_le (eightBytesInfo told.count) [0xE1, 0x40, 0x01, 0x00]
    have hbuilt := buildStorageNdefTlv_of_fits harea hroom
    rw [type5WriteMessage]
    rw [if_neg (fun h => hcount h.1), hbuilt]
    dsimp only
    rw [if_neg (fun h => by omega)]
    exact hs.bind ht
  exact ⟨t, (eightBytes_readCc told).bind (hinfo.bind hmessage)⟩

/-- The container stays at eight bytes behind a message of eleven. -/
theorem fourBlocks_not_in_place : ∃ s, Dialogue.Reaches (Answers fourBlocks)
    (writeType5StorageNdef eightBytesUid [0xD1, 0x01, 0x04, 0x54, 0x02, 0x65, 0x6E, 0x41]) eightBytes
      (.done (.ok ())) s ∧
      ¬ InPlace s (messageTlv [0xD1, 0x01, 0x04, 0x54, 0x02, 0x65, 0x6E, 0x41]) := by
  obtain ⟨s, hs⟩ :=
    @eightBytes_reaches fourBlocks [0xD1, 0x01, 0x04, 0x54, 0x02, 0x65, 0x6E, 0x41] fourBlocks_systemInfo
    (by decide) (by decide) (by decide)
  have hiff := ((writeType5StorageNdef_holds _ _).reaches hs).2 _ rfl rfl
  refine ⟨s, hs, fun hplace => ?_⟩
  have hroom := hiff.mp hplace
  have harea : (containerOf eightBytes).dataAreaSizeBytes.toNat = 8 := by decide
  have hlen : (messageTlv [0xD1, 0x01, 0x04, 0x54, 0x02, 0x65, 0x6E, 0x41]).length = 11 := by decide
  rw [LeadsToRoom, harea, hlen] at hroom
  revert hroom
  decide

/-- Six blocks leave room for an enlarged container. -/
theorem type5_write_in_place_iff_sixBlocks :
    ∃ s, InPlace s (messageTlv [0xD1, 0x01, 0x04, 0x54, 0x02, 0x65, 0x6E, 0x41]) := by
  obtain ⟨s, hs⟩ := @eightBytes_reaches sixBlocks [0xD1, 0x01, 0x04, 0x54, 0x02, 0x65, 0x6E, 0x41] sixBlocks_systemInfo
    (by decide) (by decide) (by decide)
  refine ⟨s, (type5_write_in_place_iff hs).mpr (Or.inr ⟨by decide, Or.inr ?_⟩)⟩
  decide

end NeroReader.HostStorage
