import Mathlib.Data.List.DropRight
import NeroReader.Type4Write

/-!
The READ BINARY commands of the host's NDEF read. They tile the message behind its length field, in chunks of at
most MLe bytes; P1 and P2 are a short-form offset only in the lower half of the range, since bit 8 of P1 addresses
a file by its short EF identifier.
-/

namespace NeroReader.Type4

open HostApdu

/-! ### What a dialogue shows -/

/-- The dialogue with a reader: every command with its response. -/
abbrev Exchanges := List (Frame × Option Frame)

def isRead (x : Frame × Option Frame) : Bool := u8At x.1 1 == insReadBinary

def isSelect (x : Frame × Option Frame) : Bool := u8At x.1 1 == insSelect

/-- What stands in front of the status word of a response. -/
def dataOf (x : Frame × Option Frame) : Frame := (x.2.getD []).take ((x.2.getD []).length - 2)

/-- The file of a SELECT by file identifier that succeeded. -/
def fileOf (x : Frame × Option Frame) : Option (Byte × Byte) :=
  if u8At x.1 2 = p1SelectByFileId ∧ responseSwOk (x.2.getD []) = true then some (u8At x.1 5, u8At x.1 6) else none

def selectedFile (s : Exchanges) : Option (Byte × Byte) := (s.filter isSelect).getLast?.bind fileOf

/-- The last capability container in front of the reads of a file. -/
def containerIn (s : Exchanges) : Option Type4Info :=
  ((s.rdropWhile isRead).filter isRead).getLast?.bind fun x => type4ApplyCc (dataOf x)

/-- The length field of the file that is read, if a READ BINARY of two bytes comes first. -/
def nlenIn (s : Exchanges) : Option Nat :=
  (s.rtakeWhile isRead).head?.bind fun x => if u8At x.1 4 = byte nlenLen then some (u16At (dataOf x) 0) else none

/-- The READ BINARY commands behind the one of the length field. -/
def messageReads (s : Exchanges) : Exchanges := if (nlenIn s).isSome then (s.rtakeWhile isRead).tail else []

/-- A card with a file under every identifier. A READ BINARY with a short-form offset that succeeds brings bytes of
the selected file; anything else is answered as the card likes. -/
def FileCard (files : Byte × Byte → Frame) (s : Exchanges) (apdu : Frame) (answer : Option Frame) (t : Exchanges) :
    Prop :=
  t = s ++ [(apdu, answer)] ∧ ∀ id, selectedFile s = some id → isRead (apdu, answer) = true → ShortForm apdu →
    responseSwOk (answer.getD []) = true → dataOf (apdu, answer) <+: (files id).drop (u16At apdu 2)

/-! ### The property and its condition -/

/-- Reads that lie one behind the other. -/
def Tile : Nat → Exchanges → Nat → Prop
  | start, [], stop => start = stop
  | start, x :: rest, stop => u16At x.1 2 = start ∧ Tile (start + (u8At x.1 4).toNat) rest stop

/-- The reads of the message tile the file behind the length field, and none is longer than MLe. -/
def ReadsTile (s : Exchanges) : Prop :=
  ∀ info n, containerIn s = some info → nlenIn s = some n →
    (∃ stop ≤ nlenLen + n, Tile nlenLen (messageReads s) stop) ∧
      ∀ x ∈ messageReads s, (u8At x.1 4).toNat ≤ info.mle

/-- The offset of the last chunk of a message. -/
def lastOffset (mle n : Nat) : Nat :=
  nlenLen + min mle readBinaryDataMax * ((n - 1) / min mle readBinaryDataMax)

/-- The last chunk of the message starts in the lower half of the range. -/
def ShortOffsets (s : Exchanges) : Prop :=
  ∀ info n, containerIn s = some info → nlenIn s = some n → lastOffset info.mle n < 0x8000

def ShortForms (s : Exchanges) : Prop := ∀ x ∈ messageReads s, ShortForm x.1

/-- The reads cover the message, and what was read is the message in the file. -/
def MessageRead (files : Byte × Byte → Frame) (file : NdefFile) (s : Exchanges) : Prop :=
  ∃ n, n = u16At (files file.info.ndefFileId) 0 ∧ nlenIn s = some n ∧ containerIn s = some file.info ∧
    Tile nlenLen (messageReads s) (nlenLen + n) ∧ file.ndefMessage.length = n ∧
    file.ndefMessage = ((files file.info.ndefFileId).drop nlenLen).take n

/-! ### One more command -/

section Append

variable {s : Exchanges} {x : Frame × Option Frame}

theorem selectedFile_append_read (h : isSelect x = false) : selectedFile (s ++ [x]) = selectedFile s := by
  rw [selectedFile, List.filter_append, List.filter_cons_of_neg (by simp [h]), List.filter_nil, List.append_nil,
    selectedFile]

theorem selectedFile_append_select (h : isSelect x = true) : selectedFile (s ++ [x]) = fileOf x := by
  rw [selectedFile, List.filter_append, List.filter_cons_of_pos h, List.filter_nil, List.getLast?_concat,
    Option.bind_some]

theorem isSelect_of_isRead (h : isRead x = true) : isSelect x = false := by
  rw [isRead, beq_iff_eq] at h
  rw [isSelect, h]
  decide

theorem containerIn_append_read (h : isRead x = true) : containerIn (s ++ [x]) = containerIn s := by
  rw [containerIn, List.rdropWhile_concat_pos _ _ _ h, containerIn]

theorem trailing_append_read (h : isRead x = true) :
    (s ++ [x]).rtakeWhile isRead = s.rtakeWhile isRead ++ [x] := List.rtakeWhile_concat_pos _ _ _ h

theorem trailing_append_other (h : isRead x = false) : (s ++ [x]).rtakeWhile isRead = [] :=
  List.rtakeWhile_concat_neg _ _ _ (by simp [h])

theorem tile_append {start stop le : Nat} {reads : Exchanges} (h : Tile start reads stop) (hx : u16At x.1 2 = stop)
    (hle : (u8At x.1 4).toNat = le) : Tile start (reads ++ [x]) (stop + le) := by
  induction reads generalizing start with
  | nil =>
      obtain rfl : start = stop := h
      exact ⟨hx, by rw [hle]; rfl⟩
  | cons y rest ih => exact ⟨h.1, ih h.2⟩

/-- The fields of a READ BINARY. -/
theorem readBinaryApdu_fields {offset le : Nat} (hoffset : offset < 0x10000) (hle : le < 256) (answer : Option Frame) :
    isRead (readBinaryApdu offset le, answer) = true ∧ u16At (readBinaryApdu offset le) 2 = offset ∧
      (u8At (readBinaryApdu offset le) 4).toNat = le ∧ (ShortForm (readBinaryApdu offset le) ↔ offset < 0x8000) := by
  have hhi : (byte (offset / 256)).toNat = offset / 256 := byte_toNat (by omega)
  have hlo : (byte offset).toNat = offset % 256 := BitVec.toNat_ofNat _ _
  refine ⟨rfl, ?_, byte_toNat hle, ?_⟩
  · change 256 * (byte (offset / 256)).toNat + (byte offset).toNat = offset
    omega
  · change (byte (offset / 256)).toNat < 0x80 ↔ offset < 0x8000
    omega

end Append

/-! ### In front of the message -/

section Commands

variable {files : Byte × Byte → Frame} {keeps : Exchanges → Prop} {s : Exchanges}

theorem fileCard_recorded (s : Exchanges) (apdu : Frame) (answer : Option Frame) (t : Exchanges)
    (h : FileCard files s apdu answer t) : Dialogue.recorded s apdu answer t := h.1

/-- One READ BINARY: what is handed on is what the response brought. -/
theorem readExact_holds {peer : Exchanges → Frame → Option Frame → Exchanges → Prop} {offset len : Nat}
    {post : Option { data : Frame // data.length = len } → Exchanges → Prop} (hs : keeps s)
    (hnext : ∀ answer t, peer s (readBinaryApdu offset len) answer t → keeps t ∧ post none t ∧
      ∀ data, responseSwOk (answer.getD []) = true → data.1 = dataOf (readBinaryApdu offset len, answer) →
        post (some data) t) :
    (readBinaryExact offset len).Holds peer keeps post s := by
  refine ⟨hs, fun answer t hstep => ?_⟩
  obtain ⟨hkeeps, hnone, hsome⟩ := hnext answer t hstep
  cases answer with
  | none => exact Dialogue.holds_pure hkeeps hnone
  | some rapdu =>
      change Dialogue.Holds _ _ _ (if responseSwOk rapdu = false then pure none else _) t
      split
      · exact Dialogue.holds_pure hkeeps hnone
      rename_i hok
      split
      · exact Dialogue.holds_pure hkeeps (hsome _ (by simpa using hok) rfl)
      · exact Dialogue.holds_pure hkeeps hnone

/-- What a class of commands takes in, a program of such commands asks. -/
theorem transmitOk_asks {allowed : Frame → Prop} {apdu : Frame} (h : allowed apdu) : (transmitOk apdu).Asks allowed :=
  Dialogue.asks_bind ⟨h, fun _ => trivial⟩ fun r => by cases r <;> exact Dialogue.asks_pure _

/-- The commands allowed are the SELECTs and perhaps others. -/
def Selects (allowed : Frame → Prop) : Prop := ∀ p1 p2 rest, allowed (claIso :: insSelect :: p1 :: p2 :: rest)

theorem Selects.of_ins {ins : Byte} (h : insSelect ≠ ins) : Selects (u8At · 1 ≠ ins) := fun _ _ _ => h

theorem selectNdefApp_asks {allowed : Frame → Prop} (h : Selects allowed) :
    ∀ variants, (selectNdefApp variants).Asks allowed
  | [] => Dialogue.asks_pure _
  | (aid, p2, addLe) :: variants => by
      refine Dialogue.asks_bind (transmitOk_asks (h _ _ _)) fun ok => ?_
      split
      · exact Dialogue.asks_pure _
      · exact selectNdefApp_asks h variants

theorem selectFile_asks {allowed : Frame → Prop} (h : Selects allowed) (hi lo : Byte) :
    (selectFile hi lo).Asks allowed := by
  refine Dialogue.asks_bind (transmitOk_asks (h _ _ _)) fun ok => ?_
  split
  · exact Dialogue.asks_pure _
  · exact transmitOk_asks (h _ _ _)

theorem readBinaryExact_asks {allowed : Frame → Prop} (h : ∀ offset le, allowed (readBinaryApdu offset le))
    (offset len : Nat) : (readBinaryExact offset len).Asks allowed := by
  refine Dialogue.asks_bind ⟨h offset len, fun _ => trivial⟩ fun r => ?_
  cases r with
  | none => exact Dialogue.asks_pure _
  | some rapdu =>
      dsimp only
      split
      · exact Dialogue.asks_pure _
      split <;> exact Dialogue.asks_pure _

theorem readChunks_asks {allowed : Frame → Prop} (h : ∀ offset le, allowed (readBinaryApdu offset le))
    {ndefLen kChunkMax : Nat} (hlen : ndefLen ≤ 65534) (hpos : 0 < kChunkMax) (hmax : kChunkMax ≤ readBinaryDataMax)
    (done : Nat) (message : Frame) : (readChunks ndefLen kChunkMax hlen hpos hmax done message).Asks allowed := by
  fun_induction readChunks ndefLen kChunkMax hlen hpos hmax done message with
  | case1 done message hlt ih =>
      refine Dialogue.asks_bind (readBinaryExact_asks h _ _) fun r => ?_
      rcases r with _ | ⟨data, hdata⟩
      · exact Dialogue.asks_pure _
      · exact ih data hdata
  | case2 done message hge => exact Dialogue.asks_pure _

/-- No READ BINARY was sent since the last SELECT. -/
def Settled (s : Exchanges) : Prop := s.rtakeWhile isRead = []

theorem asks_settled {α : Type} {program : Dialogue Frame (Option Frame) α}
    (h : program.Asks (u8At · 1 ≠ insReadBinary)) (hs : Settled s) :
    program.Holds Dialogue.recorded Settled (fun _ _ => True) s := by
  apply h.holds _ hs
  rintro s apdu answer t hne rfl -
  exact trailing_append_other (by simpa [isRead] using hne)

/-- No length field was read since the last SELECT. -/
def NoLength (s : Exchanges) : Prop := nlenIn s = none

theorem Settled.noLength (h : Settled s) : NoLength s := by
  rw [NoLength, nlenIn, h, List.head?_nil, Option.bind_none]

theorem NoLength.messageReads (h : NoLength s) : messageReads s = [] := by
  rw [Type4.messageReads, h]
  rfl

/-- The first READ BINARY behind a SELECT is longer than a length field. -/
structure Longer (s : Exchanges) : Prop where
  first : ∃ x rest, s.rtakeWhile isRead = x :: rest ∧ u8At x.1 4 ≠ byte nlenLen

theorem Longer.noLength (h : Longer s) : NoLength s := by
  obtain ⟨x, rest, hreads, hne⟩ := h.first
  rw [NoLength, nlenIn, hreads, List.head?_cons, Option.bind_some, if_neg hne]

/-- The bytes that the last READ BINARY brought. -/
def lastData (s : Exchanges) : Option Frame := (s.filter isRead).getLast?.map dataOf

theorem lastData_append_read {x : Frame × Option Frame} (h : isRead x = true) :
    lastData (s ++ [x]) = some (dataOf x) := by
  rw [lastData, List.filter_append, List.filter_cons_of_pos h, List.filter_nil, List.getLast?_concat, Option.map_some]

theorem lastData_append_other {x : Frame × Option Frame} (h : isRead x = false) : lastData (s ++ [x]) = lastData s := by
  rw [lastData, List.filter_append, List.filter_cons_of_neg (by simp [h]), List.filter_nil, List.append_nil, lastData]

/-- **The capability container** is what the last READ BINARY brought. -/
theorem readCc_lastData (hs : Settled s) :
    readCc.Holds Dialogue.recorded NoLength (fun r t => ∀ cc, r = some cc → lastData t = some cc) s := by
  have hfirst : (readBinaryExact 0 ccFileLen).Holds Dialogue.recorded NoLength
      (fun r t => Longer t ∧ ∀ cc, r = some cc → lastData t = some cc.1) s := by
    apply readExact_holds hs.noLength
    rintro answer t rfl
    have hread : isRead (readBinaryApdu 0 ccFileLen, answer) = true := rfl
    have hlonger : Longer (s ++ [(readBinaryApdu 0 ccFileLen, answer)]) := by
      refine ⟨(readBinaryApdu 0 ccFileLen, answer), [], ?_, show byte ccFileLen ≠ byte nlenLen by decide⟩
      rw [trailing_append_read hread, hs, List.nil_append]
    refine ⟨hlonger.noLength, ⟨hlonger, by simp⟩, ?_⟩
    rintro data - hdata
    refine ⟨hlonger, fun cc hcc => ?_⟩
    obtain rfl := Option.some.inj hcc
    rw [lastData_append_read hread, hdata]
  rw [readCc]
  apply Dialogue.holds_bind hfirst
  rintro r t ht ⟨hlonger, hr⟩
  rcases r with _ | ⟨cc, hcc⟩
  · exact Dialogue.holds_pure ht (by simp)
  dsimp only
  split
  · exact Dialogue.holds_pure ht (by simp)
  split
  · split
    · exact Dialogue.holds_pure ht (by simp)
    have hsecond : (readBinaryExact 0 (u16At cc 0)).Holds Dialogue.recorded NoLength
        (fun r t => ∀ cc, r = some cc → lastData t = some cc.1) t := by
      apply readExact_holds ht
      rintro answer u rfl
      have hread : isRead (readBinaryApdu 0 (u16At cc 0), answer) = true := rfl
      have hlonger : Longer (t ++ [(readBinaryApdu 0 (u16At cc 0), answer)]) := by
        obtain ⟨x, rest, hreads, hne⟩ := hlonger.first
        exact ⟨x, rest ++ [_], by rw [trailing_append_read hread, hreads]; rfl, hne⟩
      refine ⟨hlonger.noLength, by simp, ?_⟩
      rintro data - hdata cc' hcc'
      obtain rfl := Option.some.inj hcc'
      rw [lastData_append_read hread, hdata]
    apply Dialogue.holds_bind hsecond
    rintro r u hu hr
    rcases r with _ | cc
    · exact Dialogue.holds_pure hu (by simp)
    · refine Dialogue.holds_pure hu fun cc' hcc' => ?_
      obtain rfl := Option.some.inj hcc'
      exact hr cc rfl
  · refine Dialogue.holds_pure ht fun cc' hcc' => ?_
    obtain rfl := Option.some.inj hcc'
    exact hr _ rfl

/-- The file is selected, and nothing of it was read. -/
structure Opened (id : Byte × Byte) (cc : Frame) (s : Exchanges) : Prop where
  settled : Settled s
  file : selectedFile s = some id
  container : lastData s = some cc

theorem selectBytes_opened (p2 : Byte) {id : Byte × Byte} {cc : Frame} (h : NoLength s ∧ lastData s = some cc) :
    (selectBytes p1SelectByFileId p2 [id.1, id.2]).Holds Dialogue.recorded (fun t => NoLength t ∧ lastData t = some cc)
      (fun ok t => ok = true → Opened id cc t) s := by
  refine ⟨h, ?_⟩
  rintro answer t rfl
  generalize hx : ([claIso, insSelect, p1SelectByFileId, p2, byte [id.1, id.2].length] ++ [id.1, id.2] ++ [0x00],
    answer) = x
  have hsettled : Settled (s ++ [x]) := trailing_append_other (by rw [← hx]; rfl)
  have hcc : lastData (s ++ [x]) = some cc := (lastData_append_other (by rw [← hx]; rfl)).trans h.2
  have hfile : responseSwOk (answer.getD []) = true → selectedFile (s ++ [x]) = some id := by
    intro hok
    rw [selectedFile_append_select (by rw [← hx]; rfl), ← hx]
    exact if_pos ⟨rfl, hok⟩
  cases answer with
  | none => exact Dialogue.holds_pure ⟨hsettled.noLength, hcc⟩ (by simp)
  | some rapdu => exact Dialogue.holds_pure ⟨hsettled.noLength, hcc⟩ fun hok => ⟨hsettled, hfile hok, hcc⟩

theorem selectFile_opened {id : Byte × Byte} {cc : Frame} (h : NoLength s ∧ lastData s = some cc) :
    (selectFile id.1 id.2).Holds Dialogue.recorded (fun t => NoLength t ∧ lastData t = some cc)
      (fun ok t => ok = true → Opened id cc t) s := by
  rw [selectFile]
  apply Dialogue.holds_bind (selectBytes_opened _ h)
  intro ok t ht hok
  split
  · rename_i hselected
    exact Dialogue.holds_pure ht fun _ => hok hselected
  · exact selectBytes_opened _ ht

theorem Opened.containerIn {id : Byte × Byte} {cc : Frame} (h : Opened id cc s) : containerIn s = type4ApplyCc cc := by
  have hall : s.rdropWhile isRead = s := by
    have happend : s.rdropWhile isRead ++ s.rtakeWhile isRead = s := List.rdropWhile_append_rtakeWhile
    rwa [h.settled, List.append_nil] at happend
  have hlast := h.container
  rw [lastData, Option.map_eq_some_iff] at hlast
  obtain ⟨x, hx, rfl⟩ := hlast
  rw [Type4.containerIn, hall, hx, Option.bind_some]

end Commands

theorem asks_container {α : Type} {program : Dialogue Frame (Option Frame) α} {info : Type4Info} {s : Exchanges}
    (h : program.Asks (u8At · 1 = insReadBinary)) (hs : containerIn s = some info) :
    program.Holds Dialogue.recorded (fun _ => True) (fun _ t => containerIn t = some info) s := by
  have hkept : program.Holds Dialogue.recorded (fun t => containerIn t = some info) (fun _ _ => True) s := by
    refine h.holds ?_ hs
    rintro t apdu answer _ hread rfl ht
    exact (containerIn_append_read (beq_iff_eq.mpr hread)).trans ht
  exact hkept.mono (fun _ _ => trivial) fun _ _ h _ => h

/-- **The container that a read goes by** is the one the dialogue shows, whatever the card answers. -/
theorem readNdefFile_container :
    readNdefFile.Holds Dialogue.recorded (fun _ => True)
      (fun r s => ∀ file, r = some file → containerIn s = some file.info) [] := by
  have hselects : Selects (u8At · 1 ≠ insReadBinary) := .of_ins (by decide)
  have hstart : Settled [] := rfl
  rw [readNdefFile]
  apply Dialogue.holds_bind ((asks_settled (selectNdefApp_asks hselects _) hstart).mono (fun _ _ => trivial)
    fun _ _ h _ => h)
  intro ok t _ hsettled
  split
  · exact Dialogue.holds_pure trivial (by simp)
  apply Dialogue.holds_bind ((asks_settled (selectFile_asks hselects _ _) hsettled).mono (fun _ _ => trivial)
    fun _ _ h _ => h)
  intro ok t _ hsettled
  split
  · exact Dialogue.holds_pure trivial (by simp)
  apply Dialogue.holds_bind ((readCc_lastData hsettled).mono (fun _ _ => trivial) fun _ _ h h' => And.intro h h')
  rintro r t _ ⟨hnone, hr⟩
  rcases r with _ | cc
  · exact Dialogue.holds_pure trivial (by simp)
  dsimp only
  split
  · exact Dialogue.holds_pure trivial (by simp)
  rename_i info hinfo
  split
  · exact Dialogue.holds_pure trivial (by simp)
  split
  · exact Dialogue.holds_pure trivial (by simp)
  apply Dialogue.holds_bind ((selectFile_opened ⟨hnone, hr cc rfl⟩).mono (fun _ _ => trivial) fun _ _ _ h => h)
  intro ok t _ hok
  split
  · exact Dialogue.holds_pure trivial (by simp)
  rename_i hselected
  have hcontainer : containerIn t = some info := (hok (by simpa using hselected)).containerIn.trans hinfo
  -- only READ BINARY commands follow
  split
  · apply Dialogue.holds_bind (asks_container (readBinaryExact_asks (fun _ _ => rfl) _ _) hcontainer)
    intro r t _ hcontainer
    rcases r with _ | lenBytes
    · exact Dialogue.holds_pure trivial (by simp)
    dsimp only
    split
    · exact Dialogue.holds_pure trivial (by simp)
    split
    · apply Dialogue.holds_bind (asks_container (readChunks_asks (fun _ _ => rfl) _ _ _ _ _) hcontainer)
      intro r t _ hcontainer
      rcases r with _ | message
      · exact Dialogue.holds_pure trivial (by simp)
      · refine Dialogue.holds_pure trivial fun file hfile => ?_
        cases hfile
        exact hcontainer
    · exact Dialogue.holds_pure trivial (by simp)
  · exact Dialogue.holds_pure trivial (by simp)

/-! ### The message -/

def chunkMax (mle : Nat) : Nat := min mle readBinaryDataMax

theorem lastOffset_eq (mle n : Nat) : lastOffset mle n = nlenLen + chunkMax mle * ((n - 1) / chunkMax mle) := rfl

/-- So much of the message is asked for. -/
structure Asked (files : Byte × Byte → Frame) (info : Type4Info) (n : Nat) (s : Exchanges) (done : Nat) : Prop where
  container : containerIn s = some info
  file : selectedFile s = some info.ndefFileId
  length : nlenIn s = some n
  nlen : n = u16At (files info.ndefFileId) 0
  le : done ≤ n
  aligned : chunkMax info.mle ∣ done ∨ done = n
  tile : Tile nlenLen (messageReads s) (nlenLen + done)
  bound : ∀ x ∈ messageReads s, (u8At x.1 4).toNat ≤ info.mle
  offsets : ∀ o, (∃ x ∈ messageReads s, u16At x.1 2 = o) ↔
    ∃ k, chunkMax info.mle * k < done ∧ o = nlenLen + chunkMax info.mle * k

/-- So much of the message is read. -/
structure Reading (files : Byte × Byte → Frame) (info : Type4Info) (n : Nat) (s : Exchanges) (done : Nat)
    (message : Frame) : Prop extends Asked files info n s done where
  count : message.length = done
  exact : lastOffset info.mle n < 0x8000 → message = ((files info.ndefFileId).drop nlenLen).take done

section Reading

variable {files : Byte × Byte → Frame} {info : Type4Info} {n done : Nat} {s : Exchanges} {message : Frame}

theorem Asked.readsTile (h : Asked files info n s done) : ReadsTile s := by
  intro info' n' hcc hn
  obtain rfl := Option.some.inj (h.container.symm.trans hcc)
  obtain rfl := Option.some.inj (h.length.symm.trans hn)
  exact ⟨⟨nlenLen + done, Nat.add_le_add_left h.le _, h.tile⟩, h.bound⟩

/-- Every chunk starts no later than the last one. -/
theorem chunk_le_last {c k : Nat} (hk : c * k < n) : c * k ≤ c * ((n - 1) / c) := by
  rcases Nat.eq_zero_or_pos c with rfl | hc
  · simp
  · exact Nat.mul_le_mul_left c ((Nat.le_div_iff_mul_le hc).mpr (by rw [Nat.mul_comm]; omega))

theorem Asked.shortForms (h : Asked files info n s done) (hshort : ShortOffsets s) : ShortForms s := by
  intro x hx
  have hlast := hshort info n h.container h.length
  obtain ⟨k, hk, ho⟩ := (h.offsets _).mp ⟨x, hx, rfl⟩
  have hle := chunk_le_last (Nat.lt_of_lt_of_le hk h.le)
  rw [lastOffset_eq] at hlast
  rw [shortForm_iff, ho]
  omega

/-- **Short forms alone show that the last chunk starts in the lower half.** -/
theorem Asked.shortOffsets (h : Asked files info n s n) (hforms : ShortForms s) : ShortOffsets s := by
  intro info' n' hcc hn
  obtain rfl := Option.some.inj (h.container.symm.trans hcc)
  obtain rfl := Option.some.inj (h.length.symm.trans hn)
  rw [lastOffset_eq]
  by_cases hzero : n = 0
  · subst hzero
    rw [Nat.zero_sub, Nat.zero_div, Nat.mul_zero]
    decide
  have hlast : chunkMax info.mle * ((n - 1) / chunkMax info.mle) < n := by
    have hle := Nat.mul_div_le (n - 1) (chunkMax info.mle)
    omega
  obtain ⟨x, hx, ho⟩ := (h.offsets _).mpr ⟨_, hlast, rfl⟩
  have hform := hforms x hx
  rwa [shortForm_iff, ho] at hform

theorem nlenIn_append {x : Frame × Option Frame} (hx : isRead x = true) (hn : nlenIn s = some n) :
    nlenIn (s ++ [x]) = some n ∧ messageReads (s ++ [x]) = messageReads s ++ [x] := by
  have hfirst : ∃ first rest, s.rtakeWhile isRead = first :: rest := by
    cases hreads : s.rtakeWhile isRead with
    | nil =>
        rw [nlenIn, hreads] at hn
        cases hn
    | cons first rest => exact ⟨first, rest, rfl⟩
  obtain ⟨first, rest, hreads⟩ := hfirst
  have hn' : nlenIn (s ++ [x]) = some n := by
    rw [nlenIn, hreads] at hn
    rw [nlenIn, trailing_append_read hx, hreads]
    exact hn
  refine ⟨hn', ?_⟩
  rw [messageReads, messageReads, hn, hn', trailing_append_read hx, hreads]
  rfl

/-- The chunks up to the end of this one. -/
theorem chunks_append {c k : Nat} (hc : 0 < c) (hlt : c * k < n) (o : Nat) :
    ((∃ j, c * j < c * k ∧ o = nlenLen + c * j) ∨ nlenLen + c * k = o) ↔
      ∃ j, c * j < c * k + min (n - c * k) c ∧ o = nlenLen + c * j := by
  constructor
  · rintro (⟨j, hj, rfl⟩ | rfl)
    · exact ⟨j, by omega, rfl⟩
    · exact ⟨k, by omega, rfl⟩
  · rintro ⟨j, hj, rfl⟩
    have hjk : c * j < c * (k + 1) := by
      rw [Nat.mul_add, Nat.mul_one]
      omega
    have hle : j ≤ k := Nat.lt_succ_iff.mp (Nat.lt_of_mul_lt_mul_left hjk)
    rcases Nat.lt_or_eq_of_le hle with hlt | rfl
    · exact Or.inl ⟨j, Nat.mul_lt_mul_of_pos_left hlt hc, rfl⟩
    · exact Or.inr rfl

/-- **One chunk more is asked for.** -/
theorem Asked.append (h : Asked files info n s done) (hlt : done < n) (hn : n ≤ 65534) (hc : 0 < chunkMax info.mle)
    (answer : Option Frame) :
    Asked files info n (s ++ [(readBinaryApdu (nlenLen + done) (min (n - done) (chunkMax info.mle)), answer)])
      (done + min (n - done) (chunkMax info.mle)) := by
  have hmax : chunkMax info.mle ≤ 254 := Nat.min_le_right _ _
  have hmle : chunkMax info.mle ≤ info.mle := Nat.min_le_left _ _
  obtain ⟨hread, hoffset, hle, -⟩ :=
    readBinaryApdu_fields (show nlenLen + done < 0x10000 by rw [nlenLen]; omega)
      (show min (n - done) (chunkMax info.mle) < 256 by omega) answer
  obtain ⟨hlength, hreads⟩ := nlenIn_append hread h.length
  obtain ⟨k, rfl⟩ : chunkMax info.mle ∣ done := h.aligned.resolve_right (Nat.ne_of_lt hlt)
  refine ⟨(containerIn_append_read hread).trans h.container,
    (selectedFile_append_read (isSelect_of_isRead hread)).trans h.file, hlength, h.nlen, by omega, ?_, ?_, ?_, ?_⟩
  · rcases Nat.le_total (n - chunkMax info.mle * k) (chunkMax info.mle) with hlast | hfull
    · right
      omega
    · left
      rw [Nat.min_eq_right hfull]
      exact ⟨k + 1, by rw [Nat.mul_add, Nat.mul_one]⟩
  · rw [hreads, ← Nat.add_assoc]
    exact tile_append h.tile hoffset hle
  · intro x hx
    rw [hreads, List.mem_append, List.mem_singleton] at hx
    rcases hx with hx | rfl
    · exact h.bound x hx
    · rw [hle]
      omega
  · intro o
    rw [← chunks_append hc hlt o, ← h.offsets o, hreads]
    simp only [List.mem_append, List.mem_singleton, or_and_right, exists_or, exists_eq_left, hoffset]

/-- **One chunk more is read.** -/
theorem Reading.append (h : Reading files info n s done message) (hlt : done < n) (hn : n ≤ 65534)
    (hc : 0 < chunkMax info.mle) {answer : Option Frame} {t : Exchanges} {data : Frame}
    (hstep : FileCard files s (readBinaryApdu (nlenLen + done) (min (n - done) (chunkMax info.mle))) answer t)
    (hok : responseSwOk (answer.getD []) = true)
    (hdata : data = dataOf (readBinaryApdu (nlenLen + done) (min (n - done) (chunkMax info.mle)), answer))
    (hlen : data.length = min (n - done) (chunkMax info.mle)) :
    Reading files info n t (done + min (n - done) (chunkMax info.mle)) (message ++ data) := by
  obtain ⟨rfl, hcard⟩ := hstep
  refine ⟨h.toAsked.append hlt hn hc answer, by rw [List.length_append, h.count, hlen], fun hshort => ?_⟩
  have hmax : chunkMax info.mle ≤ 254 := Nat.min_le_right _ _
  obtain ⟨hread, hoffset, -, hform⟩ :=
    readBinaryApdu_fields (show nlenLen + done < 0x10000 by rw [nlenLen]; omega)
      (show min (n - done) (chunkMax info.mle) < 256 by omega) answer
  have hlower : nlenLen + done < 0x8000 := by
    obtain ⟨k, rfl⟩ : chunkMax info.mle ∣ done := h.aligned.resolve_right (Nat.ne_of_lt hlt)
    have hlast := chunk_le_last hlt
    rw [lastOffset_eq] at hshort
    omega
  have hprefix := hcard _ h.file hread (hform.mpr hlower) hok
  rw [hoffset, ← hdata, List.prefix_iff_eq_take, hlen] at hprefix
  rw [List.take_add, List.drop_drop, ← h.exact hshort, ← hprefix]

/-- **The read loop.** -/
theorem readChunks_holds (hn : n ≤ 65534) (hpos : 0 < min info.mle readBinaryDataMax)
    (hmax : min info.mle readBinaryDataMax ≤ readBinaryDataMax) (h : Reading files info n s done message) :
    (readChunks n (min info.mle readBinaryDataMax) hn hpos hmax done message).Holds (FileCard files)
      (fun t => ∃ asked, Asked files info n t asked)
      (fun r t => ∀ message, r = some message → Reading files info n t n message) s := by
  induction hleft : n - done using Nat.strong_induction_on generalizing done s message with
  | _ left ih =>
      rw [readChunks]
      split
      · rename_i hlt
        have hoffset : u16 (nlenLen + done) = nlenLen + done := Nat.mod_eq_of_lt (by rw [nlenLen]; omega)
        have hchunk : readChunkLen (min info.mle readBinaryDataMax) (n - done) = min (n - done) (chunkMax info.mle) :=
          readChunkLen_eq hmax (by omega)
        have hread : (readBinaryExact (u16 (nlenLen + done))
              (readChunkLen (min info.mle readBinaryDataMax) (n - done))).Holds (FileCard files)
            (fun t => ∃ asked, Asked files info n t asked)
            (fun r t => ∀ data, r = some data →
              Reading files info n t (done + min (n - done) (chunkMax info.mle)) (message ++ data.1)) s := by
          apply readExact_holds ⟨done, h.toAsked⟩
          intro answer t hstep
          rw [hoffset, hchunk] at hstep
          have hasked := h.toAsked.append hlt hn hpos answer
          rw [← hstep.1] at hasked
          refine ⟨⟨_, hasked⟩, by simp, ?_⟩
          intro data hok hdata data' hsome
          obtain rfl := Option.some.inj hsome
          exact h.append hlt hn hpos hstep hok (hdata.trans (by rw [hoffset, hchunk])) (data.2.trans hchunk)
        apply Dialogue.holds_bind hread
        intro r t ht hr
        rcases r with _ | ⟨data, hdata⟩
        · exact Dialogue.holds_pure ht (by simp)
        · have hreading := hr _ rfl
          have hnext : u16 (done + data.length) = done + min (n - done) (chunkMax info.mle) := by
            rw [hdata, hchunk]
            exact Nat.mod_eq_of_lt (by omega)
          dsimp only
          rw [hnext]
          have hprogress : 0 < chunkMax info.mle := hpos
          exact ih _ (by omega) hreading rfl
      · rename_i hge
        obtain rfl : done = n := Nat.le_antisymm h.le (Nat.not_lt.mp hge)
        refine Dialogue.holds_pure ⟨done, h.toAsked⟩ ?_
        intro message' hmessage
        cases hmessage
        exact h

theorem readsTile_of_nil (h : messageReads s = []) : ReadsTile s ∧ (ShortOffsets s → ShortForms s) := by
  refine ⟨fun info n _ _ => ⟨⟨nlenLen, Nat.le_add_right _ _, ?_⟩, ?_⟩, fun _ => ?_⟩
  · rw [h]
    rfl
  · simp [h]
  · simp [ShortForms, h]

/-- **The length field** is that of the selected file. -/
theorem readNlen_reading {cc : Frame} (hinfo : type4ApplyCc cc = some info) (h : Opened info.ndefFileId cc s) :
    (readBinaryExact 0 nlenLen).Holds (FileCard files) (fun t => messageReads t = [])
      (fun r t => ∀ data, r = some data → Reading files info (u16At data.1 0) t 0 []) s := by
  apply readExact_holds
  · exact h.settled.noLength.messageReads
  rintro answer t ⟨rfl, hcard⟩
  have hread : isRead (readBinaryApdu 0 nlenLen, answer) = true := rfl
  have htrailing := trailing_append_read (s := s) hread
  rw [h.settled, List.nil_append] at htrailing
  have hn : nlenIn (s ++ [(readBinaryApdu 0 nlenLen, answer)]) = some
      (u16At (dataOf (readBinaryApdu 0 nlenLen, answer)) 0) := by
    rw [nlenIn, htrailing]
    rfl
  have hnil : messageReads (s ++ [(readBinaryApdu 0 nlenLen, answer)]) = [] := by
    rw [messageReads, hn, htrailing]
    rfl
  refine ⟨hnil, by simp, ?_⟩
  intro data hok hdata data' hsome
  obtain rfl := Option.some.inj hsome
  have hprefix := hcard _ h.file hread ((shortForm_iff _).mpr (by decide)) hok
  rw [show u16At (readBinaryApdu 0 nlenLen) 2 = 0 by decide, List.drop_zero, ← hdata] at hprefix
  refine ⟨⟨?_, ?_, ?_, ?_, Nat.zero_le _, Or.inl (Nat.dvd_zero _), ?_, ?_, ?_⟩, rfl, ?_⟩
  · rw [containerIn_append_read hread, h.containerIn, hinfo]
  · rw [selectedFile_append_read rfl, h.file]
  · rw [hn, hdata]
  · obtain ⟨rest, hrest⟩ := hprefix
    rw [← hrest, u16At, u16At, u8At_append_left _ _ (by rw [data.2]; decide),
      u8At_append_left _ _ (by rw [data.2]; decide)]
  · rw [hnil]
    rfl
  · simp [hnil]
  · simp [hnil]
  · simp

end Reading

/-! ### A truthful card -/

section Truthful

variable {files : Byte × Byte → Frame} {info : Type4Info} {n done : Nat} {s : Exchanges} {message : Frame}

theorem responseSwOk_success (data : Frame) : responseSwOk (data ++ [0x90, 0x00]) = true :=
  (responseSwOk_iff _).mpr ⟨data, rfl⟩

theorem dataOf_success (apdu data : Frame) : dataOf (apdu, some (data ++ [0x90, 0x00])) = data := by
  rw [dataOf, Option.getD_some, List.length_append]
  exact List.take_left

theorem fileCard_other {apdu : Frame} {answer : Option Frame} (h : isRead (apdu, answer) = false) :
    FileCard files s apdu answer (s ++ [(apdu, answer)]) := by
  refine ⟨rfl, fun id _ hread => ?_⟩
  rw [h] at hread
  cases hread

theorem selectFile_reaches (s : Exchanges) (hi lo : Byte) :
    Dialogue.Reaches (FileCard files) (selectFile hi lo) s (.done true)
      (s ++ [([claIso, insSelect, p1SelectByFileId, p2SelectNoFci, 2, hi, lo, 0x00], some [0x90, 0x00])]) :=
  .ask (some [0x90, 0x00]) (fileCard_other rfl) (.here _ _)

theorem readExact_reaches {offset len : Nat} {data : Frame} (hlen : data.length = len)
    (hdata : ∀ id, selectedFile s = some id → data <+: (files id).drop (u16At (readBinaryApdu offset len) 2)) :
    Dialogue.Reaches (FileCard files) (readBinaryExact offset len) s (.done (some ⟨data, hlen⟩))
      (s ++ [(readBinaryApdu offset len, some (data ++ [0x90, 0x00]))]) := by
  refine .ask (some (data ++ [0x90, 0x00])) ⟨rfl, ?_⟩ ?_
  · intro id hid _ _ _
    rw [dataOf_success]
    exact hdata id hid
  · have htake : (data ++ [0x90, 0x00]).take ((data ++ [0x90, 0x00]).length - 2) = data :=
      dataOf_success (readBinaryApdu offset len) data
    have hif : (if responseSwOk (data ++ [0x90, 0x00]) = false then pure none
        else if h : ((data ++ [0x90, 0x00]).take ((data ++ [0x90, 0x00]).length - 2)).length = len then
          pure (some ⟨_, h⟩) else pure none :
            Dialogue Frame (Option Frame) (Option { data : Frame // data.length = len })) =
        .done (some ⟨data, hlen⟩) := by
      rw [if_neg (by rw [responseSwOk_success]; decide), dif_pos (by rw [htake]; exact hlen)]
      simp only [htake]
      rfl
    exact hif ▸ .here _ _

/-- **A read of a truthful card ends**, behind the whole message. -/
theorem Reading.reaches (h : Reading files info n s done message) (hn : n ≤ 65534)
    (hroom : nlenLen + n ≤ (files info.ndefFileId).length) (hpos : 0 < min info.mle readBinaryDataMax)
    (hmax : min info.mle readBinaryDataMax ≤ readBinaryDataMax) :
    ∃ t message', Dialogue.Reaches (FileCard files)
      (readChunks n (min info.mle readBinaryDataMax) hn hpos hmax done message) s (.done (some message')) t ∧
      Reading files info n t n message' := by
  induction hleft : n - done using Nat.strong_induction_on generalizing done s message with
  | _ left ih =>
      rw [readChunks]
      split
      · rename_i hlt
        have hoffset : u16 (nlenLen + done) = nlenLen + done := Nat.mod_eq_of_lt (by rw [nlenLen]; omega)
        have hchunk : readChunkLen (min info.mle readBinaryDataMax) (n - done) = min (n - done) (chunkMax info.mle) :=
          readChunkLen_eq hmax (by omega)
        have hsmall : chunkMax info.mle ≤ 254 := Nat.min_le_right _ _
        have hcommand : readBinaryApdu (u16 (nlenLen + done))
          (readChunkLen (min info.mle readBinaryDataMax) (n - done)) =
            readBinaryApdu (nlenLen + done) (min (n - done) (chunkMax info.mle)) := by rw [hoffset, hchunk]
        obtain ⟨-, hat, -, -⟩ := readBinaryApdu_fields (show nlenLen + done < 0x10000 by rw [nlenLen]; omega)
          (show min (n - done) (chunkMax info.mle) < 256 by omega) none
        generalize hdata : ((files info.ndefFileId).drop (nlenLen + done)).take
          (min (n - done) (chunkMax info.mle)) = data
        have hlen : data.length = min (n - done) (chunkMax info.mle) := by
          rw [← hdata, List.length_take, List.length_drop]
          omega
        have hfile : ∀ id, selectedFile s = some id → data <+: (files id).drop
            (u16At (readBinaryApdu (nlenLen + done) (min (n - done) (chunkMax info.mle))) 2) := by
          intro id hid
          obtain rfl := Option.some.inj (h.file.symm.trans hid)
          rw [hat, ← hdata]
          exact List.take_prefix _ _
        have hasked := readExact_reaches (hlen.trans hchunk.symm) (hcommand.symm ▸ hfile)
        rw [hcommand] at hasked
        have hstep : FileCard files s (readBinaryApdu (nlenLen + done) (min (n - done) (chunkMax info.mle)))
            (some (data ++ [0x90, 0x00])) _ := ⟨rfl, fun id hid _ _ _ => (dataOf_success _ data).symm ▸ hfile id hid⟩
        have hnext := h.append hlt hn hpos hstep (responseSwOk_success data) (dataOf_success _ data).symm hlen
        have hprogress : 0 < chunkMax info.mle := hpos
        have hdone : u16 (done + data.length) = done + min (n - done) (chunkMax info.mle) := by
          rw [hlen]
          exact Nat.mod_eq_of_lt (by omega)
        obtain ⟨t, message', hrest, hend⟩ := ih _ (by omega) hnext rfl
        rw [← hdone] at hrest
        exact ⟨t, message', hasked.bind hrest, hend⟩
      · rename_i hge
        obtain rfl : done = n := Nat.le_antisymm h.le (Nat.not_lt.mp hge)
        exact ⟨s, message, .here _ _, h⟩

end Truthful

/-! ### The property -/

/-- Behind the whole message the two sides of the property are one. -/
theorem Reading.complete {files : Byte × Byte → Frame} {info : Type4Info} {n : Nat} {s : Exchanges} {message : Frame}
    (h : Reading files info n s n message) (cc : Frame) (maxNdefSize : Nat) :
    ReadsTile s ∧ ShortForms s ∧ MessageRead files ⟨cc, info, maxNdefSize, message⟩ s ↔ ShortOffsets s := by
  constructor
  · rintro ⟨-, hforms, -⟩
    exact h.shortOffsets hforms
  · intro hshort
    have hexact := h.exact (hshort info n h.container h.length)
    exact ⟨h.readsTile, h.shortForms hshort, n, h.nlen, h.length, h.container, h.tile, h.count, hexact⟩

/-- **The host's NDEF read.** At every moment, whatever the card answers, the READ BINARY commands of the message
tile the file behind its length field, none longer than MLe, and their offsets are short forms if the last chunk
starts below 8000h. Behind a read that succeeded all this holds, and the message is that of the file, if and only if
the last chunk starts there. -/
theorem readNdefFile_tiles (files : Byte × Byte → Frame) :
    readNdefFile.Holds (FileCard files) (fun s => ReadsTile s ∧ (ShortOffsets s → ShortForms s))
      (fun r s => ∀ file, r = some file →
        (ReadsTile s ∧ ShortForms s ∧ MessageRead files file s ↔ ShortOffsets s)) [] := by
  have hquiet : ∀ t, NoLength t → ReadsTile t ∧ (ShortOffsets t → ShortForms t) :=
    fun t ht => readsTile_of_nil ht.messageReads
  have hselects : Selects (u8At · 1 ≠ insReadBinary) := .of_ins (by decide)
  have hstart : Settled [] := rfl
  have hselect : (selectNdefApp ndefAppSelectVariants).Holds (FileCard files) Settled (fun _ _ => True) [] :=
    (asks_settled (selectNdefApp_asks hselects _) hstart).of_peer fileCard_recorded
  rw [readNdefFile]
  apply Dialogue.holds_bind (hselect.mono (fun t ht => hquiet t ht.noLength) fun _ t ht _ => ht)
  intro ok t ht hsettled
  split
  · exact Dialogue.holds_pure ht (by simp)
  have hcontainer : (selectFile ccFileIdHi ccFileIdLo).Holds (FileCard files) Settled (fun _ _ => True) t :=
    (asks_settled (selectFile_asks hselects _ _) hsettled).of_peer fileCard_recorded
  apply Dialogue.holds_bind (hcontainer.mono (fun t ht => hquiet t ht.noLength) fun _ t ht _ => ht)
  intro ok t ht hsettled
  split
  · exact Dialogue.holds_pure ht (by simp)
  apply Dialogue.holds_bind
    (((readCc_lastData hsettled).of_peer fileCard_recorded).mono hquiet fun _ t ht h => And.intro ht h)
  rintro r t ht ⟨hnone, hr⟩
  rcases r with _ | cc
  · exact Dialogue.holds_pure ht (by simp)
  dsimp only
  split
  · exact Dialogue.holds_pure ht (by simp)
  rename_i info hinfo
  split
  · exact Dialogue.holds_pure ht (by simp)
  rename_i maxNdefSize _
  split
  · exact Dialogue.holds_pure ht (by simp)
  have hopen : (selectFile info.ndefFileId.1 info.ndefFileId.2).Holds (FileCard files)
      (fun t => NoLength t ∧ lastData t = some cc) (fun ok t => ok = true → Opened info.ndefFileId cc t) t :=
    (selectFile_opened ⟨hnone, hr cc rfl⟩).of_peer fileCard_recorded
  apply Dialogue.holds_bind (hopen.mono (fun t ht => hquiet t ht.1) fun _ t _ h => h)
  intro ok t ht hok
  split
  · exact Dialogue.holds_pure ht (by simp)
  rename_i hselected
  have hopened := hok (by simpa using hselected)
  split
  · rename_i hmle
    apply Dialogue.holds_bind ((readNlen_reading hinfo hopened).mono (fun t ht => readsTile_of_nil ht) fun _ t _ h => h)
    intro r t ht hr
    rcases r with _ | lenBytes
    · exact Dialogue.holds_pure ht (by simp)
    have hreading := hr lenBytes rfl
    dsimp only
    split
    · exact Dialogue.holds_pure ht (by simp)
    split
    · rename_i hlen
      have hloop := readChunks_holds hlen (Nat.lt_min.mpr ⟨Nat.lt_of_lt_of_le (by decide) hmle, by decide⟩)
        (Nat.min_le_right _ _) hreading
      apply Dialogue.holds_bind (hloop.mono (fun t h => h.elim fun _ h => ⟨h.readsTile, h.shortForms⟩) fun _ t _ h => h)
      intro r t ht hr
      rcases r with _ | message
      · exact Dialogue.holds_pure ht (by simp)
      · refine Dialogue.holds_pure ht ?_
        intro file hfile
        cases hfile
        exact (hr message rfl).complete cc maxNdefSize
    · exact Dialogue.holds_pure ht (by simp)
  · exact Dialogue.holds_pure ht (by simp)

/-- A capability container with an MLe of 255 bytes. -/
def longCc : Frame := [0x00, 0x0F, 0x20, 0x00, 0xFF, 0x00, 0x34, 0x04, 0x06, 0xE1, 0x04, 0xFF, 0xFE, 0x00, 0x00]

/-- A card with a message of 33020 bytes. -/
def longFiles (id : Byte × Byte) : Frame :=
  if id = (ccFileIdHi, ccFileIdLo) then longCc else [0x80, 0xFC] ++ List.replicate 33020 0x00

/-- The last chunk of a long message is read at offset 8000h, with bit 8 of P1 set. -/
theorem readNdefFile_long_form :
    ∃ s file, Dialogue.Reaches (FileCard longFiles) readNdefFile [] (.done (some file)) s ∧ ¬ShortForms s := by
  have happ : Dialogue.Reaches (FileCard longFiles) (selectNdefApp ndefAppSelectVariants) [] (.done true)
      [(selectAidApdu ndefAppAid p2SelectFirst true, some [0x90, 0x00])] :=
    .ask (some [0x90, 0x00]) (fileCard_other rfl) (.here _ _)
  generalize hs2 : ([(selectAidApdu ndefAppAid p2SelectFirst true, some [0x90, 0x00])] ++
    [([claIso, insSelect, p1SelectByFileId, p2SelectNoFci, 2, ccFileIdHi, ccFileIdLo, 0x00], some [0x90, 0x00])] :
      Exchanges) = s2 at *
  have hselected : selectedFile s2 = some (ccFileIdHi, ccFileIdLo) := by
    subst hs2
    decide
  have hcc : Dialogue.Reaches (FileCard longFiles) readCc s2 (.done (some longCc))
      (s2 ++ [(readBinaryApdu 0 ccFileLen, some (longCc ++ [0x90, 0x00]))]) := by
    have hread := @readExact_reaches longFiles s2 0 ccFileLen longCc rfl (by
      intro id hid
      obtain rfl := Option.some.inj (hselected.symm.trans hid)
      exact List.prefix_refl _)
    exact hread.bind (.here _ _)
  generalize hs4 : (s2 ++ [(readBinaryApdu 0 ccFileLen, some (longCc ++ [0x90, 0x00]))] ++
    [([claIso, insSelect, p1SelectByFileId, p2SelectNoFci, 2, 0xE1, 0x04, 0x00], some [0x90, 0x00])] : Exchanges) = s4
  have hopened : Opened (0xE1, 0x04) longCc s4 := by
    subst hs4 hs2
    exact ⟨trailing_append_other rfl, by decide, by decide⟩
  have hnlen := @readExact_reaches longFiles s4 0 nlenLen [0x80, 0xFC] rfl (by
    intro id hid
    obtain rfl := Option.some.inj (hopened.file.symm.trans hid)
    exact List.prefix_append _ _)
  have hinfo : type4ApplyCc longCc = some ⟨255, 52, (0xE1, 0x04), 0xFFFE, 0x00, 0x00⟩ := by decide
  have hreading := (Dialogue.Holds.reaches (readNlen_reading hinfo hopened) hnlen).2 _ rfl _ rfl
  have hroom : nlenLen + 33020 ≤ (longFiles (0xE1, 0x04)).length := by
    rw [longFiles, if_neg (by decide), List.length_append, List.length_replicate]
    decide
  obtain ⟨t, message, hrest, hend⟩ := hreading.reaches (by decide) hroom (by decide) (by decide)
  refine ⟨t, ⟨longCc, ⟨255, 52, (0xE1, 0x04), 0xFFFE, 0x00, 0x00⟩, 0xFFFC, message⟩, ?_, ?_⟩
  · subst hs4 hs2
    exact happ.bind ((selectFile_reaches _ _ _).bind (hcc.bind ((selectFile_reaches _ _ _).bind
      (hnlen.bind (hrest.bind (.here _ _))))))
  · intro hforms
    obtain ⟨x, hx, hoffset⟩ := (hend.offsets 0x8000).mpr ⟨129, by decide, by decide⟩
    have hform := hforms x hx
    rw [shortForm_iff, hoffset] at hform
    exact absurd hform (Nat.lt_irrefl _)

end NeroReader.Type4
