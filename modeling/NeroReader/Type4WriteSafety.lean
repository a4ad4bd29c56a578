import NeroReader.Type4Read

/-!
Tear-safety of the two Type 4 writers. The card performs every UPDATE BINARY it acknowledges, and performs or
ignores as a whole every other one; wherever the dialogue is cut off, the NDEF file is as it was, cleared, or
complete, as long as every chunk starts at an offset that an UPDATE BINARY can name.
-/

namespace NeroReader.Type4

open IsoDep HostApdu
open FileUpdate (File Update patch Has Commit)

/-! ### The card -/

/-- The NDEF file of a card, and the dialogue with it so far. -/
structure Card (Ans : Type) where
  file : File Byte
  history : List (Frame × Ans)

def updates {Ans : Type} (history : List (Frame × Ans)) : List (Update Byte) := history.filterMap fun x => updateOf x.1

/-- An UPDATE BINARY of the selected file that is acknowledged has been performed; any other has been performed or
not. Of one that names its file by a short EF identifier nothing is known: it may be the NDEF file or another one. -/
def Answers {Ans : Type} (acknowledges : Ans → Prop) (s : Card Ans) (apdu : Frame) (answer : Ans) (t : Card Ans) :
    Prop :=
  t.history = s.history ++ [(apdu, answer)] ∧
    match updateOf apdu with
    | none => u8At apdu 1 ≠ insUpdateBinary → t.file = s.file
    | some u => t.file = patch s.file u ∨ ¬ acknowledges answer ∧ t.file = s.file

/-- The card answers an I-block with S(WTX) requests and then an I-block whose INF field, between header and CRC,
ends with 9000. -/
def CardAcknowledges (frames : List Frame) : Prop :=
  ∃ waits frame later, frames = waits ++ frame :: later ∧ (∀ w ∈ waits, isSWtx w = true) ∧ isSWtx frame = false ∧
    ∃ header inf crc, frame = header ++ (inf ++ [0x90, 0x00]) ++ crc ∧
      header.length = rxHdrSkip (u8At frame 0) ∧ crc.length = crcALen

/-- The response APDU ends with 9000. -/
def ResponseAcknowledges (rapdu : Option Frame) : Prop := ∃ data, rapdu = some (data ++ [0x90, 0x00])

theorem awaitAnswer_spec {retries : Nat} {rx final : Frame} {later : List Frame}
    (h : awaitAnswer retries rx later = some final) :
    ∃ waits rest, rx :: later = waits ++ final :: rest ∧ ∀ w ∈ waits, isSWtx w = true := by
  induction retries generalizing rx later with
  | zero =>
      cases h
      exact ⟨[], later, rfl, by simp⟩
  | succ retries ih =>
      rw [awaitAnswer] at h
      split at h
      · cases h
      split at h
      · rename_i hwtx
        split at h
        · cases h
        dsimp only at h
        split at h
        · cases h
        rename_i hnext
        cases later with
        | nil => exact absurd (Nat.zero_lt_one) hnext
        | cons next later =>
            obtain ⟨waits, rest, hlater, hwaits⟩ := ih h
            refine ⟨rx :: waits, rest, congrArg (rx :: ·) hlater, fun w hw => ?_⟩
            rcases List.mem_cons.mp hw with rfl | hw
            · exact hwtx
            · exact hwaits w hw
      · cases h
        exact ⟨[], later, rfl, by simp⟩

/-- What the writer takes for success is an acknowledgement of the card. -/
theorem cardAcknowledges_of_ok {frames : List Frame} (h : responseSwOk ((isoDepResponse frames).getD []) = true) :
    CardAcknowledges frames := by
  unfold isoDepResponse at h
  split at h
  · cases h
  rename_i rx hawait
  dsimp only at h
  split at h
  · cases h
  rename_i hanswer
  split at h
  · cases h
  rename_i hlen
  rw [not_or] at hanswer
  obtain ⟨hpos, hwtx⟩ := hanswer
  obtain ⟨waits, rest, hframes, hwaits⟩ := awaitAnswer_spec hawait
  obtain ⟨inf, hinf⟩ := (responseSwOk_iff _).mp h
  have hcons : frames = waits ++ rx :: rest := by
    cases frames with
    | nil => simp [awaitAnswer, isoDepMaxRetries] at hawait
    | cons frame frames => exact hframes
  have hinf : (rx.drop (rxHdrSkip (u8At rx 0))).take (rx.length - rxHdrSkip (u8At rx 0) - crcALen) =
      inf ++ [0x90, 0x00] := hinf
  have hlen : rxHdrSkip (u8At rx 0) + crcALen ≤ rx.length := Nat.not_lt.mp hlen
  rw [crcALen] at hlen hinf
  refine ⟨waits, rx, rest, hcons, hwaits, by simpa using hwtx, rx.take (rxHdrSkip (u8At rx 0)), inf,
    rx.drop (rx.length - 2), ?_, List.length_take_of_le (by omega), by rw [List.length_drop, crcALen]; omega⟩
  rw [← hinf, List.append_assoc, show rx.length - 2 = rxHdrSkip (u8At rx 0) +
    (rx.length - rxHdrSkip (u8At rx 0) - 2) by omega,
    ← List.drop_drop, List.take_append_drop, List.take_append_drop]

theorem responseAcknowledges_of_ok {rapdu : Frame} (h : responseSwOk rapdu = true) :
    ResponseAcknowledges (some rapdu) := by
  obtain ⟨data, rfl⟩ := (responseSwOk_iff rapdu).mp h
  exact ⟨data, rfl⟩

/-! ### Writing -/

theorem updateOf_updateBinaryApdu {offset : Nat} {data : Frame} (hoffset : offset < 0x8000) (hlen : data.length < 256) :
    updateOf (updateBinaryApdu offset data) = some ⟨offset, data⟩ := by
  have hhi : (byte (offset / 256)).toNat = offset / 256 := byte_toNat (by omega)
  have hlo : (byte offset).toNat = offset % 256 := BitVec.toNat_ofNat _ _
  have hlc : (byte data.length).toNat = data.length := byte_toNat hlen
  have hform : ShortForm (updateBinaryApdu offset data) := by
    change (byte (offset / 256)).toNat < 0x80
    omega
  unfold updateOf
  rw [if_pos ⟨rfl, rfl, by simp [updateBinaryApdu, hlc]; omega, hform⟩]
  unfold updateBinaryApdu
  simp only [u16At, List.cons_append, List.nil_append, u8At_cons_succ, u8At_cons_zero, hhi, hlo, Option.some.injEq,
    Update.mk.injEq, List.drop_succ_cons, List.drop_zero, and_true]
  omega

theorem updateOf_upper {offset : Nat} (hlow : 0x8000 ≤ offset) (hhigh : offset < 0x10000) (data : Frame) :
    updateOf (updateBinaryApdu offset data) = none := by
  have hhi : (byte (offset / 256)).toNat = offset / 256 := byte_toNat (by omega)
  rw [updateOf, if_neg]
  rintro ⟨-, -, -, hform⟩
  change (byte (offset / 256)).toNat < 0x80 at hform
  omega

theorem nlenBytes_length (n : Nat) : (nlenBytes n).length = 2 := rfl

/-- Where the last chunk of a message starts. -/
def lastChunk (chunkMax : Nat) (ndef : Frame) : Nat := nlenLen + chunkMax * ((ndef.length - 1) / chunkMax)

/-- Behind a chunk the next one starts, or the message ends. -/
theorem chunk_aligned {c j n : Nat} (hlt : c * j < n) :
    c ∣ c * j + min (n - c * j) c ∨ c * j + min (n - c * j) c = n := by
  rcases Nat.le_total (n - c * j) c with hlast | hfull
  · right
    omega
  · left
    rw [Nat.min_eq_right hfull]
    exact ⟨j + 1, by rw [Nat.mul_add, Nat.mul_one]⟩

section Writing

variable {Ans : Type} {acknowledges : Ans → Prop} {response : Ans → Option Frame}

/-- One UPDATE BINARY of a writer, and whether the writer takes it for done. -/
structure Sent (s : Card Ans) (u : Update Byte) (ok : Bool) (t : Card Ans) : Prop where
  history : ∃ x, t.history = s.history ++ [x] ∧ updateOf x.1 = some u
  file : t.file = patch s.file u ∨ ok = false ∧ t.file = s.file

/-- The function sends one UPDATE BINARY. -/
def Sends (acknowledges : Ans → Prop) (update : Nat → Frame → Dialogue Frame Ans Bool) : Prop :=
  ∀ (offset : Nat) (data : Frame) (s : Card Ans) (keeps : Card Ans → Prop) (post : Bool → Card Ans → Prop),
    offset < 0x8000 → 0 < data.length → data.length ≤ updateBinaryDataMax → keeps s →
    (∀ ok t, Sent s ⟨offset, data⟩ ok t → keeps t ∧ post ok t) →
    (update offset data).Holds (Answers acknowledges) keeps post s

/-- An acknowledged command is one the writer goes on behind. -/
theorem sent_of_answers {s t : Card Ans} {offset : Nat} {data : Frame} {answer : Ans} {ok : Bool}
    (hoffset : offset < 0x8000) (hlen : data.length < 256)
    (hstep : Answers acknowledges s (updateBinaryApdu offset data) answer t) (hok : ok = true → acknowledges answer) :
    Sent s ⟨offset, data⟩ ok t := by
  obtain ⟨hhistory, hfile⟩ := hstep
  rw [updateOf_updateBinaryApdu hoffset hlen] at hfile
  refine ⟨⟨_, hhistory, updateOf_updateBinaryApdu hoffset hlen⟩, hfile.imp_right fun ⟨hno, hsame⟩ => ⟨?_, hsame⟩⟩
  cases ok with
  | false => rfl
  | true => exact absurd (hok rfl) hno

/-- What the writer has to write. -/
def commit (old : File Byte) (ndef : Frame) : Commit Byte := ⟨old, nlenBytes 0, nlenBytes ndef.length, ndef, rfl⟩

/-- A READ BINARY of the dialogue brought this capability container. -/
def ReadsCc (response : Ans → Option Frame) (history : List (Frame × Ans)) (info : Type4Info) : Prop :=
  ∃ x ∈ history, ∃ resp le len, x.1 = readBinaryApdu 0 le ∧ response x.2 = some resp ∧
    type4ApplyCc (resp.take len) = some info

/-- The file is whole, and the updates so far are those of a tear-safe write in chunks of at most MLc bytes. -/
def TearSafe (response : Ans → Option Frame) (old : File Byte) (ndef : Frame) (s : Card Ans) : Prop :=
  (commit old ndef).Whole s.file ∧
    (updates s.history = [] ∨ ∃ info, ReadsCc response s.history info ∧ nlenLen ≤ info.mlc ∧
      (commit old ndef).Sequence (min info.mlc updateBinaryDataMax) (updates s.history))

/-- The file starts with the length field and the message. -/
def Complete (old : File Byte) (ndef : Frame) (s : Card Ans) : Prop :=
  Has s.file 0 ((commit old ndef).field ++ (commit old ndef).message)

/-- The inspection is done and nothing is written. -/
def Inspected (response : Ans → Option Frame) (old : File Byte) (info : Type4Info) (s : Card Ans) : Prop :=
  s.file = old ∧ updates s.history = [] ∧ ReadsCc response s.history info ∧ nlenLen ≤ info.mlc

/-- The length field is cleared and so much of the message is written. -/
def Writing (response : Ans → Option Frame) (old : File Byte) (ndef : Frame) (info : Type4Info) (k : Nat)
    (s : Card Ans) : Prop :=
  (commit old ndef).Blank s.file k ∧
    (commit old ndef).Tiled (min info.mlc updateBinaryDataMax) (updates s.history) k ∧
    ReadsCc response s.history info ∧ nlenLen ≤ info.mlc

theorem Sent.updates {s t : Card Ans} {u : Update Byte} {ok : Bool} (h : Sent s u ok t) :
    Type4.updates t.history = Type4.updates s.history ++ [u] := by
  obtain ⟨x, hhistory, hupdate⟩ := h.history
  rw [hhistory, Type4.updates, List.filterMap_append, Type4.updates]
  simp [hupdate]

theorem ReadsCc.append {history : List (Frame × Ans)} {info : Type4Info} (h : ReadsCc response history info)
    (more : List (Frame × Ans)) : ReadsCc response (history ++ more) info := by
  obtain ⟨x, hx, hrest⟩ := h
  exact ⟨x, List.mem_append_left _ hx, hrest⟩

theorem Sent.readsCc {s t : Card Ans} {u : Update Byte} {ok : Bool} (h : Sent s u ok t) {info : Type4Info}
    (hcc : ReadsCc response s.history info) : ReadsCc response t.history info := by
  obtain ⟨x, hhistory, -⟩ := h.history
  rw [hhistory]
  exact hcc.append [x]

theorem Writing.tearSafe {old : File Byte} {ndef : Frame} {info : Type4Info} {k : Nat} {s : Card Ans}
    (h : Writing response old ndef info k s) (hk : k ≤ ndef.length) : TearSafe response old ndef s :=
  ⟨Or.inr (Or.inl h.1.1), Or.inr ⟨info, h.2.2.1, h.2.2.2, Or.inr (Or.inl ⟨k, hk, h.2.1⟩)⟩⟩

theorem Inspected.tearSafe {old : File Byte} {ndef : Frame} {info : Type4Info} {s : Card Ans}
    (h : Inspected response old info s) : TearSafe response old ndef s := ⟨Or.inl h.1, Or.inl h.2.1⟩

variable {update : Nat → Frame → Dialogue Frame Ans Bool} (hsends : Sends acknowledges update)
  {old : File Byte} {ndef : Frame} {info : Type4Info}

include hsends

/-- Clearing the length field. -/
theorem clear_holds {s : Card Ans} (h : Inspected response old info s) :
    (update 0 (nlenBytes 0)).Holds (Answers acknowledges) (TearSafe response old ndef)
      (fun ok t => ok = true → Writing response old ndef info 0 t) s := by
  refine hsends 0 (nlenBytes 0) s _ _ (by decide) (by decide) (by decide) h.tearSafe fun ok t hsent => ?_
  obtain ⟨hold, hupdates, hcc, hmlc⟩ := h
  have hcleared : updates t.history = [(commit old ndef).clear] := by rw [hsent.updates, hupdates]; rfl
  have htiled : (commit old ndef).Tiled (min info.mlc updateBinaryDataMax) (updates t.history) 0 := by
    rw [hcleared]
    exact Commit.tiled_clear _ _
  have hwriting : t.file = patch s.file ⟨0, nlenBytes 0⟩ → Writing response old ndef info 0 t := by
    intro hfile
    refine ⟨?_, htiled, hsent.readsCc hcc, hmlc⟩
    rw [hfile]
    exact Commit.blank_clear (c := commit old ndef) s.file
  rcases hsent.file with hfile | ⟨hok, hfile⟩
  · exact ⟨(hwriting hfile).tearSafe (Nat.zero_le _), fun _ => hwriting hfile⟩
  · refine ⟨⟨Or.inl (hfile.trans hold),
        Or.inr ⟨info, hsent.readsCc hcc, hmlc, Or.inr (Or.inl ⟨0, Nat.zero_le _, htiled⟩)⟩⟩, ?_⟩
    intro h
    rw [hok] at h
    cases h

/-- Setting it behind the whole message. -/
theorem set_holds {s : Card Ans} (h : Writing response old ndef info ndef.length s) :
    (update 0 (nlenBytes ndef.length)).Holds (Answers acknowledges) (TearSafe response old ndef)
      (fun ok t => ok = true → Complete old ndef t) s := by
  refine hsends 0 (nlenBytes ndef.length) s _ _ (by decide) (by rw [nlenBytes_length]; decide)
    (by rw [nlenBytes_length]; decide) (h.tearSafe (Nat.le_refl _)) fun ok t hsent => ?_
  obtain ⟨hblank, htiled, hcc, hmlc⟩ := h
  have hsequence : (commit old ndef).Sequence (min info.mlc updateBinaryDataMax) (updates t.history) := by
    rw [hsent.updates]
    exact Or.inr (Or.inr ⟨_, rfl, htiled⟩)
  have hlog := fun hwhole =>
    (⟨hwhole, Or.inr ⟨info, hsent.readsCc hcc, hmlc, hsequence⟩⟩ : TearSafe response old ndef t)
  rcases hsent.file with hfile | ⟨hok, hfile⟩
  · have hcomplete : Complete old ndef t := by
      rw [Complete, hfile]
      exact hblank.set (Nat.le_refl _)
    exact ⟨hlog (Or.inr (Or.inr hcomplete)), fun _ => hcomplete⟩
  · refine ⟨hlog (Or.inr (Or.inl (by rw [hfile]; exact hblank.1))), fun h => ?_⟩
    rw [hok] at h
    cases h

/-- One chunk. -/
theorem chunk_holds {k n : Nat} {s : Card Ans} (h : Writing response old ndef info k s) (hk : k + n ≤ ndef.length)
    (hlower : nlenLen + k < 0x8000) (hpos : 0 < n) (hn : n ≤ min info.mlc updateBinaryDataMax) :
    (update (nlenLen + k) ((ndef.drop k).take n)).Holds (Answers acknowledges) (TearSafe response old ndef)
      (fun ok t => ok = true → Writing response old ndef info (k + n) t) s := by
  have hdata : ((ndef.drop k).take n).length = n := by
    rw [List.length_take, List.length_drop]
    omega
  refine hsends (nlenLen + k) ((ndef.drop k).take n) s _ _ hlower (by omega) (by omega)
    (h.tearSafe (by omega)) fun ok t hsent => ?_
  obtain ⟨hblank, htiled, hcc, hmlc⟩ := h
  have htiled' : (commit old ndef).Tiled (min info.mlc updateBinaryDataMax) (updates t.history) (k + n) := by
    rw [hsent.updates]
    exact htiled.snoc (c := commit old ndef) (Nat.le_trans (Nat.le_add_right k n) hk) rfl rfl (by rw [hdata]; exact hn)
  rcases hsent.file with hfile | ⟨hok, hfile⟩
  · have hwriting : Writing response old ndef info (k + n) t := by
      refine ⟨?_, htiled', hsent.readsCc hcc, hmlc⟩
      rw [hfile]
      exact hblank.patch (c := commit old ndef) (Nat.le_trans (Nat.le_add_right k n) hk) rfl rfl
    exact ⟨hwriting.tearSafe hk, fun _ => hwriting⟩
  · refine ⟨⟨Or.inr (Or.inl (by rw [hfile]; exact hblank.1)),
      Or.inr ⟨info, hsent.readsCc hcc, hmlc, Or.inr (Or.inl ⟨k + n, hk, htiled'⟩)⟩⟩, fun h => ?_⟩
    rw [hok] at h
    cases h

/-- **The write loop.** Every chunk is put behind the ones before it, below 8000h if the last one starts there; the end
of the loop finds the whole message written. -/
theorem writeChunks_holds {bits : Nat} (hbits : 8 ≤ bits) (message : Message) (hmessage : message.bytes = ndef)
    {max : ChunkMax} (hmax : max.bytes = min info.mlc updateBinaryDataMax)
    (hlower : lastChunk max.bytes ndef < 0x8000) {finish : Dialogue Frame Ans Bool}
    (hfinish : ∀ t, Writing response old ndef info ndef.length t →
      finish.Holds (Answers acknowledges) (TearSafe response old ndef) (fun ok t => ok = true → Complete old ndef t) t)
    {k : Nat} (hk : k ≤ ndef.length) (haligned : max.bytes ∣ k ∨ k = ndef.length) {s : Card Ans}
    (h : Writing response old ndef info k s) :
    (writeChunks bits hbits update message max finish k).Holds (Answers acknowledges) (TearSafe response old ndef)
      (fun ok t => ok = true → Complete old ndef t) s := by
  induction hleft : ndef.length - k using Nat.strong_induction_on generalizing k s with
  | _ left ih =>
      have hlen := message.length_le
      have hmaxpos := max.pos
      rw [writeChunks]
      split
      · rename_i hlt
        have hchunk := chunkLen_eq hbits max (show message.bytes.length - k ≤ 65534 by omega)
        rw [hchunk, hmessage] at *
        obtain ⟨j, rfl⟩ : max.bytes ∣ k := haligned.resolve_right (Nat.ne_of_lt hlt)
        have hbelow : nlenLen + max.bytes * j < 0x8000 := by
          have hlast := chunk_le_last hlt
          rw [lastChunk] at hlower
          omega
        have hoffset : u16 (nlenLen + max.bytes * j) = nlenLen + max.bytes * j := Nat.mod_eq_of_lt (by omega)
        have hnext : u16 (max.bytes * j + min (ndef.length - max.bytes * j) max.bytes) =
            max.bytes * j + min (ndef.length - max.bytes * j) max.bytes := Nat.mod_eq_of_lt (by omega)
        rw [hoffset, hnext]
        refine Dialogue.holds_bind (chunk_holds hsends h (n := min (ndef.length - max.bytes * j) max.bytes) (by omega)
          hbelow (by omega) (by omega)) fun ok t hsafe hok => ?_
        split
        · rename_i htrue
          exact ih _ (by omega) (by omega) (chunk_aligned hlt) (hok htrue) rfl
        · exact Dialogue.holds_pure hsafe (by simp)
      · rename_i hge
        have hk : k = ndef.length := by
          rw [hmessage] at hge
          omega
        rw [hk] at h
        exact hfinish s h

end Writing

theorem writerUpdate_sends : Sends CardAcknowledges writerUpdate := by
  intro offset data s keeps post hoffset hpos hlen hkeeps hsent
  rw [updateBinaryDataMax] at hlen
  have hfits : ¬ (isoDepApduRespStack - 1 < (updateBinaryApdu offset data).length ∨
      isoDepApduRespStack < 1 + ((updateBinaryApdu offset data).length + crcALen)) := by
    simp only [updateBinaryApdu, List.length_append, List.length_cons, List.length_nil, isoDepApduRespStack, crcALen]
    omega
  unfold writerUpdate writerTransactOk writerIsoDepTransact
  rw [if_neg hfits]
  exact ⟨hkeeps, fun frames t hstep =>
    hsent _ t (sent_of_answers hoffset (by omega) hstep fun hok => cardAcknowledges_of_ok hok)⟩

theorem updateBinary_sends : Sends ResponseAcknowledges updateBinary := by
  intro offset data s keeps post hoffset hpos hlen hkeeps hsent
  rw [updateBinaryDataMax] at hlen
  unfold updateBinary
  rw [if_neg (by rintro (rfl | h); exacts [absurd hpos (by decide), by omega])]
  refine ⟨hkeeps, fun rapdu t hstep => ?_⟩
  cases rapdu with
  | none => exact hsent false t (sent_of_answers hoffset (by omega) hstep (by simp))
  | some rapdu => exact hsent _ t (sent_of_answers hoffset (by omega) hstep responseAcknowledges_of_ok)

/-! ### Inspection and read-back -/

def isUpdate (apdu : Frame) : Bool := u8At apdu 1 == insUpdateBinary

/-- The program sends no UPDATE BINARY. -/
def ReadsOnly {Ans α : Type} (program : Dialogue Frame Ans α) : Prop := program.Asks (isUpdate · = false)

theorem updateOf_eq_none {apdu : Frame} (h : isUpdate apdu = false) : updateOf apdu = none := by
  rw [updateOf, if_neg (fun hupdate => by simp [isUpdate, hupdate.2.1] at h)]

theorem isUpdate_readBinaryApdu (offset le : Nat) : isUpdate (readBinaryApdu offset le) = false := rfl

theorem isUpdate_select : Selects (isUpdate · = false) := fun _ _ _ => rfl

/-- Nothing was written since, whatever was read. -/
structure Still {Ans : Type} (s₀ s : Card Ans) : Prop where
  file : s.file = s₀.file
  history : ∃ more, s.history = s₀.history ++ more ∧ ∀ x ∈ more, isUpdate x.1 = false

theorem Still.refl {Ans : Type} (s : Card Ans) : Still s s := ⟨rfl, [], (List.append_nil _).symm, by simp⟩

theorem Still.updates {Ans : Type} {s₀ s : Card Ans} (h : Still s₀ s) : updates s.history = updates s₀.history := by
  obtain ⟨more, hhistory, hmore⟩ := h.history
  rw [hhistory, Type4.updates, List.filterMap_append,
    List.filterMap_eq_nil_iff.mpr fun x hx => updateOf_eq_none (hmore x hx), List.append_nil, Type4.updates]

theorem Still.prefix {Ans : Type} {s₀ s : Card Ans} (h : Still s₀ s) : s₀.history <+: s.history :=
  h.history.elim fun more hmore => ⟨more, hmore.1.symm⟩

section Reading

variable {Ans α : Type} {acknowledges : Ans → Prop} {response : Ans → Option Frame} {s₀ s : Card Ans}

/-- A command other than UPDATE BINARY writes nothing. -/
theorem Still.reads {t : Card Ans} {apdu : Frame} {answer : Ans} (hs : Still s₀ s)
    (h : Answers acknowledges s apdu answer t) (hreads : isUpdate apdu = false) : Still s₀ t := by
  obtain ⟨hhistory, hfile⟩ := h
  obtain ⟨more, hbefore, hmore⟩ := hs.history
  rw [updateOf_eq_none hreads] at hfile
  refine ⟨(hfile (by simpa [isUpdate] using hreads)).trans hs.file, more ++ [(apdu, answer)], ?_, fun x hx => ?_⟩
  · rw [hhistory, hbefore, List.append_assoc]
  · rcases List.mem_append.mp hx with hx | hx
    · exact hmore x hx
    · rwa [List.mem_singleton.mp hx]

theorem ReadsOnly.still {program : Dialogue Frame Ans α} (h : ReadsOnly program) (hs : Still s₀ s) :
    program.Holds (Answers acknowledges) (Still s₀) (fun _ _ => True) s :=
  Dialogue.Asks.holds h (fun _ _ _ _ hreads hstep ht => ht.reads hstep hreads) hs

theorem ReadsCc.mono {history history' : List (Frame × Ans)} {info : Type4Info} (h : ReadsCc response history info)
    (hfront : history <+: history') : ReadsCc response history' info := by
  obtain ⟨more, rfl⟩ := hfront
  exact h.append more

/-- The capability container that was read stays read. -/
theorem ReadsOnly.readsCc {program : Dialogue Frame Ans α} (h : ReadsOnly program) {info : Type4Info}
    (hs : Still s₀ s) (hcc : ReadsCc response s.history info) :
    program.Holds (Answers acknowledges) (Still s₀) (fun _ t => ReadsCc response t.history info) s := by
  have hboth : program.Holds (Answers acknowledges) (fun t => Still s₀ t ∧ ReadsCc response t.history info)
      (fun _ _ => True) s := by
    refine Dialogue.Asks.holds h (fun t apdu answer u hreads hstep ht => ⟨ht.1.reads hstep hreads, ?_⟩) ⟨hs, hcc⟩
    rw [hstep.1]
    exact ht.2.append _
  exact hboth.mono (fun _ ht => ht.1) fun _ _ ht _ => ht.2

/-- So does the file stay whole. -/
theorem TearSafe.still {old : File Byte} {ndef : Frame} (h : TearSafe response old ndef s₀) (hs : Still s₀ s) :
    TearSafe response old ndef s := by
  obtain ⟨hwhole, hlog⟩ := h
  refine ⟨by rw [hs.file]; exact hwhole, hlog.imp (fun hnone => hs.updates.trans hnone) ?_⟩
  rintro ⟨info, hcc, hmlc, hsequence⟩
  exact ⟨info, hcc.mono hs.prefix, hmlc, by rw [hs.updates]; exact hsequence⟩

theorem tearSafe_idle (ndef : Frame) (h : updates s.history = []) : TearSafe response s.file ndef s :=
  ⟨Or.inl rfl, Or.inl h⟩

end Reading

theorem writerTransactOk_readsOnly {apdu : Frame} (h : isUpdate apdu = false) : ReadsOnly (writerTransactOk apdu) := by
  refine Dialogue.asks_bind ?_ fun resp => Dialogue.asks_pure _
  unfold writerIsoDepTransact
  split
  · exact Dialogue.asks_pure _
  · exact ⟨h, fun _ => trivial⟩

theorem writerSelectNdefApp_readsOnly : ∀ variants, ReadsOnly (writerSelectNdefApp variants)
  | [] => Dialogue.asks_pure _
  | (aid, p2, addLe) :: variants => by
      refine Dialogue.asks_bind (writerTransactOk_readsOnly (isUpdate_select _ _ _)) fun ok => ?_
      split
      · exact Dialogue.asks_pure _
      · exact writerSelectNdefApp_readsOnly variants

theorem writerIsoDepOpen_readsOnly : ReadsOnly writerIsoDepOpen := ⟨by decide, fun _ => trivial⟩

section Firmware

variable {s₀ s : Card (List Frame)}

/-- The response that was read is in the dialogue. -/
theorem writerReadCc_holds (len : Nat) (hs : Still s₀ s) :
    (writerReadCc len).Holds (Answers CardAcknowledges) (Still s₀)
      (fun r t => ∀ resp, r = some resp → ∃ x ∈ t.history, x.1 = readBinaryApdu 0 len ∧
        isoDepResponse x.2 = some resp) s := by
  unfold writerReadCc writerIsoDepTransact
  rw [if_neg (by rw [show (readBinaryApdu 0 len).length = 5 from rfl]; decide)]
  refine ⟨hs, fun frames t hstep => ?_⟩
  refine ⟨hs.reads hstep (isUpdate_readBinaryApdu 0 len), fun resp hresp => ?_⟩
  refine ⟨(readBinaryApdu 0 len, frames), by rw [hstep.1]; simp, rfl, ?_⟩
  cases hframes : isoDepResponse frames with
  | none => simp [hframes] at hresp
  | some bytes =>
      rw [hframes, Option.getD_some] at hresp
      split at hresp
      · cases hresp
      · exact hresp

theorem writerCc_holds (hs : Still s₀ s) :
    writerCc.Holds (Answers CardAcknowledges) (Still s₀)
      (fun r t => ∀ info, r = some info → ReadsCc isoDepResponse t.history info) s := by
  have hread : ∀ (resp : Frame) (len : Nat) (t : Card (List Frame)), Still s₀ t →
      (∃ x ∈ t.history, x.1 = readBinaryApdu 0 len ∧ isoDepResponse x.2 = some resp) → ∀ n,
      (pure (type4ApplyCc (resp.take n)) : Dialogue Frame (List Frame) (Option Type4Info)).Holds
        (Answers CardAcknowledges) (Still s₀)
        (fun r t => ∀ info, r = some info → ReadsCc isoDepResponse t.history info) t := by
    rintro resp len t ht ⟨x, hx, hapdu, hresp⟩ n
    exact Dialogue.holds_pure ht fun info hinfo => ⟨x, hx, resp, len, n, hapdu, hresp, hinfo⟩
  refine Dialogue.holds_bind (writerReadCc_holds ccFileLen hs) fun r t ht hr => ?_
  cases r with
  | none => exact Dialogue.holds_pure ht (by simp)
  | some resp =>
      dsimp only
      split
      · exact Dialogue.holds_pure ht (by simp)
      split
      · refine Dialogue.holds_bind (writerReadCc_holds _ ht) fun r u hu hr => ?_
        cases r with
        | none => exact Dialogue.holds_pure hu (by simp)
        | some resp => exact hread resp _ u hu (hr resp rfl) _
      · exact hread resp _ t ht (hr resp rfl) _

/-- The inspection ends with the limits of a capability container that was read. -/
theorem writerSelectNdefFile_holds (ndef : Frame) (hidle : updates s₀.history = []) (hs : Still s₀ s) :
    (writerSelectNdefFile ndef).Holds (Answers CardAcknowledges) (Still s₀)
      (fun r t => ∀ max, r = some max → ∃ info, Inspected isoDepResponse s₀.file info t ∧
        max.bytes = min info.mlc updateBinaryDataMax) s := by
  have hselect := fun p1 p2 rest => writerTransactOk_readsOnly (isUpdate_select p1 p2 rest)
  refine Dialogue.holds_bind (writerIsoDepOpen_readsOnly.still hs) fun ok t ht _ => ?_
  split
  · exact Dialogue.holds_pure ht (by simp)
  refine Dialogue.holds_bind ((writerSelectNdefApp_readsOnly _).still ht) fun ok t ht _ => ?_
  split
  · exact Dialogue.holds_pure ht (by simp)
  refine Dialogue.holds_bind ((hselect _ _ _).still ht) fun ok t ht _ => ?_
  split
  · exact Dialogue.holds_pure ht (by simp)
  refine Dialogue.holds_bind (writerCc_holds ht) fun r t ht hr => ?_
  cases r with
  | none => exact Dialogue.holds_pure ht (by simp)
  | some info =>
      have hcc := hr info rfl
      dsimp only
      split
      · exact Dialogue.holds_pure ht (by simp)
      split
      · exact Dialogue.holds_pure ht (by simp)
      split
      · exact Dialogue.holds_pure ht (by simp)
      split
      · rename_i hmlc
        refine Dialogue.holds_bind ((hselect _ _ _).readsCc ht hcc) fun ok u hu hcc => ?_
        split
        · refine Dialogue.holds_pure hu fun max hmax => ?_
          cases hmax
          exact ⟨info, ⟨hu.file, hu.updates.trans hidle, hcc, hmlc⟩, rfl⟩
        · exact Dialogue.holds_pure hu (by simp)
      · exact Dialogue.holds_pure ht (by simp)

/-- The firmware writer. -/
theorem writerTagWriteType4Impl_holds (ndef : Frame) (hcap : ndef.length ≤ writerNdefMaxBytes)
    (hidle : updates s.history = []) :
    (writerTagWriteType4Impl ndef hcap).Holds (Answers CardAcknowledges) (TearSafe isoDepResponse s.file ndef)
      (fun ok t => ok = true → Complete s.file ndef t) s := by
  have hsafe : TearSafe isoDepResponse s.file ndef s := tearSafe_idle ndef hidle
  unfold writerTagWriteType4Impl
  split
  · exact Dialogue.holds_pure hsafe (by simp)
  refine Dialogue.holds_bind ((writerSelectNdefFile_holds ndef hidle (Still.refl s)).mono
    (fun _ ht => hsafe.still ht) fun _ _ _ hr => hr) fun r t ht hr => ?_
  cases r with
  | none => exact Dialogue.holds_pure ht (by simp)
  | some max =>
      obtain ⟨info, hinspected, hmax⟩ := hr max rfl
      have hlower : lastChunk max.bytes ndef < 0x8000 := by
        have hle := Nat.mul_div_le (ndef.length - 1) max.bytes
        rw [writerNdefMaxBytes] at hcap
        rw [lastChunk, nlenLen]
        omega
      refine Dialogue.holds_bind (clear_holds writerUpdate_sends hinspected) fun ok u hu hok => ?_
      split
      · rename_i htrue
        exact writeChunks_holds writerUpdate_sends (Nat.le_refl 8) ⟨ndef, Nat.le_trans hcap (by decide)⟩ rfl hmax
          hlower (fun _ hwriting => set_holds writerUpdate_sends hwriting) (Nat.zero_le _)
            (.inl (Nat.dvd_zero _)) (hok htrue)
      · exact Dialogue.holds_pure hu (by simp)

end Firmware

section Host

variable {s₀ s : Card (Option Frame)}

theorem selectNdefApp_readsOnly (variants : List (Frame × Byte × Bool)) : ReadsOnly (selectNdefApp variants) :=
  selectNdefApp_asks isUpdate_select variants

theorem selectFile_readsOnly (hi lo : Byte) : ReadsOnly (selectFile hi lo) := selectFile_asks isUpdate_select hi lo

theorem readBinaryExact_readsOnly (offset len : Nat) : ReadsOnly (readBinaryExact offset len) :=
  readBinaryExact_asks isUpdate_readBinaryApdu offset len

theorem readChunks_readsOnly {ndefLen kChunkMax : Nat} (hlen : ndefLen ≤ 65534) (hpos : 0 < kChunkMax)
    (hmax : kChunkMax ≤ readBinaryDataMax) (done : Nat) (message : Frame) :
    ReadsOnly (readChunks ndefLen kChunkMax hlen hpos hmax done message) :=
  readChunks_asks isUpdate_readBinaryApdu hlen hpos hmax done message

/-- The bytes that were read are those of a response in the dialogue. -/
theorem readBinaryExact_holds (len : Nat) (hs : Still s₀ s) :
    (readBinaryExact 0 len).Holds (Answers ResponseAcknowledges) (Still s₀)
      (fun r t => ∀ data, r = some data → ∃ rapdu, (readBinaryApdu 0 len, some rapdu) ∈ t.history ∧
        data.1 = rapdu.take (rapdu.length - 2)) s := by
  refine ⟨hs, fun answer t hstep => ?_⟩
  have ht : Still s₀ t := hs.reads hstep (isUpdate_readBinaryApdu 0 len)
  cases answer with
  | none => exact Dialogue.holds_pure ht (by simp)
  | some rapdu =>
      change Dialogue.Holds _ _ _ (if responseSwOk rapdu = false then pure none else _) t
      split
      · exact Dialogue.holds_pure ht (by simp)
      split
      · refine Dialogue.holds_pure ht fun data hdata => ⟨rapdu, by rw [hstep.1]; simp, ?_⟩
        cases hdata
        rfl
      · exact Dialogue.holds_pure ht (by simp)

theorem readCc_holds (hs : Still s₀ s) :
    readCc.Holds (Answers ResponseAcknowledges) (Still s₀)
      (fun r t => ∀ cc, r = some cc → ∀ info, type4ApplyCc cc = some info → ReadsCc id t.history info) s := by
  have hread : ∀ (len : Nat) (cc : { data : Frame // data.length = len }) (t : Card (Option Frame)), Still s₀ t →
      (∃ rapdu, (readBinaryApdu 0 len, some rapdu) ∈ t.history ∧ cc.1 = rapdu.take (rapdu.length - 2)) →
      (pure (some cc.1) : Dialogue Frame (Option Frame) (Option Frame)).Holds (Answers ResponseAcknowledges)
        (Still s₀) (fun r t => ∀ cc, r = some cc → ∀ info, type4ApplyCc cc = some info →
          ReadsCc id t.history info) t := by
    rintro len cc t ht ⟨rapdu, hmem, hcc⟩
    refine Dialogue.holds_pure ht fun _ heq info hinfo => ?_
    cases heq
    rw [hcc] at hinfo
    exact ⟨_, hmem, rapdu, len, _, rfl, rfl, hinfo⟩
  refine Dialogue.holds_bind (readBinaryExact_holds ccFileLen hs) fun r t ht hr => ?_
  rcases r with _ | cc
  · exact Dialogue.holds_pure ht (by simp)
  dsimp only
  split
  · exact Dialogue.holds_pure ht (by simp)
  split
  · split
    · exact Dialogue.holds_pure ht (by simp)
    refine Dialogue.holds_bind (readBinaryExact_holds _ ht) fun r u hu hr => ?_
    rcases r with _ | cc
    · exact Dialogue.holds_pure hu (by simp)
    · exact hread _ cc u hu (hr cc rfl)
  · exact hread _ cc t ht (hr cc rfl)

/-- The capability container of the snapshot was read in the dialogue. -/
theorem readNdefFile_holds (hs : Still s₀ s) :
    readNdefFile.Holds (Answers ResponseAcknowledges) (Still s₀)
      (fun r t => ∀ tag, r = some tag → ReadsCc id t.history tag.info) s := by
  refine Dialogue.holds_bind ((selectNdefApp_readsOnly _).still hs) fun ok t ht _ => ?_
  split
  · exact Dialogue.holds_pure ht (by simp)
  refine Dialogue.holds_bind ((selectFile_readsOnly _ _).still ht) fun ok t ht _ => ?_
  split
  · exact Dialogue.holds_pure ht (by simp)
  refine Dialogue.holds_bind (readCc_holds ht) fun r t ht hr => ?_
  rcases r with _ | cc
  · exact Dialogue.holds_pure ht (by simp)
  dsimp only
  split
  · exact Dialogue.holds_pure ht (by simp)
  rename_i info hinfo
  have hcc := hr cc rfl info hinfo
  split
  · exact Dialogue.holds_pure ht (by simp)
  split
  · exact Dialogue.holds_pure ht (by simp)
  refine Dialogue.holds_bind ((selectFile_readsOnly _ _).readsCc ht hcc) fun ok t ht hcc => ?_
  split
  · exact Dialogue.holds_pure ht (by simp)
  split
  · refine Dialogue.holds_bind ((readBinaryExact_readsOnly _ _).readsCc ht hcc) fun r t ht hcc => ?_
    rcases r with _ | lenBytes
    · exact Dialogue.holds_pure ht (by simp)
    dsimp only
    split
    · exact Dialogue.holds_pure ht (by simp)
    split
    · refine Dialogue.holds_bind ((readChunks_readsOnly _ _ _ _ _).readsCc ht hcc) fun r t ht hcc => ?_
      rcases r with _ | message
      · exact Dialogue.holds_pure ht (by simp)
      · refine Dialogue.holds_pure ht fun tag htag => ?_
        cases htag
        exact hcc
    · exact Dialogue.holds_pure ht (by simp)
  · exact Dialogue.holds_pure ht (by simp)

/-- The read-back writes nothing. -/
theorem verifyNdefFile_holds (ndef : Frame) (hs : Still s₀ s) :
    (verifyNdefFile ndef).Holds (Answers ResponseAcknowledges) (Still s₀) (fun _ _ => True) s := by
  refine Dialogue.holds_bind (readNdefFile_holds hs) fun r t ht _ => ?_
  cases r <;> exact Dialogue.holds_pure ht trivial

/-- The length field set, and the read-back. -/
theorem finish_holds {old : File Byte} {ndef : Frame} {info : Type4Info}
    (h : Writing id old ndef info ndef.length s) :
    Dialogue.Holds (Answers ResponseAcknowledges) (TearSafe id old ndef) (fun ok t => ok = true → Complete old ndef t)
      (do if ← updateBinary 0 (nlenBytes ndef.length) then verifyNdefFile ndef else return false) s := by
  refine Dialogue.holds_bind (set_holds updateBinary_sends h) fun ok t ht hok => ?_
  split
  · rename_i htrue
    refine (verifyNdefFile_holds ndef (Still.refl t)).mono (fun _ hu => ht.still hu) fun _ u hu _ _ => ?_
    rw [Complete, hu.file]
    exact hok htrue
  · exact Dialogue.holds_pure ht (by simp)

/-- In the container that was read in front of the first UPDATE BINARY, MLc is such that the last chunk of the message
starts below 8000h. -/
def LowerHalf (ndef : Frame) (history : Exchanges) : Prop :=
  ∀ info, containerIn (history.takeWhile fun x => !isUpdate x.1) = some info →
    lastChunk (min info.mlc updateBinaryDataMax) ndef < 0x8000

theorem takeWhile_front {front history : Exchanges} {x : Frame × Option Frame}
    (hfront : ∀ y ∈ front, isUpdate y.1 = false)
    (hx : isUpdate x.1 = true) (h : front ++ [x] <+: history) :
    history.takeWhile (fun x => !isUpdate x.1) = front := by
  obtain ⟨more, rfl⟩ := h
  rw [List.append_assoc, List.singleton_append, List.takeWhile_append_of_pos fun y hy => by rw [hfront y hy]; rfl,
    List.takeWhile_cons_of_neg (by simp [hx]), List.append_nil]

/-- The container that the host writes by is the one that the dialogue shows. -/
theorem readNdefFile_shows (old : File Byte) :
    readNdefFile.Holds (Answers ResponseAcknowledges) (fun _ => True)
      (fun r t => ∀ tag, r = some tag → containerIn t.history = some tag.info) (⟨old, []⟩ : Card (Option Frame)) :=
  @Dialogue.Holds.through _ _ _ _ _ _ _ (Card (Option Frame)) Card.history _ _ ⟨old, []⟩ readNdefFile_container
    fun _ _ _ _ hstep => hstep.1

/-- The first UPDATE BINARY settles the condition: where it fails, nothing more is to be shown. -/
theorem holds_of_upper {α : Type} {apdu ndef : Frame} {next : Option Frame → Dialogue Frame (Option Frame) α}
    {keeps : Card (Option Frame) → Prop} {post : α → Card (Option Frame) → Prop} {info : Type4Info}
    (hreads : ∀ x ∈ s.history, isUpdate x.1 = false) (hcontainer : containerIn s.history = some info)
    (hupper : ¬ lastChunk (min info.mlc updateBinaryDataMax) ndef < 0x8000) (hupdate : isUpdate apdu = true)
    (hs : keeps s) :
    (Dialogue.ask apdu next).Holds (Answers ResponseAcknowledges) (fun t => LowerHalf ndef t.history → keeps t)
      (fun r t => LowerHalf ndef t.history → post r t) s := by
  have hnot : ∀ answer (t : Card (Option Frame)), s.history ++ [(apdu, answer)] <+: t.history →
      ¬ LowerHalf ndef t.history := by
    intro answer t hfront hlower
    refine hupper (hlower info ?_)
    rw [takeWhile_front hreads hupdate hfront]
    exact hcontainer
  refine Dialogue.holds_ask (fun _ => hs) fun answer t hstep => ?_
  have hbehind : (next answer).Holds (Answers ResponseAcknowledges)
      (fun t => s.history ++ [(apdu, answer)] <+: t.history) (fun _ _ => True) t := by
    refine Dialogue.Asks.holds (Dialogue.asks_of_forall (fun _ => trivial) (next answer) :
      (next answer).Asks fun _ => True) (fun u _ _ v _ hstep hu => ?_) (hstep.1 ▸ List.prefix_refl _)
    rw [hstep.1]
    exact hu.trans (List.prefix_append _ _)
  exact hbehind.mono (fun u hu hlower => absurd hlower (hnot answer u hu)) fun _ u hu _ hlower =>
    absurd hlower (hnot answer u hu)

/-- What `WriteType4NdefFile` sends behind its checks. -/
def hostWrite (ndef : Frame) (hlen : ndef.length ≤ 65534) (max : ChunkMax) : Dialogue Frame (Option Frame) Bool := do
  if ← updateBinary 0 (nlenBytes 0) then
    writeChunks 16 (Nat.le_add_right 8 8) updateBinary ⟨ndef, hlen⟩ max
      (do if ← updateBinary 0 (nlenBytes ndef.length) then verifyNdefFile ndef else return false) 0
  else return false

/-- What the host writes, where the last chunk starts below 8000h. -/
theorem hostWrite_holds {old : File Byte} {ndef : Frame} {info : Type4Info} (hlen : ndef.length ≤ 65534)
    (hmlc : nlenLen ≤ info.mlc) (hlower : lastChunk (min info.mlc updateBinaryDataMax) ndef < 0x8000)
    (h : Inspected id old info s) :
    (hostWrite ndef hlen (.ofMlc info.mlc hmlc)).Holds (Answers ResponseAcknowledges) (TearSafe id old ndef)
      (fun ok t => ok = true → Complete old ndef t) s := by
  refine Dialogue.holds_bind (clear_holds updateBinary_sends h) fun ok u hu hok => ?_
  split
  · rename_i htrue
    exact writeChunks_holds updateBinary_sends (by decide) ⟨ndef, hlen⟩ rfl rfl hlower
      (fun _ hwriting => finish_holds hwriting) (Nat.zero_le _) (.inl (Nat.dvd_zero _)) (hok htrue)
  · exact Dialogue.holds_pure hu (by simp)

/-- **The host writer.** -/
theorem writeType4NdefFile_holds (old : File Byte) (ndef : Frame) :
    (writeType4NdefFile ndef).Holds (Answers ResponseAcknowledges)
      (fun t => LowerHalf ndef t.history → TearSafe id old ndef t)
      (fun ok t => LowerHalf ndef t.history → ok = true → Complete old ndef t) ⟨old, []⟩ := by
  have hsafe : TearSafe id old ndef ⟨old, []⟩ := tearSafe_idle ndef rfl
  have hread : readNdefFile.Holds (Answers ResponseAcknowledges) (TearSafe id old ndef)
      (fun r t => Still ⟨old, []⟩ t ∧ ∀ tag, r = some tag →
        ReadsCc id t.history tag.info ∧ containerIn t.history = some tag.info) ⟨old, []⟩ :=
    ((readNdefFile_holds (Still.refl _)).and (readNdefFile_shows old)).mono (fun _ ht => hsafe.still ht.1)
      fun _ _ ht hr => ⟨ht.1, fun tag htag => ⟨hr.1 tag htag, hr.2 tag htag⟩⟩
  refine Dialogue.holds_bind (hread.mono (fun _ ht _ => ht) fun _ _ ht hr => And.intro ht hr) ?_
  rintro r t - ⟨ht, hstill, hr⟩
  rcases r with _ | tag
  · exact Dialogue.holds_pure (fun _ => ht) (by simp)
  obtain ⟨hcc, hcontainer⟩ := hr tag rfl
  dsimp only
  split
  · rename_i hmlc
    split
    · exact Dialogue.holds_pure (fun _ => ht) (by simp)
    split
    · exact Dialogue.holds_pure (fun _ => ht) (by simp)
    split
    · rename_i hlen
      by_cases hlower : lastChunk (min tag.info.mlc updateBinaryDataMax) ndef < 0x8000
      · have hinspected : Inspected id old tag.info t := ⟨hstill.file, hstill.updates, hcc, hmlc⟩
        exact (hostWrite_holds hlen hmlc hlower hinspected).mono (fun _ h _ => h) fun _ _ _ h _ => h
      · obtain ⟨more, hhistory, hmore⟩ := hstill.history
        exact holds_of_upper (by rw [hhistory]; exact hmore) hcontainer hlower
          (show isUpdate (updateBinaryApdu 0 (nlenBytes 0)) = true from rfl) ht
    · exact Dialogue.holds_pure (fun _ => ht) (by simp)
  · exact Dialogue.holds_pure (fun _ => ht) (by simp)

end Host

/-! ### Both writers -/

/-- **Tear-safe Type 4 write.** Wherever the write of a message is cut off, the NDEF file is as it was, its length
is cleared, or it is complete; the chunks tile the message and none is longer than MLc and 240 bytes; and a writer
that reports success leaves the length field and the message at the start of the file. The messages of the firmware are
short enough for that; the host's are where the last chunk starts below 8000h. -/
theorem type4_write_tear_safe (ndef : Frame) (old : File Byte) :
    (∀ (hcap : ndef.length ≤ writerNdefMaxBytes) (left : Dialogue Frame (List Frame) Bool) (t : Card (List Frame)),
      Dialogue.Reaches (Answers CardAcknowledges) (writerTagWriteType4Impl ndef hcap) ⟨old, []⟩ left t →
        TearSafe isoDepResponse old ndef t ∧ (left = .done true → Complete old ndef t)) ∧
    (∀ (left : Dialogue Frame (Option Frame) Bool) (t : Card (Option Frame)),
      Dialogue.Reaches (Answers ResponseAcknowledges) (writeType4NdefFile ndef) ⟨old, []⟩ left t →
        LowerHalf ndef t.history → TearSafe id old ndef t ∧ (left = .done true → Complete old ndef t)) := by
  refine ⟨fun hcap left t hreach => ?_, fun left t hreach hlower => ?_⟩
  · obtain ⟨hsafe, hend⟩ := (writerTagWriteType4Impl_holds ndef hcap rfl).reaches hreach
    exact ⟨hsafe, fun hdone => hend true hdone rfl⟩
  · obtain ⟨hsafe, hend⟩ := (writeType4NdefFile_holds old ndef).reaches hreach
    exact ⟨hsafe hlower, fun hdone => hend true hdone hlower rfl⟩

/-! ### A card that writes -/

section Card

variable {Ans : Type} {acknowledges : Ans → Prop}

/-- The card performs every UPDATE BINARY of the selected file; one for the file of a short EF identifier goes to
another file. -/
def Card.after (s : Card Ans) (apdu : Frame) (answer : Ans) : Card Ans :=
  ⟨(updateOf apdu).elim s.file (patch s.file), s.history ++ [(apdu, answer)]⟩

theorem answers_after (s : Card Ans) (apdu : Frame) (answer : Ans) :
    Answers acknowledges s apdu answer (s.after apdu answer) := by
  refine ⟨rfl, ?_⟩
  rw [Card.after]
  cases updateOf apdu with
  | none => exact fun _ => rfl
  | some u => exact Or.inl rfl

theorem Card.after_file {apdu : Frame} {u : Update Byte} (h : updateOf apdu = some u) (s : Card Ans) (answer : Ans) :
    (s.after apdu answer).file = patch s.file u := by
  rw [Card.after, h]
  rfl

theorem Card.after_file_none {apdu : Frame} (h : updateOf apdu = none) (s : Card Ans) (answer : Ans) :
    (s.after apdu answer).file = s.file := by
  rw [Card.after, h]
  rfl

/-- One command. -/
theorem reaches_after {α : Type} {apdu : Frame} {next : Ans → Dialogue Frame Ans α} {left : Dialogue Frame Ans α}
    {s t : Card Ans} (answer : Ans)
    (h : Dialogue.Reaches (Answers acknowledges) (next answer) (s.after apdu answer) left t) :
    Dialogue.Reaches (Answers acknowledges) (.ask apdu next) s left t :=
  .ask answer (answers_after s apdu answer) h

/-- The write loop comes to its end where every chunk is acknowledged. -/
theorem writeChunks_reaches {bits : Nat} (hbits : 8 ≤ bits) {update : Nat → Frame → Dialogue Frame Ans Bool}
    {message : Message} {max : ChunkMax} {finish : Dialogue Frame Ans Bool} {keeps : Card Ans → Prop}
    (hupdate : ∀ j s, max.bytes * j < message.bytes.length → keeps s → ∃ t, keeps t ∧
      Dialogue.Reaches (Answers acknowledges)
        (update (nlenLen + max.bytes * j) ((message.bytes.drop (max.bytes * j)).take
        (min (message.bytes.length - max.bytes * j) max.bytes))) s (.done true) t)
    {k : Nat} (hk : k ≤ message.bytes.length) (haligned : max.bytes ∣ k ∨ k = message.bytes.length) {s : Card Ans}
    (hs : keeps s) :
    ∃ t, keeps t ∧
      Dialogue.Reaches (Answers acknowledges) (writeChunks bits hbits update message max finish k) s finish t := by
  induction hleft : message.bytes.length - k using Nat.strong_induction_on generalizing k s with
  | _ left ih =>
      have hlen := message.length_le
      have hpos := max.pos
      rw [writeChunks]
      split
      · rename_i hlt
        obtain ⟨j, rfl⟩ : max.bytes ∣ k := haligned.resolve_right (Nat.ne_of_lt hlt)
        rw [chunkLen_eq hbits max (by omega), u16, Nat.mod_eq_of_lt (show nlenLen + max.bytes * j < 0x10000 by
          rw [nlenLen]; omega), u16, Nat.mod_eq_of_lt (by omega)]
        obtain ⟨t, ht, hsent⟩ := hupdate j s hlt hs
        obtain ⟨u, hu, hrest⟩ := ih _ (by omega) (by omega) (chunk_aligned hlt) ht rfl
        exact ⟨u, hu, hsent.bind hrest⟩
      · exact ⟨s, hs, .here _ _⟩

end Card

/-- A capability container with an MLe of 255 bytes, an MLc of 6 and a file of FFFEh bytes. -/
def ccFile : Frame := [0x00, 0x0F, 0x20, 0x00, 0xFF, 0x00, 0x06, 0x04, 0x06, 0xE1, 0x04, 0xFF, 0xFE, 0x00, 0x00]

def ccInfo : Type4Info := ⟨255, 6, (0xE1, 0x04), 0xFFFE, 0x00, 0x00⟩

/-- The host's commands in front of a message: SELECT of the application and the files, the container and the length. -/
def readCommands (nlen : Frame) : Exchanges :=
  [(selectAidApdu ndefAppAid p2SelectFirst true, some [0x90, 0x00]),
    ([claIso, insSelect, p1SelectByFileId, p2SelectNoFci, 2, ccFileIdHi, ccFileIdLo, 0x00], some [0x90, 0x00]),
    (readBinaryApdu 0 ccFileLen, some (ccFile ++ [0x90, 0x00])),
    ([claIso, insSelect, p1SelectByFileId, p2SelectNoFci, 2, 0xE1, 0x04, 0x00], some [0x90, 0x00]),
    (readBinaryApdu 0 nlenLen, some (nlen ++ [0x90, 0x00]))]

/-- The host has read a file without a message. -/
theorem readNdefFile_reaches (old : File Byte) :
    Dialogue.Reaches (Answers ResponseAcknowledges) readNdefFile ⟨old, []⟩ (.done (some ⟨ccFile, ccInfo, 0xFFFC, []⟩))
      ⟨old, readCommands [0x00, 0x00]⟩ := by
  refine reaches_after (some [0x90, 0x00]) (reaches_after (some [0x90, 0x00]) (reaches_after
    (some (ccFile ++ [0x90, 0x00]))
      (reaches_after (some [0x90, 0x00]) (reaches_after (some [0x00, 0x00, 0x90, 0x00]) ?_))))
  change Dialogue.Reaches _ (readChunks 0 254 (by decide) (by decide) (by decide) 0 [] >>= _) _ _ _
  rw [readChunks, if_neg (by decide)]
  exact .here _ _

theorem updateBinary_reaches {offset : Nat} {data : Frame} (hpos : 0 < data.length) (hlen : data.length ≤ 255)
    (s : Card (Option Frame)) :
    Dialogue.Reaches (Answers ResponseAcknowledges) (updateBinary offset data) s (.done true)
      (s.after (updateBinaryApdu offset data) (some [0x90, 0x00])) := by
  rw [updateBinary, if_neg (by rintro (rfl | h); exacts [absurd hpos (by decide), by omega])]
  exact reaches_after (some [0x90, 0x00]) (.here _ _)

/-- The host writes a message of any length behind its checks, as far as the read-back. -/
theorem writeType4NdefFile_reaches {ndef : Frame} (hlen : ndef.length ≤ 0xFFFC) (old : File Byte)
    {keeps : Card (Option Frame) → Prop}
    (hstart : keeps ((⟨old, readCommands [0x00, 0x00]⟩ : Card (Option Frame)).after (updateBinaryApdu 0 (nlenBytes 0))
      (some [0x90, 0x00])))
    (hchunk : ∀ j s, 6 * j < ndef.length → keeps s → keeps (s.after (updateBinaryApdu (nlenLen + 6 * j)
      ((ndef.drop (6 * j)).take (min (ndef.length - 6 * j) 6))) (some [0x90, 0x00]))) :
    ∃ t, keeps t ∧ Dialogue.Reaches (Answers ResponseAcknowledges) (writeType4NdefFile ndef) ⟨old, []⟩
      (verifyNdefFile ndef)
      (t.after (updateBinaryApdu 0 (nlenBytes ndef.length)) (some [0x90, 0x00])) := by
  have hlen' : ndef.length ≤ 65534 := Nat.le_trans hlen (by decide)
  have hwrite : ∀ j s, 6 * j < ndef.length → keeps s → ∃ t, keeps t ∧ Dialogue.Reaches (Answers ResponseAcknowledges)
      (updateBinary (nlenLen + 6 * j) ((ndef.drop (6 * j)).take (min (ndef.length - 6 * j) 6))) s (.done true) t := by
    intro j s hj hs
    have hdata : ((ndef.drop (6 * j)).take (min (ndef.length - 6 * j) 6)).length = min (ndef.length - 6 * j) 6 := by
      rw [List.length_take, List.length_drop]
      omega
    exact ⟨_, hchunk j s hj hs, updateBinary_reaches (by omega) (by omega) s⟩
  obtain ⟨t, ht, hloop⟩ := @writeChunks_reaches _ ResponseAcknowledges 16 (by decide) updateBinary ⟨ndef, hlen'⟩
    (.ofMlc 6 (by decide)) (do if ← updateBinary 0 (nlenBytes ndef.length) then verifyNdefFile ndef else return false)
    keeps hwrite 0 (Nat.zero_le _) (.inl (Nat.dvd_zero _)) _ hstart
  have hset : Dialogue.Reaches (Answers ResponseAcknowledges) (updateBinary 0 (nlenBytes ndef.length)) t (.done true)
      (t.after (updateBinaryApdu 0 (nlenBytes ndef.length)) (some [0x90, 0x00])) :=
    updateBinary_reaches (by rw [nlenBytes_length]; decide) (by rw [nlenBytes_length]; decide) t
  refine ⟨t, ht, (readNdefFile_reaches old).bind ?_⟩
  dsimp only
  rw [dif_pos (show nlenLen ≤ ccInfo.mlc by decide), if_neg (by decide), if_neg (Nat.not_lt.mpr hlen), dif_pos hlen']
  exact (updateBinary_reaches (by decide) (by decide) _).bind (hloop.trans (hset.bind (.here _ _)))

/-- A text record of one letter, two chunks of six bytes at most. -/
def shortText : Frame := [0xD1, 0x01, 0x04, 0x54, 0x02, 0x65, 0x6E, 0x41]

def success : List Frame := [[0x0A, 0x00, 0x90, 0x00, 0x12, 0x34]]

/-- The firmware writes it. -/
theorem writerTagWriteType4Impl_shortText (old : File Byte) :
    ∃ t, Dialogue.Reaches (Answers CardAcknowledges) (writerTagWriteType4Impl shortText (by decide)) ⟨old, []⟩
      (.done true) t := by
  have hloop : ∀ s : Card (List Frame), Dialogue.Reaches (Answers CardAcknowledges)
      (writeChunks 8 (Nat.le_refl 8) writerUpdate ⟨shortText, by decide⟩ (.ofMlc 6 (by decide))
        (writerUpdate 0 (nlenBytes 8)) 0) s (writerUpdate 0 (nlenBytes 8))
      ((s.after (updateBinaryApdu 2 (shortText.take 6)) success).after
        (updateBinaryApdu 8 (shortText.drop 6)) success) := by
    intro s
    rw [writeChunks, if_pos (by decide)]
    refine reaches_after success ?_
    change Dialogue.Reaches _ (writeChunks 8 (Nat.le_refl 8) writerUpdate ⟨shortText, by decide⟩ (.ofMlc 6 (by decide))
      (writerUpdate 0 (nlenBytes 8)) 6) _ _ _
    rw [writeChunks, if_pos (by decide)]
    refine reaches_after success ?_
    change Dialogue.Reaches _ (writeChunks 8 (Nat.le_refl 8) writerUpdate ⟨shortText, by decide⟩ (.ofMlc 6 (by decide))
      (writerUpdate 0 (nlenBytes 8)) 8) _ _ _
    rw [writeChunks, if_neg (by decide)]
    exact .here _ _
  exact ⟨_, reaches_after [[0x05, 0x78, 0x80, 0x70, 0x02]] (reaches_after success (reaches_after success (reaches_after
    [[0x0A, 0x00] ++ ccFile ++ [0x90, 0x00, 0x12, 0x34]] (reaches_after success (reaches_after success ((hloop _).trans
      (reaches_after success (.here _ _))))))))⟩

/-- The host reads it back. -/
theorem readNdefFile_shortText (s : Card (Option Frame)) :
    ∃ t, s.history <+: t.history ∧ Dialogue.Reaches (Answers ResponseAcknowledges) readNdefFile s
      (.done (some ⟨ccFile, ccInfo, 0xFFFC, shortText⟩)) t := by
  have hloop : ∀ s, Dialogue.Reaches (Answers ResponseAcknowledges)
      (readChunks 8 254 (by decide) (by decide) (by decide) 0 []) s (.done (some shortText))
      (s.after (readBinaryApdu 2 8) (some (shortText ++ [0x90, 0x00]))) := by
    intro s
    rw [readChunks, if_pos (by decide)]
    refine reaches_after (some (shortText ++ [0x90, 0x00])) ?_
    change Dialogue.Reaches _ (readChunks 8 254 _ _ _ 8 shortText) _ _ _
    rw [readChunks, if_neg (by decide)]
    exact .here _ _
  refine ⟨_, ?_, reaches_after (some [0x90, 0x00]) (reaches_after (some [0x90, 0x00])
    (reaches_after (some (ccFile ++ [0x90, 0x00])) (reaches_after (some [0x90, 0x00])
      (reaches_after (some [0x00, 0x08, 0x90, 0x00]) ((hloop _).bind (.here _ _))))))⟩
  simp [Card.after]

theorem containerIn_readCommands : containerIn (readCommands [0x00, 0x00]) = some ccInfo := by decide

theorem type4_write_tear_safe_shortText :
    (∃ t, Dialogue.Reaches (Answers CardAcknowledges) (writerTagWriteType4Impl shortText (by decide))
        ⟨fun _ => 0xFF, []⟩ (.done true) t ∧ Complete (fun _ => 0xFF) shortText t) ∧
      ∃ t, Dialogue.Reaches (Answers ResponseAcknowledges) (writeType4NdefFile shortText) ⟨fun _ => 0x00, []⟩
        (.done true) t ∧ Complete (fun _ => 0x00) shortText t := by
  obtain ⟨t, ht⟩ := writerTagWriteType4Impl_shortText fun _ => 0xFF
  obtain ⟨u, hu, hwrite⟩ := @writeType4NdefFile_reaches shortText (by decide) (fun _ => 0x00)
    (fun s => readCommands [0x00, 0x00] ++ [(updateBinaryApdu 0 (nlenBytes 0), some [0x90, 0x00])] <+: s.history)
    (List.prefix_refl _) fun _ _ _ hs => hs.trans (List.prefix_append _ _)
  obtain ⟨v, hv, hread⟩ := readNdefFile_shortText
    (u.after (updateBinaryApdu 0 (nlenBytes shortText.length)) (some [0x90, 0x00]))
  have hlower : LowerHalf shortText v.history := by
    intro info hinfo
    rw [takeWhile_front (by decide) rfl ((hu.trans (List.prefix_append _ _)).trans hv),
      containerIn_readCommands] at hinfo
    obtain rfl := Option.some.inj hinfo
    decide
  have hreach := hwrite.trans (hread.bind (.here (Dialogue.done true) v))
  exact ⟨⟨t, ht, ((type4_write_tear_safe shortText _).1 (by decide) _ _ ht).2 rfl⟩,
    v, hreach, ((type4_write_tear_safe shortText _).2 _ _ hreach hlower).2 rfl⟩

/-- A message whose last byte is a chunk of its own, at offset 8000h. -/
def longMessage : Frame := List.replicate 0x7FFF 0x01

/-- The host clears the length, sends every chunk and sets the length; the last byte has gone to another file. -/
theorem longMessage_torn :
    ∃ t, Dialogue.Reaches (Answers ResponseAcknowledges) (writeType4NdefFile longMessage) ⟨fun _ => 0x00, []⟩
      (verifyNdefFile longMessage) t ∧ ¬ TearSafe id (fun _ => 0x00) longMessage t := by
  have hlength : longMessage.length = 0x7FFF := List.length_replicate ..
  have hkept : ∀ (s : Card (Option Frame)) offset data, offset + data.length ≤ 0x8000 → 0 < data.length →
      data.length < 256 → s.file 0x8000 = 0x00 →
      (s.after (updateBinaryApdu offset data) (some [0x90, 0x00])).file 0x8000 = 0x00 := by
    intro s offset data hend hpos hlen hs
    rw [Card.after_file (updateOf_updateBinaryApdu (by omega) hlen), FileUpdate.patch_outside _ _ (Or.inr hend), hs]
  obtain ⟨t, ht, hwrite⟩ := @writeType4NdefFile_reaches longMessage (by rw [hlength]; decide) (fun _ => 0x00)
    (fun s => s.file 0x8000 = 0x00) (hkept _ 0 (nlenBytes 0) (by decide) (by decide) (by decide) rfl) (by
      intro j s hj hs
      rw [hlength] at hj ⊢
      have hdata : ((longMessage.drop (6 * j)).take (min (0x7FFF - 6 * j) 6)).length = min (0x7FFF - 6 * j) 6 := by
        rw [List.length_take, List.length_drop, hlength]
        omega
      rcases Nat.lt_or_ge (nlenLen + 6 * j) 0x8000 with hlow | hhigh
      · rw [nlenLen] at hlow
        exact hkept _ _ _ (by rw [hdata, nlenLen]; omega) (by omega) (by omega) hs
      · rw [Card.after_file_none (updateOf_upper hhigh (by rw [nlenLen]; omega) _), hs])
  refine ⟨_, hwrite, fun hsafe => ?_⟩
  rw [hlength] at hsafe
  have hset := Card.after_file (updateOf_updateBinaryApdu (show 0 < 0x8000 by decide)
    (show (nlenBytes 0x7FFF).length < 256 by decide)) t (some [0x90, 0x00])
  have hfirst : patch t.file ⟨0, nlenBytes 0x7FFF⟩ 0 = 0x7F := rfl
  rcases hsafe.1 with hold | hblank | hcomplete
  · rw [hset] at hold
    exact absurd (hfirst.symm.trans (congrFun hold 0)) (by decide)
  · have hzero := hblank 0 (by decide)
    rw [hset] at hzero
    exact absurd (hfirst.symm.trans hzero) (by decide)
  · have hlast := hkept t 0 (nlenBytes 0x7FFF) (by decide) (by decide) (by decide) ht
    have hmessage : Has _ (0 + 2) longMessage := (FileUpdate.has_append.mp hcomplete).2
    have hbyte := hmessage 0x7FFE (by rw [hlength]; decide)
    rw [show 0 + 2 + 0x7FFE = 0x8000 by decide, hlast] at hbyte
    exact absurd (hbyte.trans (List.getElem_replicate ..)) (by decide)

end NeroReader.Type4
