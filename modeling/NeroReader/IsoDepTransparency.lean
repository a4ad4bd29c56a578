import Mathlib.Data.List.Perm.Basic
import NeroReader.IsoDepExchange

/-!
What a response becomes between the air and the host. The front end leaves the CRC of every frame
in the FIFO; the I-block layer takes it off chained frames by value, off the last frame not at all,
and the exchange looks for it behind the reassembled response. A card that answers by the book is a
list of blocks, each with its header, its INF field and its CRC.
-/

namespace NeroReader.IsoDep

open Driver

/-! ### A card's answer -/

/-- One I-block of a card's answer: the optional header bytes and the INF field. -/
structure CardBlock where
  cid : Option Byte
  nad : Option Byte
  inf : Frame

namespace CardBlock

variable (b : CardBlock)

def header (chained : Bool) (block : Byte) : Frame :=
  iBlockTxPcb b.cid.isSome b.nad.isSome chained block :: (b.cid.toList ++ b.nad.toList)

def body (chained : Bool) (block : Byte) : Frame := b.header chained block ++ b.inf

/-- The frame as the FIFO holds it. -/
def frame (chained : Bool) (block : Byte) : Frame :=
  b.body chained block ++ crcABytes (b.body chained block)

/-- The reader takes the first INF byte of this frame for a header byte: either for its CID, in a
frame without CID and NAD, or for a NAD, in a frame with CID and without NAD. -/
def SkipsFirst (s : Session) (chained : Bool) (block : Byte) : Prop :=
  s.pcbHasCid = true ∧ b.inf ≠ [] ∧
    ((s.cid ≠ 0 ∧ b.cid = none ∧ b.nad = none ∧ u8At b.inf 0 = s.cid) ∨
      (s.haveTc = true ∧ s.tcByte &&& blockNumMask ≠ 0 ∧ b.cid.isSome = true ∧ b.nad = none ∧
        chained = false ∧ b.inf.length ≤ 96 ∧ u8At b.inf 0 ≤ selectRespLenMax ∧
        infFirstPlausibleSelectResp
          (u8At (b.inf ++ crcABytes (b.body chained block)) 1) = true))

instance (s : Session) (chained : Bool) (block : Byte) : Decidable (b.SkipsFirst s chained block) :=
  inferInstanceAs (Decidable (_ ∧ _))

/-- The INF field as the reader takes it out of the frame. -/
def readInf (s : Session) (chained : Bool) (block : Byte) : Frame :=
  b.inf.drop (if b.SkipsFirst s chained block then 1 else 0)

end CardBlock

/-- The frames of an answer: all but the last chained, the numbers alternating from `first`. -/
def responseFrames (first : Byte) : List CardBlock → List Frame
  | [] => []
  | [b] => [b.frame false first]
  | b :: next :: later => b.frame true first :: responseFrames (first ^^^ blockNumMask) (next :: later)

/-- The INF fields as the reader takes them. -/
def responseRead (s : Session) (first : Byte) : List CardBlock → Frame
  | [] => []
  | [b] => b.readInf s false first
  | b :: next :: later =>
      b.readInf s true first ++ responseRead s (first ^^^ blockNumMask) (next :: later)

/-- The CRC behind the last frame. -/
def responseCrc (first : Byte) : List CardBlock → Frame
  | [] => []
  | [b] => crcABytes (b.body false first)
  | _ :: next :: later => responseCrc (first ^^^ blockNumMask) (next :: later)

/-- A block of the answer whose first INF byte the reader skips. -/
def SkipsInAnswer (s : Session) (first : Byte) : List CardBlock → Prop
  | [] => False
  | [b] => b.SkipsFirst s false first
  | b :: next :: later =>
      b.SkipsFirst s true first ∨ SkipsInAnswer s (first ^^^ blockNumMask) (next :: later)

/-! ### One frame -/

namespace CardBlock

variable (b : CardBlock) (s : Session) (chained : Bool) (block : Byte)

theorem header_length :
    (b.header chained block).length = iBlockTxHdrLen b.cid.isSome b.nad.isSome := by
  cases hc : b.cid <;> cases hn : b.nad <;> simp [header, iBlockTxHdrLen, hc, hn]

theorem frame_eq :
    b.frame chained block = b.header chained block ++ (b.inf ++ crcABytes (b.body chained block)) := by
  rw [frame, body, List.append_assoc]

theorem u8At_frame_zero :
    u8At (b.frame chained block) 0 = iBlockTxPcb b.cid.isSome b.nad.isSome chained block := rfl

theorem frame_length : (b.frame chained block).length =
    iBlockTxHdrLen b.cid.isSome b.nad.isSome + b.inf.length + 2 := by
  simp only [frame_eq, List.length_append, header_length, crcABytes_length]
  omega

theorem u8At_frame (i : Nat) :
    u8At (b.frame chained block) (iBlockTxHdrLen b.cid.isSome b.nad.isSome + i) =
      u8At (b.inf ++ crcABytes (b.body chained block)) i := by
  rw [frame_eq, ← b.header_length chained block, u8At_append_right _ _ (Nat.le_add_right _ _),
    Nat.add_sub_cancel_left]

/-- The bits of the frame's PCB. -/
theorem pcb_bits :
    (u8At (b.frame chained block) 0 &&& pcbCidBit = 0 ↔ b.cid = none) ∧
      (u8At (b.frame chained block) 0 &&& pcbNadBit = 0 ↔ b.nad = none) ∧
      (u8At (b.frame chained block) 0 &&& pcbChainBit = 0 ↔ chained = false) := by
  obtain ⟨-, hchain, -, -, hcid, hnad, -⟩ :=
    iBlockTxPcb_fields b.cid.isSome b.nad.isSome chained block
  have hbit : ∀ (p mask : Byte) (flag : Bool), (p &&& mask != 0) = flag →
      (p &&& mask = 0 ↔ flag = false) := by
    rintro p mask flag rfl
    simp
  rw [u8At_frame_zero]
  exact ⟨(hbit _ _ _ hcid).trans (by simp), (hbit _ _ _ hnad).trans (by simp), hbit _ _ _ hchain⟩

/-- Where the reader starts reading: behind the header, or one byte later. -/
theorem pickInfOffset_frame : s.pickInfOffset (b.frame chained block) =
    iBlockTxHdrLen b.cid.isSome b.nad.isSome + if b.SkipsFirst s chained block then 1 else 0 := by
  obtain ⟨hI, -, -, hskip, -⟩ := iBlockTxPcb_fields b.cid.isSome b.nad.isSome chained block
  obtain ⟨hcid, hnad, hchain⟩ := b.pcb_bits chained block
  have hlen := b.frame_length chained block
  have h0 := b.u8At_frame chained block 0
  have h1 := b.u8At_frame chained block 1
  have hne : b.inf ≠ [] ↔ 1 ≤ b.inf.length := List.length_pos_iff.symm
  have hfirst : b.inf ≠ [] → u8At (b.inf ++ crcABytes (b.body chained block)) 0 = u8At b.inf 0 :=
    fun h => u8At_append_left _ _ (hne.mp h)
  have hone : b.cid = none → b.nad = none → iBlockTxHdrLen b.cid.isSome b.nad.isSome = 1 := by
    intro hc hn
    simp [hc, hn, iBlockTxHdrLen]
  have htwo : b.cid = none → b.nad ≠ none → iBlockTxHdrLen b.cid.isSome b.nad.isSome = 2 := by
    intro hc hn
    simp [hc, Option.isSome_iff_ne_none.mpr hn, iBlockTxHdrLen]
  have hcidOnly : b.cid ≠ none → b.nad = none → iBlockTxHdrLen b.cid.isSome b.nad.isSome = 2 := by
    intro hc hn
    simp [hn, Option.isSome_iff_ne_none.mpr hc, iBlockTxHdrLen]
  rw [← b.u8At_frame_zero chained block, beq_iff_eq] at hI
  rw [← b.u8At_frame_zero chained block] at hskip
  unfold Session.pickInfOffset pickInfOffset
  dsimp only
  rw [if_neg (by omega), hskip]
  by_cases hS : b.SkipsFirst s chained block
  · rw [if_pos hS]
    obtain ⟨hhas, hinf, ⟨hcid0, hc, hn, heq⟩ | ⟨htc, hbit, hc, hn, hlast, hle, hfa, hfb⟩⟩ := hS
    · have hhdr := hone hc hn
      have h1inf := hne.mp hinf
      rw [hhdr] at h0
      rw [if_neg (by simp [hI, hhas]),
        if_pos ⟨hcid0, by rw [hlen, hhdr, minTrimLen]; omega, hcid.mpr hc,
          by rw [← heq, ← hfirst hinf, ← h0]⟩, hhdr]
    · have hc' := Option.isSome_iff_ne_none.mp hc
      have hhdr := hcidOnly hc' hn
      have h1inf := hne.mp hinf
      have hA : ¬(u8At (b.frame chained block) 0 &&& pcbCidBit = 0) := fun h => hc' (hcid.mp h)
      rw [hhdr] at h0 h1 hlen
      rw [if_neg (by simp [hI, hhas]), if_neg (fun h => hA h.2.2.1), hhdr,
        if_pos ⟨htc, hbit, hA, hnad.mpr hn, hchain.mpr hlast, Nat.le_refl _, by omega,
          by rw [hlen, selectRespProbeMaxLen]; omega, by rw [h0, hfirst hinf]; exact hfa,
          by rw [h1]; exact hfb⟩]
  · rw [if_neg hS, Nat.add_zero]
    split_ifs with hplain hA hB
    · rfl
    · -- a NAD stands in the place of the first INF byte
      have hc := hcid.mp hA.2.2.1
      refine (htwo hc fun hn => hS ?_).symm
      have hhdr := hone hc hn
      have hinf : b.inf ≠ [] := by
        rw [hne]
        have := hA.2.1
        rw [hlen, hhdr, minTrimLen] at this
        omega
      refine ⟨by simpa using (not_or.mp hplain).2, hinf, Or.inl ⟨hA.1, hc, hn, ?_⟩⟩
      rw [← hfirst hinf, ← h0, hhdr]
      exact hA.2.2.2
    · obtain ⟨htc, hbit, hcidbit, hnadbit, hchainbit, -, hmin, hmax, hfa, hfb⟩ := hB
      have hc : b.cid ≠ none := fun h => hcidbit (hcid.mpr h)
      have hn := hnad.mp hnadbit
      have hhdr := hcidOnly hc hn
      rw [hhdr] at hlen h0 h1 hmin hfa hfb
      have hinf : b.inf ≠ [] := by
        rw [hne]
        omega
      rw [selectRespProbeMaxLen] at hmax
      refine absurd ⟨by simpa using (not_or.mp hplain).2, hinf, Or.inr ⟨htc, hbit,
        Option.isSome_iff_ne_none.mpr hc, hn, hchain.mp hchainbit, by omega, ?_, ?_⟩⟩ hS
      · rw [← hfirst hinf, ← h0]
        exact hfa
      · rw [← h1]
        exact hfb
    · rfl

/-- What the reader takes out of the frame: the INF field it reads, and behind the last one the
CRC. -/
theorem iBlockInf_frame :
    iBlockInf (b.frame chained block) (s.pickInfOffset (b.frame chained block))
      (u8At (b.frame chained block) 0) =
    some (b.readInf s chained block ++ if chained then [] else crcABytes (b.body chained block)) := by
  have hbody : b.body chained block ≠ [] := by simp [body, header]
  have hcrc : hasCrcASuffix (b.frame chained block) = true := hasCrcASuffix_append hbody
  have hskip : (if b.SkipsFirst s chained block then 1 else 0) ≤ b.inf.length := by
    split
    · rename_i h
      exact List.length_pos_iff.mpr h.2.1
    · exact Nat.zero_le _
  have hlen := b.frame_length chained block
  have htail : chainedCrcTailLen (u8At (b.frame chained block) 0) (b.frame chained block) =
      if chained then 2 else 0 := by
    have hchain := (b.pcb_bits chained block).2.2
    unfold chainedCrcTailLen
    cases chained
    · rw [if_pos (Or.inl (hchain.mpr rfl))]
      rfl
    · rw [if_neg]
      · rfl
      · rintro (h | h)
        · cases hchain.mp h
        · rw [hcrc] at h
          cases h
  rw [b.pickInfOffset_frame s chained block]
  unfold readInf iBlockInf
  generalize (if b.SkipsFirst s chained block then 1 else 0) = k at *
  have hdrop : (b.frame chained block).drop (iBlockTxHdrLen b.cid.isSome b.nad.isSome + k) =
      b.inf.drop k ++ crcABytes (b.body chained block) := by
    rw [b.frame_eq chained block, ← b.header_length chained block, List.drop_length_add_append,
      List.drop_append_of_le_length hskip]
  rw [if_neg (by omega), htail, if_neg (by split <;> omega), hdrop, hlen, Option.some.injEq]
  cases chained
  · simp only [Bool.false_eq_true, if_false]
    apply List.take_of_length_le
    simp only [List.length_append, List.length_drop, crcABytes_length]
    omega
  · simp only [if_true, List.append_nil]
    rw [List.take_append_of_le_length (by rw [List.length_drop]; omega)]
    apply List.take_of_length_le
    rw [List.length_drop]
    omega

end CardBlock

/-! ### One answer -/

namespace Call

variable (c : Call)

/-- The response bytes there is room for. -/
def room : Nat := min c.respCap 0xFFFF

theorem appendInf_eq (resp inf : Frame) :
    appendInf c.respCap resp inf = if resp.length + inf.length ≤ c.room then some (resp ++ inf) else none := by
  unfold appendInf room
  split <;> split <;> first | rfl | omega

/-- One turn of the receive loop over a block of the answer with the number expected. -/
theorem rxFrame_block (b : CardBlock) (chained : Bool) {resp : Frame} {block : Byte} {blockNum : Byte}
    {a : Answer} (hframe : a.frame = b.frame chained block) (hresp : resp.length ≤ c.room) :
    c.rxFrame resp block blockNum a =
      let inf := b.readInf c.session chained block ++
        if chained then [] else crcABytes (b.body chained block)
      if resp.length + inf.length ≤ c.room then
        c.acceptIBlock (u8At a.frame 0) (resp ++ inf) block blockNum
      else fail blockNum .recvInfDropped := by
  obtain ⟨hI, -, hblock, hskip, -, -, hwtx⟩ :=
    iBlockTxPcb_fields b.cid.isSome b.nad.isSome chained block
  have hpcb := b.u8At_frame_zero chained block
  have hlen := b.frame_length chained block
  rw [← hpcb] at hI hblock hskip hwtx
  have hnum : rxIBlockNumberMatches (b.frame chained block) block = true := by
    unfold rxIBlockNumberMatches
    dsimp only
    rw [if_neg (by omega), if_neg (not_not.mpr (beq_iff_eq.mp hI)), if_neg (by rw [hskip]; omega), hblock]
    exact beq_self_eq_true _
  unfold rxFrame
  dsimp only
  rw [hframe, if_neg (by rw [isSWtx, hwtx]; decide), if_pos (beq_iff_eq.mp hI),
    if_neg (by rw [hnum]; decide), b.iBlockInf_frame c.session chained block]
  dsimp only
  rw [appendInf_eq]
  generalize b.readInf c.session chained block ++ _ = inf
  by_cases hfits : resp.length + inf.length ≤ c.room
  · rw [if_pos hfits, if_pos hfits]
  · rw [if_neg hfits, if_neg hfits]
    dsimp only
    rw [if_pos (by omega)]

theorem responseCrc_length (first : Byte) {blocks : List CardBlock} (h : blocks ≠ []) :
    (responseCrc first blocks).length = 2 := by
  induction blocks generalizing first with
  | nil => exact absurd rfl h
  | cons b rest ih =>
      cases rest with
      | nil => rfl
      | cons next later => exact ih _ (by simp)

/-- **The receive loop over a whole answer** collects the INF fields as it reads them and the CRC
of the last frame, when there is room for them. -/
theorem run_responseFrames {blocks : List CardBlock} {first : Byte} {resp : Frame} (blockNum : Byte)
    {a : Answer} {rest : List Answer} (hresp : resp.length ≤ c.room)
    (hframes : (a :: rest).map Answer.frame = responseFrames first blocks) :
    ∃ blockNum', (run c.onAnswer (c.rxFrame resp first blockNum a) rest).final =
      .stop ⟨if resp.length + (responseRead c.session first blocks).length + 2 ≤ c.room then
          .ok (resp ++ responseRead c.session first blocks ++ responseCrc first blocks)
        else .err (some .recvInfDropped), blockNum'⟩ := by
  induction blocks generalizing first resp a rest with
  | nil => simp [responseFrames] at hframes
  | cons b later ih =>
      cases later with
      | nil =>
          simp only [responseFrames, List.map_cons, List.cons.injEq, List.map_eq_nil_iff] at hframes
          obtain ⟨hframe, rfl⟩ := hframes
          have hunchained := (b.pcb_bits false first).2.2.mpr rfl
          rw [c.rxFrame_block b false hframe hresp, hframe]
          simp only [Bool.false_eq_true, if_false, List.length_append, crcABytes_length, responseRead,
            responseCrc, acceptIBlock, hunchained, ne_eq, not_true_eq_false, if_false,
            Nat.add_assoc, List.append_assoc]
          split
          · exact ⟨_, by rw [run_stop]⟩
          · exact ⟨_, by rw [fail, run_stop]⟩
      | cons next later =>
          rw [responseFrames, List.map_cons, List.cons.injEq] at hframes
          obtain ⟨hframe, hrest⟩ := hframes
          have hchained : u8At (b.frame true first) 0 &&& pcbChainBit ≠ 0 := fun h => by
            have := (b.pcb_bits true first).2.2.mp h
            cases this
          rw [c.rxFrame_block b true hframe hresp, hframe]
          simp only [if_true, List.append_nil]
          by_cases hfits : resp.length + (b.readInf c.session true first).length ≤ c.room
          · rw [if_pos hfits, acceptIBlock, if_pos hchained]
            cases rest with
            | nil => cases later <;> simp [responseFrames] at hrest
            | cons a' rest =>
                have ha' : ¬ a'.frame.length < 1 := by
                  have hhead : a'.frame = next.frame (!later.isEmpty) (first ^^^ blockNumMask) := by
                    cases later <;>
                      simp only [responseFrames, List.map_cons, List.cons.injEq] at hrest <;>
                      exact hrest.1
                  rw [hhead, CardBlock.frame_length]
                  omega
                rw [run_send_cons, Outcome.after_final, onAnswer_rx, if_neg ha']
                have hresp' : (resp ++ b.readInf c.session true first).length ≤ c.room := by
                  rw [List.length_append]
                  exact hfits
                obtain ⟨blockNum', hfinal⟩ := ih hresp' hrest
                refine ⟨blockNum', ?_⟩
                rw [hfinal]
                simp only [List.length_append, responseRead, responseCrc, List.append_assoc,
                  Nat.add_assoc]
          · rw [if_neg hfits, fail, run_stop]
            refine ⟨blockNum, ?_⟩
            rw [if_neg]
            simp only [responseRead, List.length_append]
            omega

end Call

/-! ### The bytes the reader skips -/

namespace CardBlock

/-- A block's INF field is the bytes skipped, of small value, and the bytes read. -/
theorem inf_split (b : CardBlock) (s : Session) (chained : Bool) (block : Byte) :
    ∃ skipped, b.inf = skipped ++ b.readInf s chained block ∧ (∀ d ∈ skipped, d ≤ 14) ∧
      (skipped = [] ↔ ¬b.SkipsFirst s chained block) := by
  by_cases hS : b.SkipsFirst s chained block
  · have hS' := hS
    obtain ⟨-, hinf, hwhy⟩ := hS'
    obtain ⟨d, rest, hd⟩ := List.exists_cons_of_ne_nil hinf
    refine ⟨[d], by rw [readInf, if_pos hS, hd]; rfl, ?_, by simp [hS]⟩
    intro d' hd'
    rw [List.mem_singleton.mp hd']
    rw [hd] at hwhy
    simp only [u8At_cons_zero] at hwhy
    rcases hwhy with ⟨-, -, -, rfl⟩ | ⟨-, -, -, -, -, -, hle, -⟩
    · exact s.cid_le
    · exact BitVec.le_trans hle (by decide)
  · exact ⟨[], by rw [readInf, if_neg hS]; rfl, by simp, by simp [hS]⟩

end CardBlock

/-- What an answer carries is, up to order, what the reader skips and what it reads. -/
theorem responseRead_split (s : Session) (first : Byte) (blocks : List CardBlock) :
    ∃ skipped, (blocks.flatMap CardBlock.inf).Perm (skipped ++ responseRead s first blocks) ∧
      (∀ d ∈ skipped, d ≤ 14) ∧ (skipped = [] ↔ ¬SkipsInAnswer s first blocks) ∧
      (skipped = [] → responseRead s first blocks = blocks.flatMap CardBlock.inf) := by
  induction blocks generalizing first with
  | nil => exact ⟨[], List.Perm.refl _, by simp, by simp [SkipsInAnswer], fun _ => rfl⟩
  | cons b later ih =>
      cases later with
      | nil =>
          obtain ⟨skipped, heq, hle, hiff⟩ := b.inf_split s false first
          refine ⟨skipped, ?_, hle, hiff, ?_⟩
          · rw [List.flatMap_singleton, responseRead, ← heq]
          · rintro rfl
            rw [List.flatMap_singleton, responseRead, heq]
            rfl
      | cons next later =>
          obtain ⟨skipped, heq, hle, hiff⟩ := b.inf_split s true first
          obtain ⟨skipped', hperm, hle', hiff', hread'⟩ := ih (first ^^^ blockNumMask)
          refine ⟨skipped ++ skipped', ?_, ?_, ?_, ?_⟩
          · rw [List.flatMap_cons, responseRead, heq, List.append_assoc, List.append_assoc]
            apply List.Perm.append_left
            exact (hperm.append_left _).trans (List.perm_append_comm_assoc _ _ _)
          · intro d hd
            exact (List.mem_append.mp hd).elim (hle d) (hle' d)
          · rw [List.append_eq_nil_iff, hiff, hiff', SkipsInAnswer, not_or]
          · intro hnil
            obtain ⟨rfl, rfl⟩ := List.append_eq_nil_iff.mp hnil
            rw [responseRead, hread' rfl, ← List.nil_append (b.readInf s true first), ← heq]
            rfl

/-! ### The exchange -/

/-- The card answers the command of an exchange with a body and a status word: the command's last
fragment is on the air with the number `first`, and the frames that follow are the blocks of the
answer with their CRCs. Body and status word fit the caller's buffer. -/
structure Answered (x : ApduCall) (answers : List Answer) (first : Byte) (blocks : List CardBlock)
    (body : Frame) (sw1 sw2 : Byte) : Prop where
  single : x.follow = false
  fits : body.length + 2 ≤ x.respCap
  respCap_le : x.respCap ≤ 0xFFFF
  status : apduResponseHasStatusWord [sw1, sw2] = true
  blocks_ne : blocks ≠ []
  carries : blocks.flatMap CardBlock.inf = body ++ [sw1, sw2]
  answers_eq : ∃ before after q w, answers = before ++ after ∧
    (sendIBlock x.command.call before).final = .send q (.tx w) ∧ w.block.chainMore = false ∧
    w.blockNum = first ∧ after.map Answer.frame = responseFrames first blocks

/-- When an answer comes through: no frame's first INF byte looks like a header byte, the buffer
has room for the last CRC as well, the status word outranks that CRC, and the body does not end in
what looks more like a status word than the status word does. -/
structure ComesThrough (x : ApduCall) (first : Byte) (blocks : List CardBlock) (body : Frame)
    (sw1 sw2 : Byte) : Prop where
  offsets : ¬SkipsInAnswer x.session first blocks
  room : body.length + 4 ≤ x.respCap
  crc : Outranks sw1 sw2 (u8At (responseCrc first blocks) 0) (u8At (responseCrc first blocks) 1)
  body : ¬EndOutranks body sw1 sw2

/-- What the caller gets for an answer. -/
theorem Answered.returned_eq {x : ApduCall} {answers : List Answer} {first : Byte}
    {blocks : List CardBlock} {body : Frame} {sw1 sw2 : Byte}
    (h : Answered x answers first blocks body sw1 sw2) :
    returned (sendApduTimeoutEx x answers) =
      some (if (responseRead x.session first blocks).length + 2 ≤ x.respCap then
          .ok (trimCrcSuffix (trimCrcSuffix
            (responseRead x.session first blocks ++ responseCrc first blocks)))
        else .err (some .recvInfDropped)) := by
  obtain ⟨before, after, q, w, rfl, hfinal, hmore, rfl, hframes⟩ := h.answers_eq
  have hcrc := Call.responseCrc_length w.blockNum h.blocks_ne
  cases after with
  | nil =>
      cases hb : blocks with
      | nil => exact absurd hb h.blocks_ne
      | cons b later => cases later <;> simp [hb, responseFrames] at hframes
  | cons a rest =>
      have ha : ¬ a.frame.length < 1 := by
        cases hb : blocks with
        | nil => exact absurd hb h.blocks_ne
        | cons b later =>
            cases later <;>
              simp only [hb, responseFrames, List.map_cons, List.cons.injEq] at hframes <;>
              rw [hframes.1, CardBlock.frame_length] <;> omega
      have hcap : x.command.call.room = x.respCap := Nat.min_eq_left h.respCap_le
      have hempty : ([] : Frame).length ≤ x.command.call.room := Nat.zero_le _
      obtain ⟨blockNum', hrun⟩ := x.command.call.run_responseFrames w.blockNum hempty hframes
      have hcall : (sendIBlock x.command.call (before ++ a :: rest)).final =
          .stop ⟨if (responseRead x.session w.blockNum blocks).length + 2 ≤ x.respCap then
            .ok (responseRead x.session w.blockNum blocks ++ responseCrc w.blockNum blocks)
            else .err (some .recvInfDropped), blockNum'⟩ := by
        unfold sendIBlock at hfinal ⊢
        rw [run_append_of_waiting _ hfinal, Outcome.after_final, run_send_cons, Outcome.after_final,
          Call.onAnswer_tx, if_neg ha, hmore, if_neg Bool.false_ne_true, hrun, hcap]
        simp only [List.length_nil, Nat.zero_add, List.nil_append]
        rfl
      rw [sendApduTimeoutEx_of_command hcall]
      by_cases hfits : (responseRead x.session w.blockNum blocks).length + 2 ≤ x.respCap
      · rw [if_pos hfits, if_pos hfits,
          onReturned_single h.single (by rw [List.length_append, hcrc]; omega), run_stop]
        rfl
      · rw [if_neg hfits, if_neg hfits, ApduCall.onReturned_command_err, run_stop]
        rfl

/-- **Response transparency.** An answer reaches the caller as body and status word, nothing more
and nothing less, exactly when no frame's first INF byte looks like a header byte, the buffer has
room for the last CRC, the status word outranks that CRC and is not outranked by the body's end. -/
theorem returned_iff_comesThrough {x : ApduCall} {answers : List Answer} {first : Byte}
    {blocks : List CardBlock} {body : Frame} {sw1 sw2 : Byte}
    (h : Answered x answers first blocks body sw1 sw2) :
    returned (sendApduTimeoutEx x answers) = some (.ok (body ++ [sw1, sw2])) ↔
      ComesThrough x first blocks body sw1 sw2 := by
  obtain ⟨skipped, hperm, hsmall, hskips, hwhole⟩ := responseRead_split x.session first blocks
  rw [h.carries] at hperm hwhole
  rw [h.returned_eq]
  obtain ⟨crc1, crc2, hcrc⟩ := List.length_eq_two.mp (Call.responseCrc_length first h.blocks_ne)
  have hsw : ¬sw1 ≤ 14 := not_le_of_hasStatusWord h.status
  have hlen := hperm.length_eq
  rw [List.length_append, List.length_append, List.length_cons, List.length_cons, List.length_nil] at hlen
  generalize responseRead x.session first blocks = read at *
  -- a CRC left behind would stand where the status word is, and be made of skipped bytes
  have hleft : read ++ [crc1, crc2] ≠ body ++ [sw1, sw2] := by
    intro heq
    have hsame : ([crc1, crc2] ++ read).Perm (skipped ++ read) :=
      List.perm_append_comm.trans (heq ▸ hperm)
    have hcrcs : [crc1, crc2] = [sw1, sw2] := (List.append_inj' heq rfl).2
    rw [hcrcs, List.perm_append_right_iff] at hsame
    exact hsw (hsmall sw1 (hsame.mem_iff.mp List.mem_cons_self))
  constructor
  · intro heq
    split at heq
    swap
    · cases heq
    rename_i hroom
    simp only [Option.some.injEq, Received.ok.injEq, hcrc] at heq
    rw [trimCrcSuffix_concat] at heq
    by_cases hout : EndOutranks read crc1 crc2
    · rw [if_pos hout] at heq
      have hread : read = body ++ [sw1, sw2] := by
        rcases trimCrcSuffix_cases read with hkeep | ⟨h4, hcut⟩
        · rwa [hkeep] at heq
        · rw [hcut] at heq
          have := congrArg List.length heq
          rw [List.length_take, List.length_append, List.length_cons, List.length_cons,
            List.length_nil] at this
          omega
      rw [hread] at heq hout hroom hlen
      rw [trimCrcSuffix_concat] at heq
      rw [List.length_append, List.length_cons, List.length_cons, List.length_nil] at hlen
      refine ⟨hskips.mp (List.length_eq_zero_iff.mp (by omega)), by simpa using hroom, ?_, ?_⟩
      · rw [hcrc]
        exact (endOutranks_append _ _ _ _ _).mp hout
      · intro hbody
        rw [if_pos hbody] at heq
        have := congrArg List.length heq
        simp at this
    · rw [if_neg hout, trimCrcSuffix_concat, if_neg hout] at heq
      exact absurd heq hleft
  · rintro ⟨hoff, hroom, hout, hbody⟩
    have hread := hwhole (hskips.mpr hoff)
    rw [hcrc] at hout ⊢
    change Outranks sw1 sw2 crc1 crc2 at hout
    rw [hread, if_pos (by simpa using hroom), trimCrcSuffix_concat,
      if_pos ((endOutranks_append _ _ _ _ _).mpr hout), trimCrcSuffix_concat, if_neg hbody]

/-- A read answered with one block without CID and NAD. -/
def plainRead : ApduCall := ⟨Session.plain 256, [0x00, 0xB0, 0x00, 0x00, 0x02], 64, 1000, false⟩

def plainBlock (inf : Frame) : CardBlock := ⟨none, none, inf⟩

def plainAnswer (inf : Frame) : List Answer := [⟨(plainBlock inf).frame false 0, 5, false⟩]

theorem plainRead_answered (body : Frame) {sw1 sw2 : Byte}
    (hfits : body.length + 2 ≤ 64) (hsw : apduResponseHasStatusWord [sw1, sw2] = true) :
    Answered plainRead (plainAnswer (body ++ [sw1, sw2])) 0 [plainBlock (body ++ [sw1, sw2])] body
      sw1 sw2 where
  single := rfl
  fits := hfits
  respCap_le := by decide
  status := hsw
  blocks_ne := by simp
  carries := by simp [plainBlock]
  answers_eq := ⟨[], _, _, _, rfl, rfl, rfl, rfl, rfl⟩

theorem returned_iff_comesThrough_plain :
    returned (sendApduTimeoutEx plainRead (plainAnswer [0xAA, 0xBB, 0x90, 0x00])) =
        some (.ok [0xAA, 0xBB, 0x90, 0x00]) ↔
      ComesThrough plainRead 0 [plainBlock [0xAA, 0xBB, 0x90, 0x00]] [0xAA, 0xBB] 0x90 0x00 :=
  returned_iff_comesThrough (plainRead_answered [0xAA, 0xBB] (by decide) (by decide))

/-- A bare 9100 comes back with its CRC behind it. -/
theorem crc_left_behind : ¬∀ x answers first blocks body sw1 sw2,
    Answered x answers first blocks body sw1 sw2 →
      returned (sendApduTimeoutEx x answers) = some (.ok (body ++ [sw1, sw2])) := by
  intro h
  have hplain := h plainRead _ 0 _ [] 0x91 0x00 (plainRead_answered [] (by decide) (by decide))
  revert hplain
  decide

end NeroReader.IsoDep
