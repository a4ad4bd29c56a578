import NeroReader.IsoDepRounds
import NeroReader.IsoDepSession

/-!
The frame ceiling of a session. An ATS that the parser accepts sets the frame size its I-blocks are cut to. One
that it rejects opens the session all the same, over the frame size that was in force before.
-/

namespace NeroReader.IsoDep

open Driver

/-! ### How a session opens -/

namespace Session

variable (s : Session)

/-- `reader_security_key_iso_dep_reset_framing`. -/
def resetFraming : Session :=
  { s with
    pcbHasCid := false
    cid := 0
    cid_le := zero_le_cidMax
    picFrameMax := fscMax
    fwtUs := fwtUsFromFwi fwiDefault }

/-- The session behind the probe RATS: no CID in the PCB. -/
def probeStep (rx : Frame) : Option Session :=
  match commitRatsRx rx with
  | none => none
  | some ats => some { s.parseAts ats with blockNum := 0 }

/-- `reader_security_key_iso_dep_session_open`, and its quiet form: a card that supports a CID is opened again
with one. -/
def sessionOpen (probe : Frame) (r : Reopening) : Option Session :=
  match s.resetFraming.probeStep probe with
  | none => none
  | some probed => if probed.probeCanUpgradeCid then probed.recoverSession r else some probed

end Session

/-- What an RATS answered with this ATS makes of the link: a probe session, or one with a CID. -/
inductive OpenedBy (link : Session) (ats : Frame) : Session → Prop where
  | probe : OpenedBy link ats { link.parseAts ats with blockNum := 0 }
  | main (cid : Byte) (hcid : cid ≤ 14) :
      OpenedBy link ats { link.parseAts ats with pcbHasCid := true, cid := cid, cid_le := hcid, blockNum := 0 }

/-- The links a reader works on: framing reset, sessions opened, APDUs sent. -/
inductive Link : Session → Prop where
  | reset (s : Session) : Link s.resetFraming
  | opened {link opened : Session} {ats : Frame} (h : Link link) (ho : OpenedBy link ats opened) : Link opened
  | sent {link : Session} (h : Link link) (blockNum : Byte) : Link { link with blockNum := blockNum }

namespace Session

variable {s opened : Session}

theorem probeStep_openedBy {rx : Frame} (h : s.probeStep rx = some opened) :
    ∃ ats, commitRatsRx rx = some ats ∧ OpenedBy s ats opened := by
  rw [probeStep] at h
  cases hcommit : commitRatsRx rx with
  | none =>
      rw [hcommit] at h
      cases h
  | some ats =>
      rw [hcommit] at h
      cases h
      exact ⟨ats, rfl, .probe⟩

theorem ratsStep_openedBy {rx : Frame} {cid : Byte} {hcid : cid ≤ 14} (h : s.ratsStep rx cid hcid = some opened) :
    ∃ ats, commitRatsRx rx = some ats ∧ OpenedBy s ats opened := by
  rw [ratsStep] at h
  cases hcommit : commitRatsRx rx with
  | none =>
      rw [hcommit] at h
      cases h
  | some ats =>
      rw [hcommit] at h
      cases h
      exact ⟨ats, rfl, .main cid hcid⟩

/-- A re-activation opens the session with one of the three ATS. -/
theorem recoverSession_openedBy {r : Reopening} (h : s.recoverSession r = some opened) :
    ∃ rx ats, commitRatsRx rx = some ats ∧ OpenedBy s ats opened := by
  rw [recoverSession] at h
  split at h
  · cases h
  rw [openMainFromActive] at h
  split at h
  · rename_i hstep
    cases h
    exact ⟨r.ats5a, ratsStep_openedBy hstep⟩
  split at h
  · rename_i hstep
    cases h
    exact ⟨r.ats5b, ratsStep_openedBy hstep⟩
  · exact ⟨r.ats5c, ratsStep_openedBy h⟩

/-- **Every opened session** is opened by an ATS the card sent, over a link that was reset or probed. -/
theorem sessionOpen_openedBy {probe : Frame} {r : Reopening} (h : s.sessionOpen probe r = some opened) :
    ∃ link rx ats, Link link ∧ commitRatsRx rx = some ats ∧ OpenedBy link ats opened := by
  rw [sessionOpen] at h
  cases hprobe : s.resetFraming.probeStep probe with
  | none =>
      rw [hprobe] at h
      cases h
  | some probed =>
      rw [hprobe] at h
      obtain ⟨ats, hcommit, hopened⟩ := probeStep_openedBy hprobe
      dsimp only at h
      split at h
      · obtain ⟨rx, ats', hcommit', hopened'⟩ := recoverSession_openedBy h
        exact ⟨probed, rx, ats', .opened (.reset s) hopened, hcommit', hopened'⟩
      · cases h
        exact ⟨s.resetFraming, probe, ats, .reset s, hcommit, hopened⟩

end Session

/-! ### What the ATS leaves -/

/-- The FSC that the format byte of an ATS announces. -/
def atsFsc (ats : Frame) : Nat := fscFromFsci (u8At ats 1 &&& atsT0FsciMask).toNat

theorem parseAtsProfile_picFrameMax {ats : Frame} {profile : AtsProfile} (h : parseAtsProfile ats = some profile) :
    profile.picFrameMax = atsFsc ats := by
  rw [parseAtsProfile, Option.ite_none_left_eq_some, Option.ite_none_left_eq_some] at h
  rw [← Option.some.inj h.2.2]
  rfl

theorem fscFromFsci_ge (fsci : Nat) : 16 ≤ fscFromFsci fsci := by
  rw [fscFromFsci]
  match fsci with
  | 0 | 1 | 2 | 3 | 4 | 5 | 6 | 7 | 8 => decide
  | n + 9 => exact (by decide : 16 ≤ fscMax)

namespace OpenedBy

variable {link opened : Session} {ats : Frame}

theorem picFrameMax_of_some (h : OpenedBy link ats opened) {profile : AtsProfile}
    (hats : parseAtsProfile ats = some profile) : opened.picFrameMax = atsFsc ats := by
  have hparse : (link.parseAts ats).picFrameMax = atsFsc ats := by
    rw [Session.parseAts, hats]
    exact parseAtsProfile_picFrameMax hats
  cases h with
  | probe => exact hparse
  | main cid hcid => exact hparse

/-- A rejected ATS leaves the frame size as it was and takes the TC byte away. -/
theorem of_none (h : OpenedBy link ats opened) (hats : parseAtsProfile ats = none) :
    opened.picFrameMax = link.picFrameMax ∧ opened.haveTc = false := by
  have hparse : (link.parseAts ats).picFrameMax = link.picFrameMax ∧ (link.parseAts ats).haveTc = false := by
    rw [Session.parseAts, hats]
    exact ⟨rfl, rfl⟩
  cases h with
  | probe => exact hparse
  | main cid hcid => exact hparse

end OpenedBy

/-- No link is set to smaller frames than the smallest FSC. -/
theorem Link.picFrameMax_ge {s : Session} (h : Link s) : 16 ≤ s.picFrameMax := by
  induction h with
  | reset s => exact (by decide : 16 ≤ fscMax)
  | @opened link opened ats h ho ih =>
      cases hats : parseAtsProfile ats with
      | none =>
          rw [(ho.of_none hats).1]
          exact ih
      | some profile =>
          rw [ho.picFrameMax_of_some hats]
          exact fscFromFsci_ge _
  | sent h blockNum ih => exact ih

/-! ### The I-blocks of a call -/

theorem buildIBlockTx_length {txCap : Nat} {apdu : Frame} {apduOff fragCap : Nat} {pcbHasCid : Bool} {cid : Byte}
    {includeNad : Bool} {nad blockNum : Byte} {b : IBlockTx}
    (h : buildIBlockTx txCap apdu apduOff fragCap pcbHasCid cid includeNad nad blockNum = some b) :
    b.wire.length = iBlockTxHdrLen pcbHasCid includeNad + min fragCap (apdu.length - apduOff) := by
  rw [buildIBlockTx, Option.ite_none_left_eq_some, Option.ite_none_left_eq_some] at h
  rw [← Option.some.inj h.2.2]
  rw [List.length_append, List.length_take, List.length_drop, iBlockTxHdrLen]
  have hmin : min (if fragCap < apdu.length - apduOff then fragCap else apdu.length - apduOff)
      (apdu.length - apduOff) = min fragCap (apdu.length - apduOff) := by
    split <;> omega
  rw [hmin]
  cases pcbHasCid <;> cases includeNad <;> simp

namespace Call

variable (c : Call)

/-- A NAD byte is only added where the header counts it. -/
theorem txHdrLen_eq : c.txHdrLen = iBlockTxHdrLen c.session.pcbHasCid c.addNad := by
  have hnad : c.addNad = true → c.session.txIncludeNad = true := by
    intro hadd
    by_contra hno
    rw [addNad, Session.txAddNad, if_pos (Bool.eq_false_of_not_eq_true hno)] at hadd
    cases hadd
  rw [txHdrLen, Session.txHdrLen]
  cases hadd : c.addNad with
  | false => rfl
  | true => rw [hnad hadd, Bool.and_true]

/-- The largest I-block of a call, with its EDC. -/
def ceiling : Nat := min c.session.picFrameMax (c.txHdrLen + chunkHardCap + 2)

theorem frame_le_ceiling {off : Nat} {blkSent : Byte} {b : IBlockTx}
    (h : buildIBlockTx iBlockTxBufLen c.apdu off c.fragCap c.session.pcbHasCid c.session.cid c.addNad txNadValue
      blkSent = some b) : b.wire.length + 2 ≤ c.ceiling := by
  have hlen := buildIBlockTx_length h
  rw [← txHdrLen_eq] at hlen
  have hcap : c.fragCap ≠ 0 := by
    intro hzero
    rw [buildIBlockTx, if_pos (Or.inr hzero)] at h
    cases h
  have hbudget : c.txHdrLen + c.fragCap + 2 ≤ c.ceiling := by
    change c.fragCap ≠ 0 at hcap
    rw [fragCap, Session.apduChunkBudget, apduChunkBudget] at hcap ⊢
    rw [ceiling, chunkHardCap]
    split at hcap
    · exact absurd rfl hcap
    · rename_i hroom
      rw [if_neg hroom]
      omega
  omega

/-- While the command goes out the frame on the air is a fragment of it or no I-block; the receive loop sends
no I-block. -/
def OnWire : Action → Prop
  | .send q (.tx w) =>
      (∃ off blkSent, buildIBlockTx iBlockTxBufLen c.apdu off c.fragCap c.session.pcbHasCid c.session.cid c.addNad
        txNadValue blkSent = some w.block) ∧ (q.frame = w.block.wire ∨ isIBlock q.frame = false)
  | .send q (.rx _) => isIBlock q.frame = false
  | .stop _ => True

variable {c}

theorem onWire_rxFrame (resp : Frame) (expectedBlock blockNum : Byte) (a : Answer) :
    c.OnWire (c.rxFrame resp expectedBlock blockNum a) := by
  cases hact : c.rxFrame resp expectedBlock blockNum a with
  | stop r => trivial
  | send q s =>
      obtain ⟨⟨w, rfl⟩, hq⟩ := c.rxFrame_send hact
      exact hq

theorem onWire_txFragment (off : Nat) (blockNum : Byte) (last : Answer) :
    c.OnWire (c.txFragment off blockNum last) := by
  rw [txFragment]
  split
  · dsimp only
    split
    · trivial
    · rename_i block hblock
      exact ⟨⟨off, blockNum &&& blockNumMask, hblock⟩, Or.inl rfl⟩
  split
  · rw [finishIncomplete, if_neg (by simp)]
    trivial
  · exact onWire_rxFrame _ _ _ _

theorem OnWire.txChainFrame {q : Request} {w : TxWait} (h : c.OnWire (.send q (.tx w))) (a : Answer) :
    c.OnWire (c.txChainFrame w a) := by
  have hresend : ∀ limit, c.OnWire (c.txResend w limit) := by
    intro limit
    rw [txResend]
    split
    · trivial
    · exact ⟨h.1, Or.inl rfl⟩
  rw [Call.txChainFrame]
  split
  · rename_i hwtx
    cases hact : c.answerWtx txWtxErrs w.blockNum a (.tx { w with onSilence := .txChainWtxEchoTimeout }) with
    | stop r => trivial
    | send q' s =>
        obtain ⟨rfl, hq'⟩ := c.answerWtx_send hwtx hact
        exact ⟨h.1, Or.inr hq'⟩
  split
  · exact hresend _
  split
  · exact onWire_txFragment _ _ _
  split
  · exact hresend _
  · trivial

theorem OnWire.onAnswer {q : Request} {s : Wait} (h : c.OnWire (.send q s)) (a : Answer) :
    c.OnWire (c.onAnswer s a) := by
  cases s with
  | tx w =>
      rw [onAnswer_tx]
      split
      · trivial
      split
      · exact h.txChainFrame a
      · exact onWire_rxFrame _ _ _ _
  | rx w =>
      rw [onAnswer_rx]
      split
      · trivial
      · exact onWire_rxFrame _ _ _ _

theorem onWire_start : c.OnWire c.start := by
  rw [start]
  split
  · trivial
  · exact onWire_txFragment _ _ _

theorem OnWire.le_ceiling {q : Request} {s : Wait} (h : c.OnWire (.send q s)) (hI : isIBlock q.frame = true) :
    q.frame.length + 2 ≤ c.ceiling := by
  cases s with
  | tx w =>
      obtain ⟨⟨off, blkSent, hblock⟩, hq | hq⟩ := h
      · rw [hq]
        exact c.frame_le_ceiling hblock
      · rw [hq] at hI
        cases hI
  | rx w =>
      rw [show isIBlock q.frame = false from h] at hI
      cases hI

/-- **No I-block of a call is longer than the ceiling**, whatever the card answers. -/
theorem iBlocks_le_ceiling (answers : List Answer) :
    ∀ e ∈ (sendIBlock c answers).trace, isIBlock e.1.frame = true → e.1.frame.length + 2 ≤ c.ceiling := by
  have h := run_invariant c.onAnswer
    (fun trace next =>
      (∀ e ∈ trace, isIBlock e.1.frame = true → e.1.frame.length + 2 ≤ c.ceiling) ∧ c.OnWire next)
    (by
      rintro trace q s a ⟨htrace, hwire⟩
      refine ⟨?_, hwire.onAnswer a⟩
      intro e he
      rcases List.mem_append.mp he with he | he
      · exact htrace e he
      · rw [List.mem_singleton.mp he]
        exact hwire.le_ceiling)
    c.start ⟨by simp, onWire_start⟩ answers
  exact h.1

theorem start_block {q : Request} {w : TxWait} (h : c.start = .send q (.tx w)) (hne : 0 < c.apdu.length) :
    buildIBlockTx iBlockTxBufLen c.apdu 0 c.fragCap c.session.pcbHasCid c.session.cid c.addNad txNadValue
      (c.session.blockNum &&& blockNumMask) = some w.block := by
  rw [start] at h
  split at h
  · cases h
  rw [txFragment, if_pos hne] at h
  dsimp only at h
  split at h
  · cases h
  · rename_i block hblock
    cases h
    exact hblock

/-- A command that fills its first fragment reaches the ceiling. -/
theorem ceiling_reached (hroom : 16 ≤ c.session.picFrameMax) (hlong : chunkHardCap < c.apdu.length) :
    ∃ e ∈ (sendIBlock c [silence]).trace, isIBlock e.1.frame = true ∧ e.1.frame.length + 2 = c.ceiling := by
  have hne : 0 < c.apdu.length := Nat.lt_of_le_of_lt (Nat.zero_le _) hlong
  have hhdr : c.txHdrLen ≤ 3 := (iBlockTxHdrLen_bounds _ _).2.1
  have hcap : c.fragCap = min (c.session.picFrameMax - (c.txHdrLen + 2)) chunkHardCap := by
    rw [fragCap, Session.apduChunkBudget, apduChunkBudget, if_neg (by omega)]
    rfl
  rw [chunkHardCap] at hcap hlong
  obtain ⟨q, w, hstart, hq⟩ := start_sends (c := c) (by omega) hne
  have hblock := start_block hstart hne
  refine ⟨(q, silence), ?_, ?_, ?_⟩
  · rw [sendIBlock, hstart]
    simp
  · rw [hq]
    exact (buildIBlockTx_spec hblock).1
  · rw [hq, buildIBlockTx_length hblock, ← txHdrLen_eq, ceiling, chunkHardCap, hcap]
    omega

end Call

/-- **I-blocks and the FSC.** Over every link the reader works on, the I-blocks of a session keep to the FSC that
its ATS announces exactly where the parser accepts the ATS, or the frame size left over from before is small
enough. -/
theorem iBlocks_le_fsc_iff {link opened : Session} {ats : Frame} (hlink : Link link)
    (hopened : OpenedBy link ats opened) :
    (∀ blockNum apdu respCap frameTimeoutMs answers,
        ∀ e ∈ (sendIBlock ⟨{ opened with blockNum := blockNum }, apdu, respCap, frameTimeoutMs⟩ answers).trace,
          isIBlock e.1.frame = true → e.1.frame.length + 2 ≤ atsFsc ats) ↔
      (parseAtsProfile ats).isSome = true ∨
        min link.picFrameMax (if opened.pcbHasCid then 52 else 51) ≤ atsFsc ats := by
  cases hats : parseAtsProfile ats with
  | some profile =>
      refine iff_of_true ?_ (Or.inl rfl)
      intro blockNum apdu respCap frameTimeoutMs answers e he hI
      have hle := Call.iBlocks_le_ceiling answers e he hI
      have hmax : opened.picFrameMax = atsFsc ats := hopened.picFrameMax_of_some hats
      rw [← hmax]
      exact hle.trans (Nat.min_le_left _ _)
  | none =>
      obtain ⟨hmax, htc⟩ := hopened.of_none hats
      have hceiling : ∀ blockNum apdu respCap frameTimeoutMs,
          (Call.mk { opened with blockNum := blockNum } apdu respCap frameTimeoutMs).ceiling =
            min link.picFrameMax (if opened.pcbHasCid then 52 else 51) := by
        intro blockNum apdu respCap frameTimeoutMs
        have hadd : (Call.mk { opened with blockNum := blockNum } apdu respCap frameTimeoutMs).addNad = false := by
          rw [Call.addNad, Session.txAddNad, Session.txIncludeNad]
          show (if (opened.haveTc && _) = false then _ else _) = false
          rw [htc]
          rfl
        rw [Call.ceiling, Call.txHdrLen_eq, hadd, ← hmax]
        show min opened.picFrameMax (iBlockTxHdrLen opened.pcbHasCid false + chunkHardCap + 2) = _
        cases opened.pcbHasCid <;> rfl
      constructor
      · intro hfits
        right
        have hroom : 16 ≤ opened.picFrameMax := by
          rw [hmax]
          exact hlink.picFrameMax_ge
        obtain ⟨e, he, hI, hlen⟩ := Call.ceiling_reached
          (c := ⟨{ opened with blockNum := 0 }, List.replicate 64 0, 256, 1000⟩) hroom
          (by rw [List.length_replicate]; decide)
        rw [hceiling] at hlen
        rw [← hlen]
        exact hfits 0 _ 256 1000 [silence] e he hI
      · rintro (habs | hsmall)
        · cases habs
        · intro blockNum apdu respCap frameTimeoutMs answers e he hI
          have hle := Call.iBlocks_le_ceiling answers e he hI
          rw [hceiling] at hle
          exact hle.trans hsmall

/-- The session of a card with frames of 24 bytes whose ATS is accepted. -/
def shortFrames : Session :=
  { (Session.plain 256).resetFraming.parseAts [0x04, 0x21, 0x70, 0x80] with blockNum := 0 }

theorem iBlocks_le_fsc_short : atsFsc [0x04, 0x21, 0x70, 0x80] = 24 ∧
    ∀ blockNum apdu respCap frameTimeoutMs answers,
      ∀ e ∈ (sendIBlock ⟨{ shortFrames with blockNum := blockNum }, apdu, respCap, frameTimeoutMs⟩ answers).trace,
        isIBlock e.1.frame = true → e.1.frame.length + 2 ≤ atsFsc [0x04, 0x21, 0x70, 0x80] :=
  ⟨by decide, (iBlocks_le_fsc_iff (.reset (Session.plain 256)) .probe).mpr (Or.inl (by decide))⟩

/-- A card with frames of 16 bytes and the reserved FWI: its session opens and is sent frames of 51 bytes. -/
theorem iBlocks_exceed_fsc_reserved : ∃ opened,
    (Session.plain 256).sessionOpen [0x03, 0x20, 0xF0] ⟨false, [], [], []⟩ = some opened ∧
      ∃ e ∈ (sendIBlock ⟨opened, List.replicate 64 0, 256, 1000⟩ [silence]).trace,
        isIBlock e.1.frame = true ∧ atsFsc [0x03, 0x20, 0xF0] < e.1.frame.length + 2 := by
  refine ⟨_, rfl, ?_⟩
  decide

end NeroReader.IsoDep
