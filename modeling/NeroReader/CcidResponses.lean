import NeroReader.CcidLifecycle

/-!
What the host sees of a bulk command, in every state the reader can be in: one response of the right
type for every frame with a header, and which slot state the response reports.
-/

namespace NeroReader.Ccid

open IsoDep
open Storage (TagKind)

/-- The transfers of a turn that are not time extensions. -/
def Turn.responses (t : Turn) : List Frame := t.sent.filter fun f => !isTimeExtension f

/-- No slot state, with or without the failure bit, reads as a time extension. -/
theorem level_bits {icc level : Byte} (hicc : IsIccState icc) (hlevel : level = icc ∨ level = iccCmdFail ||| icc) :
    (level &&& 0xC0 == iccCmdTimeExtension) = false ∧ level &&& 0x03 = icc := by
  rcases hicc with rfl | rfl | rfl <;> rcases hlevel with rfl | rfl <;> decide

/-- The response of an answered command is what is left of its transfers. -/
theorem Answers.responses_eq {frame : Frame} {r : Reader} {t : Turn} {icc : Byte} (h : Answers frame r t icc)
    (hicc : IsIccState icc) :
    ∃ rsp, t.responses = [rsp] ∧ iccStatusOf rsp = icc ∧ seqOf rsp = seqOf frame ∧
      u8At rsp 0 = responseMsgForBulkCommand (commandOf frame) ∧ rsp.length = bulkHeaderLen + dwLength rsp := by
  obtain ⟨extensions, rsp, level, hsent, hext, hrsp, hlevel⟩ := h.response
  obtain ⟨hplain, hbits⟩ := level_bits hicc hlevel
  refine ⟨rsp, ?_, ?_, hrsp.seq, hrsp.msg, hrsp.length⟩
  · have hrest : extensions.filter (fun f => !isTimeExtension f) = [] := by
      rw [List.filter_eq_nil_iff]
      intro f hf
      simp only [hext f hf, Bool.not_true, Bool.false_eq_true, not_false_eq_true]
    have hlast : isTimeExtension rsp = false := by
      rw [isTimeExtension, hrsp.status]
      exact hplain
    rw [Turn.responses, hsent, List.filter_append, hrest, List.nil_append]
    simp only [List.filter_cons, hlast, Bool.not_false, if_true, List.filter_nil]
  · rw [iccStatusOf, hrsp.status]
    exact hbits

/-- **One response to every command.** In every reachable state a frame with a header gets exactly one
response apart from time extensions; it carries the frame's sequence number and the response type of
its command, and it is as long as its own length field says. A shorter frame gets none and changes
nothing. -/
theorem bulk_response (history : List (Reader × Event)) (r : Reader) (hrun : lifecycle.Run history r)
    (env : BulkEnv) (frame : Frame) :
    (bulkHeaderLen ≤ frame.length → ∃ rsp, (r.handleBulk env frame).responses = [rsp] ∧
      seqOf rsp = seqOf frame ∧ u8At rsp 0 = responseMsgForBulkCommand (commandOf frame) ∧
      rsp.length = bulkHeaderLen + dwLength rsp) ∧
    (frame.length < bulkHeaderLen → r.handleBulk env frame = .silent r) := by
  refine ⟨fun hlen => ?_, r.handleBulk_short env frame⟩
  obtain ⟨icc, hans, hicc, -⟩ := Reader.handleBulk_answers env frame (lifecycle_keeps hrun).1 hlen
  obtain ⟨rsp, hrsp, -, hseq, hmsg, hlength⟩ := hans.responses_eq hicc
  exact ⟨rsp, hrsp, hseq, hmsg, hlength⟩

theorem bulk_response_powerOn : ∃ rsp, (tagFound.handleBulk .still powerOnFrame).responses = [rsp] ∧
    seqOf rsp = 1 ∧ u8At rsp 0 = rspDataBlock ∧ rsp.length = bulkHeaderLen + dwLength rsp := by
  have h := bulk_response [(.reset, .tagDetected .type4)] tagFound tagFound_run .still powerOnFrame
  exact h.1 (by decide)

/-- **The reported slot state.** In every reachable state the response to a frame for slot 0 reports the
state the slot is in after the command, unless the frame reaches one of the two commands that report a
state of their own. -/
theorem bulk_status_iff (history : List (Reader × Event)) (r : Reader) (hrun : lifecycle.Run history r)
    (env : BulkEnv) (frame : Frame) (hlen : bulkHeaderLen ≤ frame.length) (hslot : slotOf frame = 0) :
    ∃ rsp, (r.handleBulk env frame).responses = [rsp] ∧
      (iccStatusOf rsp = (r.handleBulk env frame).reader.currentIccLevel ↔
        ¬ (r.ReachesSwitch frame ∧ r.Misreports frame)) := by
  obtain ⟨icc, hans, hicc, hiff⟩ := Reader.handleBulk_answers env frame (lifecycle_keeps hrun).1 hlen
  obtain ⟨rsp, hrsp, hstatus, -⟩ := hans.responses_eq hicc
  exact ⟨rsp, hrsp, by rw [hstatus]; exact hiff hslot⟩

theorem bulk_status_iff_powerOn : ∃ rsp, (tagFound.handleBulk .still powerOnFrame).responses = [rsp] ∧
    (iccStatusOf rsp = (tagFound.handleBulk .still powerOnFrame).reader.currentIccLevel ↔
      ¬ (tagFound.ReachesSwitch powerOnFrame ∧ tagFound.Misreports powerOnFrame)) :=
  bulk_status_iff [(.reset, .tagDetected .type4)] tagFound tagFound_run .still powerOnFrame (by decide)
    (by decide)

/-- An XfrBlock sent before PowerOn is answered as if the slot were empty, with the tag in the field. -/
theorem present_card_reported_absent :
    ¬ ∀ history r, lifecycle.Run history r → ∀ env frame, bulkHeaderLen ≤ frame.length → slotOf frame = 0 →
      ∃ rsp, (r.handleBulk env frame).responses = [rsp] ∧
        iccStatusOf rsp = (r.handleBulk env frame).reader.currentIccLevel := by
  intro h
  obtain ⟨rsp, hrsp, hstatus⟩ := h _ _ tagFound_run .still [0x6F, 0, 0, 0, 0, 0, 7, 0, 0, 0] (by decide) (by decide)
  have hsent : (tagFound.handleBulk .still [0x6F, 0, 0, 0, 0, 0, 7, 0, 0, 0]).responses =
      [[0x80, 0, 0, 0, 0, 0, 7, 0x42, 0xFE, 0]] := by
    decide
  obtain rfl : [0x80, 0, 0, 0, 0, 0, 7, 0x42, 0xFE, 0] = rsp := by
    rw [hsent] at hrsp
    exact (List.cons.inj hrsp).1
  exact absurd hstatus (by decide)

end NeroReader.Ccid
