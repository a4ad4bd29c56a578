import NeroReader.CcidBulk

/-!
What holds of the reader between two events, and that the parts the handler is made of keep it: the
chains, the session, the dispatch of a payload.
-/

namespace NeroReader.Ccid

open IsoDep HostApdu
open Storage (Word TagKind)

namespace Reader

/-- **The lifecycle invariant.** The relations between the session, the card and the chains. -/
structure Consistent (r : Reader) : Prop where
  session_card : r.sess = true → r.cardPresent = true
  card_kind : r.cardPresent = true → r.tagKind ≠ .none
  iso_session : r.isoSessionOpen = true → r.sess = true ∧ r.tagKind = .type4
  security_key : r.type4SecurityKeyApp = true → r.sess = true ∧ r.tagKind = .type4
  response_chain : r.chainActive = true → r.sess = true
  response_chain_rest : r.chainActive = true →
    r.chainOff < r.chainBuf.length ∧ r.chainBuf.length ≤ extendedRspBufSize
  command_chain : r.cmdChainActive = true → r.sess = true
  owner_session : r.sess = false → r.owner = .none
  deferred_removal : r.removeDeferred = true → r.sess = false
  abort_slot : ∀ slot seq, r.abortRequest = some (slot, seq) → slot = 0

theorem consistent_reset : reset.Consistent := by
  refine ⟨?_, ?_, ?_, ?_, ?_, ?_, ?_, ?_, ?_, ?_⟩ <;> simp [reset]

variable {r : Reader}

theorem Consistent.clearXfrResponseChain (h : r.Consistent) : r.clearXfrResponseChain.Consistent :=
  { h with
    response_chain := fun h => absurd h Bool.false_ne_true
    response_chain_rest := fun h => absurd h Bool.false_ne_true }

theorem Consistent.clearXfrCommandChain (h : r.Consistent) : r.clearXfrCommandChain.Consistent :=
  { h with command_chain := fun h => absurd h Bool.false_ne_true }

/-- A teardown restores every relation that speaks of a session. -/
theorem consistent_teardown (hkind : r.cardPresent = true → r.tagKind ≠ .none)
    (habort : ∀ slot seq, r.abortRequest = some (slot, seq) → slot = 0) :
    r.teardownSession.Consistent where
  session_card := fun h => absurd h Bool.false_ne_true
  card_kind := hkind
  iso_session := fun h => absurd h Bool.false_ne_true
  security_key := fun h => absurd h Bool.false_ne_true
  response_chain := fun h => absurd h Bool.false_ne_true
  response_chain_rest := fun h => absurd h Bool.false_ne_true
  command_chain := fun h => absurd h Bool.false_ne_true
  owner_session := by
    intro _
    change (if r.owner = .ccid then SessionOwner.none else r.owner) = .none
    cases r.owner <;> rfl
  deferred_removal := fun _ => rfl
  abort_slot := habort

theorem Consistent.teardownSession (h : r.Consistent) : r.teardownSession.Consistent :=
  consistent_teardown h.card_kind h.abort_slot

theorem Consistent.noteHostSessionActivity (h : r.Consistent) (now : BitVec 32) :
    (r.noteHostSessionActivity now).Consistent := by
  unfold Reader.noteHostSessionActivity
  split
  · exact h
  · exact { h with deferred_removal := fun h => absurd h Bool.false_ne_true }

theorem Consistent.abortRequested (h : r.Consistent) (seq : Byte) : (r.abortRequested seq).Consistent :=
  { h with
    abort_slot := by
      intro slot seq' hsome
      simp only [Reader.abortRequested, Option.some.injEq, Prod.mk.injEq] at hsome
      exact hsome.1.symm }

theorem Consistent.abortArrives (h : r.Consistent) : ∀ arriving, (r.abortArrives arriving).Consistent
  | none => h
  | some seq => h.abortRequested seq

theorem Consistent.clearAbortRequest (h : r.Consistent) (slot seq : Byte) :
    (r.clearAbortRequest slot seq).Consistent := by
  unfold Reader.clearAbortRequest
  split
  · exact { h with abort_slot := fun _ _ hsome => absurd hsome (by simp) }
  · exact h

/-- Without a session there is nothing that needs one. -/
theorem Consistent.closed (h : r.Consistent) (hclosed : r.sess = false) :
    r.isoSessionOpen = false ∧ r.type4SecurityKeyApp = false ∧ r.chainActive = false ∧
      r.cmdChainActive = false := by
  have hno : ∀ {p : Prop}, r.sess = true → p := fun h => absurd (hclosed.symm.trans h) Bool.false_ne_true
  exact ⟨Bool.eq_false_iff.mpr fun hiso => hno (h.iso_session hiso).1,
    Bool.eq_false_iff.mpr fun happ => hno (h.security_key happ).1,
    Bool.eq_false_iff.mpr fun hchain => hno (h.response_chain hchain),
    Bool.eq_false_iff.mpr fun hchain => hno (h.command_chain hchain)⟩

theorem Consistent.setProtocol (h : r.Consistent) (protocolNum : Byte) :
    (r.setProtocol protocolNum).Consistent := { h with }

theorem Consistent.beginTimeExtension (h : r.Consistent) (seq : Byte) :
    (r.beginTimeExtension seq).Consistent := { h with }

/-! ### Tag events -/

theorem Consistent.completeCardRemoval (h : r.Consistent) : r.completeCardRemoval.reader.Consistent :=
  consistent_teardown (fun hcard => absurd hcard Bool.false_ne_true) h.abort_slot

theorem Consistent.onTagDetected (h : r.Consistent) {kind : TagKind} (hkind : kind ≠ .none)
    (hclosed : r.sess = false) : (r.onTagDetected kind).reader.Consistent := by
  have hsettled : ∀ s : Reader, s.Consistent → s.sess = false →
      { s.clearXfrResponseChain with
        removeDeferred := false
        tagKind := kind
        type4SecurityKeyApp := false
        protocolNum := protocolForTag kind }.Consistent := by
    intro s hs hsess
    exact { hs.clearXfrResponseChain with
      card_kind := fun _ => hkind
      iso_session := fun hiso => absurd (hs.iso_session hiso).1 (by simp [hsess])
      security_key := fun h => absurd h Bool.false_ne_true
      deferred_removal := fun h => absurd h Bool.false_ne_true }
  have hpresent : ∀ s : Reader, s.Consistent → s.sess = false → s.tagKind ≠ .none →
      { s with cardPresent := true }.Consistent := by
    intro s hs hsess hk
    exact { hs with session_card := fun _ => rfl, card_kind := fun _ => hk }
  unfold Reader.onTagDetected
  dsimp only
  generalize hprev : (if r.removeDeferred = true then r.completeCardRemoval else Turn.silent r) = prev
  have hprev' : prev.reader.Consistent ∧ prev.reader.sess = false := by
    rw [← hprev]
    split
    · exact ⟨h.completeCardRemoval, rfl⟩
    · exact ⟨h, hclosed⟩
  obtain ⟨hc, hs⟩ := hprev'
  unfold Turn.andThen
  dsimp only
  split
  · exact hsettled _ hc hs
  · exact hpresent _ (hsettled _ hc hs) hs hkind

theorem Consistent.onTagRemovedFromField (h : r.Consistent) (now : BitVec 32) :
    (r.onTagRemovedFromField now).reader.Consistent := by
  unfold Reader.onTagRemovedFromField
  split
  · exact h
  split
  · exact h.completeCardRemoval
  rename_i hsess
  split
  · exact { h with deferred_removal := fun _ => Bool.eq_false_iff.mpr hsess }
  · exact h.completeCardRemoval

theorem Consistent.pollDeferredRemoval (h : r.Consistent) (now : BitVec 32) :
    (r.pollDeferredRemoval now).reader.Consistent := by
  unfold Reader.pollDeferredRemoval
  split
  · exact h.completeCardRemoval
  · exact h

/-! ### Chains and payloads -/

theorem consistent_append (h : r.Consistent) (hsess : r.sess = true) (data : Frame) (beginChain : Bool) :
    (r.appendXfrCommandChain data beginChain).1.Consistent := by
  unfold appendXfrCommandChain
  split
  · exact h
  dsimp only
  have hbegun : (if beginChain = true then r.clearXfrCommandChain else r).Consistent := by
    split
    · exact h.clearXfrCommandChain
    · exact h
  have hsess' : (if beginChain = true then r.clearXfrCommandChain else r).sess = true := by
    split <;> exact hsess
  generalize (if beginChain = true then r.clearXfrCommandChain else r) = s at hbegun hsess' ⊢
  split
  · exact hbegun
  split
  · exact hbegun.clearXfrCommandChain
  · exact { hbegun with command_chain := fun _ => hsess' }

theorem consistent_dispatch (h : r.Consistent) (hsess : r.sess = true) (env : BulkEnv) (payload : Frame)
    (rspCap : Nat) : (r.dispatchHostPayload env payload rspCap).1.Consistent := by
  have hnoted : ∀ s : Reader, s.Consistent → ∀ rsp : Frame,
      (if rsp ≠ [] then s.noteHostSessionActivity env.millis else s).Consistent := by
    intro s hs rsp
    split
    · exact hs.noteHostSessionActivity _
    · exact hs
  unfold dispatchHostPayload
  split
  · exact h
  split
  · exact h
  dsimp only
  apply hnoted
  split
  · exact h
  split
  · exact h
  rename_i hkind
  split
  · exact h
  · split
    · exact { h with security_key := fun _ => ⟨hsess, by simpa using hkind⟩ }
    · exact h

end Reader

end NeroReader.Ccid
