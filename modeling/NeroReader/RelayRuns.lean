import NeroReader.SecurityKeyRelay

/-!
Runs of the relay's programs. A run records the operations in order with their outcomes, whatever the card
and the host do; which APDUs a program can send at all is a property of the program, composed over its
binds.
-/

namespace NeroReader.SecurityKey

open IsoDep HostApdu

/-- What the reader sends behind a command whose response announces more of it. -/
def IsContinuation (apdu : Frame) : Prop :=
  (∃ remaining, apdu = getResponseApdu remaining) ∨ apdu = ctapGetResponseApdu

/-- An operation of a run with its outcome. -/
inductive Op where
  | sent (apdu : Frame) (received : Received)
  | recovered (ok : Bool)
  | abortLooked (pending : Bool)
  | probed (can : Bool)

namespace Relay

variable {α β : Type}

/-- The program makes these operations and ends with this result. -/
inductive Performs : Relay α → List Op → α → Prop where
  | done (result : α) : Performs (.done result) [] result
  | sendApdu {apdu : Frame} {respCap frameTimeoutMs : Nat} {next : Received → Relay α} {ops : List Op} {result : α}
      (received : Received) (rest : Performs (next received) ops result) :
      Performs (.sendApdu apdu respCap frameTimeoutMs next) (.sent apdu received :: ops) result
  /-- The rounds and the response that is put together from them are what the card makes of them. -/
  | sendFollowed {apdu : Frame} {respCap : Nat} {next : Received → Relay α} {ops : List Op} {result : α}
      (received : Received) (rounds : List (Frame × Received)) (hrounds : ∀ x ∈ rounds, IsContinuation x.1)
      (total : Received) (rest : Performs (next total) ops result) :
      Performs (.sendFollowed apdu respCap next)
        (.sent apdu received :: (rounds.map (fun x => Op.sent x.1 x.2) ++ ops)) result
  | recoverSession {next : Bool → Relay α} {ops : List Op} {result : α} (ok : Bool)
      (rest : Performs (next ok) ops result) : Performs (.recoverSession next) (.recovered ok :: ops) result
  | ccidAbortPending {next : Bool → Relay α} {ops : List Op} {result : α} (pending : Bool)
      (rest : Performs (next pending) ops result) :
      Performs (.ccidAbortPending next) (.abortLooked pending :: ops) result
  | probeCanUpgradeCid {next : Bool → Relay α} {ops : List Op} {result : α} (can : Bool)
      (rest : Performs (next can) ops result) : Performs (.probeCanUpgradeCid next) (.probed can :: ops) result

/-- Every APDU the program can send is allowed. -/
def Only (allowed : Frame → Prop) : Relay α → Prop
  | .done _ => True
  | .sendApdu apdu _ _ next => allowed apdu ∧ ∀ received, (next received).Only allowed
  | .sendFollowed apdu _ next =>
      allowed apdu ∧ (∀ more, IsContinuation more → allowed more) ∧ ∀ received, (next received).Only allowed
  | .recoverSession next => ∀ ok, (next ok).Only allowed
  | .ccidAbortPending next => ∀ pending, (next pending).Only allowed
  | .probeCanUpgradeCid next => ∀ can, (next can).Only allowed

variable {allowed : Frame → Prop}

theorem only_bind {program : Relay α} {next : α → Relay β} (hfirst : program.Only allowed)
    (hrest : ∀ result, (next result).Only allowed) : (program >>= next).Only allowed := by
  change (program.bind next).Only allowed
  induction program with
  | done result => exact hrest result
  | sendApdu apdu respCap timeout k ih => exact ⟨hfirst.1, fun received => ih received (hfirst.2 received)⟩
  | sendFollowed apdu respCap k ih =>
      exact ⟨hfirst.1, hfirst.2.1, fun received => ih received (hfirst.2.2 received)⟩
  | recoverSession k ih => exact fun ok => ih ok (hfirst ok)
  | ccidAbortPending k ih => exact fun pending => ih pending (hfirst pending)
  | probeCanUpgradeCid k ih => exact fun can => ih can (hfirst can)

theorem only_pure (result : α) : (pure result : Relay α).Only allowed := trivial

theorem only_ite {c : Prop} [Decidable c] {program other : Relay α} (hyes : c → program.Only allowed)
    (hno : ¬c → other.Only allowed) : (if c then program else other).Only allowed := by
  by_cases h : c
  · rw [if_pos h]
    exact hyes h
  · rw [if_neg h]
    exact hno h

/-- What a run sends is allowed. -/
theorem Performs.only {program : Relay α} {ops : List Op} {result : α} (h : program.Performs ops result)
    (honly : program.Only allowed) : ∀ apdu received, Op.sent apdu received ∈ ops → allowed apdu := by
  induction h with
  | done result => simp
  | sendApdu received rest ih =>
      intro apdu r hmem
      rcases List.mem_cons.mp hmem with heq | hmem
      · exact (Op.sent.inj heq).1 ▸ honly.1
      · exact ih (honly.2 received) apdu r hmem
  | sendFollowed received rounds hrounds total rest ih =>
      intro apdu r hmem
      rcases List.mem_cons.mp hmem with heq | hmem
      · exact (Op.sent.inj heq).1 ▸ honly.1
      rcases List.mem_append.mp hmem with hround | hmem
      · obtain ⟨x, hx, heq⟩ := List.mem_map.mp hround
        exact (Op.sent.inj heq).1 ▸ honly.2.1 _ (hrounds x hx)
      · exact ih (honly.2.2 total) apdu r hmem
  | recoverSession ok rest ih =>
      intro apdu r hmem
      exact ih (honly ok) apdu r ((List.mem_cons.mp hmem).resolve_left (by simp))
  | ccidAbortPending pending rest ih =>
      intro apdu r hmem
      exact ih (honly pending) apdu r ((List.mem_cons.mp hmem).resolve_left (by simp))
  | probeCanUpgradeCid can rest ih =>
      intro apdu r hmem
      exact ih (honly can) apdu r ((List.mem_cons.mp hmem).resolve_left (by simp))

/-- Every result of the program is in `post`, if every response of the card is in `source`. -/
def Gives (source : Frame → Prop) (post : α → Prop) : Relay α → Prop
  | .done result => post result
  | .sendApdu _ _ _ next => ∀ received, source (bytes received) → (next received).Gives source post
  | .sendFollowed _ _ next => ∀ received, (next received).Gives source post
  | .recoverSession next => ∀ ok, (next ok).Gives source post
  | .ccidAbortPending next => ∀ pending, (next pending).Gives source post
  | .probeCanUpgradeCid next => ∀ can, (next can).Gives source post

variable {source : Frame → Prop} {mid : α → Prop} {post : β → Prop}

theorem gives_bind {program : Relay α} {next : α → Relay β} (hfirst : program.Gives source mid)
    (hrest : ∀ result, mid result → (next result).Gives source post) : (program >>= next).Gives source post := by
  change (program.bind next).Gives source post
  induction program with
  | done result => exact hrest result hfirst
  | sendApdu apdu respCap timeout k ih => exact fun received h => ih received (hfirst received h)
  | sendFollowed apdu respCap k ih => exact fun received => ih received (hfirst received)
  | recoverSession k ih => exact fun ok => ih ok (hfirst ok)
  | ccidAbortPending k ih => exact fun pending => ih pending (hfirst pending)
  | probeCanUpgradeCid k ih => exact fun can => ih can (hfirst can)

theorem gives_pure {result : β} (h : post result) : (pure result : Relay β).Gives source post := h

theorem gives_trivial (program : Relay α) : program.Gives source fun _ => True := by
  induction program with
  | done result => trivial
  | sendApdu apdu respCap timeout k ih => exact fun received _ => ih received
  | sendFollowed apdu respCap k ih => exact ih
  | recoverSession k ih => exact ih
  | ccidAbortPending k ih => exact ih
  | probeCanUpgradeCid k ih => exact ih

theorem Gives.mono {program : Relay α} {post : α → Prop} (h : program.Gives source mid)
    (himp : ∀ result, mid result → post result) : program.Gives source post := by
  induction program with
  | done result => exact himp result h
  | sendApdu apdu respCap timeout k ih => exact fun received hsource => ih received (h received hsource)
  | sendFollowed apdu respCap k ih => exact fun received => ih received (h received)
  | recoverSession k ih => exact fun ok => ih ok (h ok)
  | ccidAbortPending k ih => exact fun pending => ih pending (h pending)
  | probeCanUpgradeCid k ih => exact fun can => ih can (h can)

/-- The result of a run, with the responses it has received as the source. -/
theorem Performs.gives {program : Relay α} {ops : List Op} {result : α} (h : program.Performs ops result)
    (hgives : program.Gives source mid)
    (hsource : ∀ apdu received, Op.sent apdu received ∈ ops → source (bytes received)) : mid result := by
  induction h with
  | done result => exact hgives
  | sendApdu received rest ih =>
      exact ih (hgives received (hsource _ _ List.mem_cons_self)) fun apdu r hr =>
        hsource apdu r (List.mem_cons_of_mem _ hr)
  | sendFollowed received rounds hrounds total rest ih =>
      exact ih (hgives total) fun apdu r hr => hsource apdu r (List.mem_cons_of_mem _ (List.mem_append_right _ hr))
  | recoverSession ok rest ih => exact ih (hgives ok) fun apdu r hr => hsource apdu r (List.mem_cons_of_mem _ hr)
  | ccidAbortPending pending rest ih =>
      exact ih (hgives pending) fun apdu r hr => hsource apdu r (List.mem_cons_of_mem _ hr)
  | probeCanUpgradeCid can rest ih => exact ih (hgives can) fun apdu r hr => hsource apdu r (List.mem_cons_of_mem _ hr)

/-- A run of two programs in sequence splits between them. -/
theorem performs_bind {program : Relay α} {next : α → Relay β} {ops : List Op} {result : β}
    (h : (program >>= next).Performs ops result) :
    ∃ mid first rest, ops = first ++ rest ∧ program.Performs first mid ∧ (next mid).Performs rest result := by
  change (program.bind next).Performs ops result at h
  induction program generalizing ops with
  | done value => exact ⟨value, [], ops, rfl, .done value, h⟩
  | sendApdu apdu respCap timeout k ih =>
      cases h with
      | sendApdu received rest =>
          obtain ⟨mid, first, ops', rfl, hfirst, hrest⟩ := ih received rest
          exact ⟨mid, _ :: first, ops', rfl, .sendApdu received hfirst, hrest⟩
  | sendFollowed apdu respCap k ih =>
      cases h with
      | sendFollowed received rounds hrounds total rest =>
          obtain ⟨mid, first, ops', rfl, hfirst, hrest⟩ := ih total rest
          exact ⟨mid, _ :: (_ ++ first), ops', by rw [← List.append_assoc]; rfl,
            .sendFollowed received rounds hrounds total hfirst, hrest⟩
  | recoverSession k ih =>
      cases h with
      | recoverSession ok rest =>
          obtain ⟨mid, first, ops', rfl, hfirst, hrest⟩ := ih ok rest
          exact ⟨mid, _ :: first, ops', rfl, .recoverSession ok hfirst, hrest⟩
  | ccidAbortPending k ih =>
      cases h with
      | ccidAbortPending pending rest =>
          obtain ⟨mid, first, ops', rfl, hfirst, hrest⟩ := ih pending rest
          exact ⟨mid, _ :: first, ops', rfl, .ccidAbortPending pending hfirst, hrest⟩
  | probeCanUpgradeCid k ih =>
      cases h with
      | probeCanUpgradeCid can rest =>
          obtain ⟨mid, first, ops', rfl, hfirst, hrest⟩ := ih can rest
          exact ⟨mid, _ :: first, ops', rfl, .probeCanUpgradeCid can hfirst, hrest⟩

theorem performs_pure {result value : α} {ops : List Op} (h : (pure value : Relay α).Performs ops result) :
    ops = [] ∧ result = value := by
  change (Relay.done value).Performs ops result at h
  cases h
  exact ⟨rfl, rfl⟩

end Relay

open Relay

/-! ### What the relay sends -/

/-- A SELECT of the FIDO application that the relay builds. -/
def IsOwnSelect (apdu : Frame) : Prop := ∃ variant, apdu = buildSelectFidoApdu variant

variable {allowed : Frame → Prop}

theorem sendApdu_only {apdu : Frame} (h : allowed apdu) (respCap timeout : Nat) :
    (sendApdu apdu respCap timeout).Only allowed := ⟨h, fun _ => trivial⟩

theorem recoverSession_only : recoverSession.Only allowed := fun _ => trivial
theorem ccidAbortPending_only : ccidAbortPending.Only allowed := fun _ => trivial
theorem probeCanUpgradeCid_only : probeCanUpgradeCid.Only allowed := fun _ => trivial

theorem selectAppEx_only (h : ∀ apdu, IsOwnSelect apdu → allowed apdu) (variant : Byte × Bool) (rspCap : Nat) :
    (selectAppEx variant rspCap).Only allowed := by
  have hsend := sendApdu_only (h _ ⟨variant, rfl⟩) selectRespBufLen shortFrameMs
  refine only_bind ccidAbortPending_only fun pending => ?_
  split
  · exact only_pure _
  refine only_bind hsend fun resp => ?_
  split
  · exact only_pure _
  refine only_bind probeCanUpgradeCid_only fun can => ?_
  split
  · refine only_bind recoverSession_only fun ok => ?_
    split
    · refine only_bind ccidAbortPending_only fun pending => ?_
      split
      · exact only_pure _
      · exact only_bind hsend fun _ => only_pure _
    · exact only_pure _
  · exact only_pure _

theorem selectVariants_only (h : ∀ apdu, IsOwnSelect apdu → allowed apdu) (rspCap : Nat) :
    ∀ (variants : List (Byte × Bool)) (rsp : Frame), (selectVariants rspCap variants rsp).Only allowed
  | [], _ => only_pure _
  | variant :: variants, rsp => by
      refine only_bind (selectAppEx_only h variant rspCap) fun selected => ?_
      dsimp only
      split
      · exact only_pure _
      · exact selectVariants_only h rspCap variants _

theorem relaySelectWithRecovery_only {apdu : Frame} (happdu : allowed apdu)
    (h : ∀ apdu, IsOwnSelect apdu → allowed apdu) (rspCap : Nat) :
    (relaySelectWithRecovery apdu rspCap).Only allowed := by
  have hsend := sendApdu_only happdu rspCap shortFrameMs
  have hfallback : (relaySelectWithRecovery.fallback rspCap).Only allowed :=
    only_bind (selectVariants_only h rspCap _ _) fun _ => only_pure _
  refine only_bind hsend fun resp => ?_
  split
  · exact only_pure _
  refine only_bind recoverSession_only fun ok => ?_
  split
  · refine only_bind hsend fun resp => ?_
    split
    · exact only_pure _
    · exact hfallback
  · exact hfallback

theorem selectSteps_only (h : ∀ apdu, IsOwnSelect apdu → allowed apdu) (rspCap : Nat) :
    ∀ steps : List ((Byte × Bool) × SelectPrep), (selectSteps rspCap steps).Only allowed
  | [] => only_pure _
  | (variant, .recover) :: steps => by
      refine only_bind recoverSession_only fun ok => ?_
      split
      · refine only_bind (selectAppEx_only h variant rspCap) fun selected => ?_
        split
        · exact only_pure _
        · exact selectSteps_only h rspCap steps
      · exact only_pure _
  | (variant, .none) :: steps => by
      refine only_bind (selectAppEx_only h variant rspCap) fun selected => ?_
      split
      · exact only_pure _
      · exact selectSteps_only h rspCap steps
  | (variant, .settle) :: steps => by
      refine only_bind (selectAppEx_only h variant rspCap) fun selected => ?_
      split
      · exact only_pure _
      · exact selectSteps_only h rspCap steps

theorem ctapExchange_only {apdu : Frame} (happdu : allowed apdu) (h : ∀ apdu, IsOwnSelect apdu → allowed apdu)
    (rspCap : Nat) (ctapCmd : Byte) : (ctapExchange apdu rspCap ctapCmd).Only allowed := by
  have hsend := sendApdu_only happdu rspCap (ctapTimeoutForCommand ctapCmd)
  refine only_bind hsend fun total => ?_
  split
  · exact only_pure _
  refine only_bind recoverSession_only fun ok => ?_
  split
  · refine only_bind (selectSteps_only h rspCap webauthnSelectSteps) fun selected => ?_
    split
    · exact only_bind hsend fun _ => only_pure _
    · exact only_pure _
  · exact only_pure _

theorem plainExchange_only {apdu : Frame} (happdu : allowed apdu) (rspCap : Nat) :
    (plainExchange apdu rspCap).Only allowed :=
  only_bind (sendApdu_only happdu rspCap relayExchangeTimeoutMs) fun _ => only_pure _

/-- **The relay sends the APDU of the host and SELECTs of the FIDO application.** -/
theorem apduExchange_only {apdu : Frame} (happdu : allowed apdu) (h : ∀ apdu, IsOwnSelect apdu → allowed apdu)
    (rspCap : Nat) : (apduExchange apdu rspCap).Only allowed := by
  unfold apduExchange
  split
  · exact only_pure _
  split
  · refine only_bind (relaySelectWithRecovery_only happdu h rspCap) fun rsp => ?_
    cases rsp <;> exact only_pure _
  split
  · exact ctapExchange_only happdu h rspCap _
  · exact plainExchange_only happdu rspCap

/-- An APDU that is neither a SELECT of the FIDO application nor an NFCCTAP message is all that is sent. -/
theorem apduExchange_only_plain {apdu : Frame} (happdu : allowed apdu) (hselect : apduIsSelectFidoAid apdu = false)
    (hctap : ctapApduCommand apdu = none) (rspCap : Nat) : (apduExchange apdu rspCap).Only allowed := by
  unfold apduExchange
  split
  · exact only_pure _
  rw [if_neg (by simp [hselect]), hctap]
  exact plainExchange_only happdu rspCap

/-! ### What the relay answers -/

section Answers

variable {source : Frame → Prop}

/-- A response of the card in full, or a status word of the relay's own. -/
def Answer (source : Frame → Prop) (rsp : Frame) : Prop :=
  2 ≤ rsp.length ∧ source rsp ∨ rsp = abortSw ∨ rsp = [0x6F, 0x00]

theorem sendApdu_gives (apdu : Frame) (respCap timeout : Nat) : (sendApdu apdu respCap timeout).Gives source source :=
  fun _ h => h

theorem recoverSession_gives : recoverSession.Gives source fun _ => True := fun _ => trivial
theorem ccidAbortPending_gives : ccidAbortPending.Gives source fun _ => True := fun _ => trivial
theorem probeCanUpgradeCid_gives : probeCanUpgradeCid.Gives source fun _ => True := fun _ => trivial

/-- What a SELECT attempt writes to the buffer of the response. -/
def Wrote (source : Frame → Prop) (selected : Selected) : Prop := ∀ rsp, selected.rsp = some rsp → Answer source rsp

theorem selectAborted_wrote (rspCap : Nat) : Wrote source (selectAborted rspCap) := by
  intro rsp h
  rw [selectAborted] at h
  dsimp only at h
  split at h
  · exact Or.inr (Or.inl (Option.some.inj h).symm)
  · cases h

theorem selectAnswered_wrote {resp : Frame} (hresp : source resp) (rspCap : Nat) :
    Wrote source (selectAnswered rspCap resp) := by
  intro rsp h
  rw [selectAnswered] at h
  dsimp only at h
  split at h
  next hlen =>
    obtain rfl := Option.some.inj h
    exact Or.inl ⟨hlen.1, hresp⟩
  next => cases h

theorem selectAppEx_gives (variant : Byte × Bool) (rspCap : Nat) :
    (selectAppEx variant rspCap).Gives source (Wrote source) := by
  refine gives_bind ccidAbortPending_gives fun pending _ => ?_
  split
  · exact gives_pure (selectAborted_wrote rspCap)
  refine gives_bind (sendApdu_gives _ _ _) fun resp hresp => ?_
  split
  · exact gives_pure (selectAnswered_wrote hresp rspCap)
  refine gives_bind probeCanUpgradeCid_gives fun can _ => ?_
  split
  · refine gives_bind recoverSession_gives fun ok _ => ?_
    split
    · refine gives_bind ccidAbortPending_gives fun pending _ => ?_
      split
      · exact gives_pure (selectAborted_wrote rspCap)
      · exact gives_bind (sendApdu_gives _ _ _) fun resp hresp => gives_pure (selectAnswered_wrote hresp rspCap)
    · exact gives_pure (selectAnswered_wrote hresp rspCap)
  · exact gives_pure (selectAnswered_wrote hresp rspCap)

theorem selectVariants_gives (rspCap : Nat) : ∀ (variants : List (Byte × Bool)) (rsp : Frame),
    (2 ≤ rsp.length → Answer source rsp) →
      (selectVariants rspCap variants rsp).Gives source fun r => 2 ≤ r.2.length → Answer source r.2
  | [], _, h => gives_pure h
  | variant :: variants, rsp, h => by
      refine gives_bind (selectAppEx_gives variant rspCap) fun selected hselected => ?_
      have hnext : 2 ≤ (selected.rsp.getD rsp).length → Answer source (selected.rsp.getD rsp) := by
        intro hlen
        cases hrsp : selected.rsp with
        | none =>
            rw [hrsp] at hlen
            exact h hlen
        | some written => exact hselected written hrsp
      dsimp only
      split
      · exact gives_pure hnext
      · exact selectVariants_gives rspCap variants _ hnext

/-- A response, unless it is too short to be one. -/
def Answered (source : Frame → Prop) (rsp : Frame) : Prop := 2 ≤ rsp.length → Answer source rsp

theorem answered_of_source {rsp : Frame} (h : source rsp) : Answered source rsp := fun hlen => Or.inl ⟨hlen, h⟩

theorem relayFailureResponse_answered (rspCap : Nat) : Answered source (relayFailureResponse rspCap) := by
  intro hlen
  rw [relayFailureResponse] at hlen ⊢
  split at hlen
  · cases hlen
  next hcap =>
    rw [if_neg hcap]
    exact Or.inr (Or.inr rfl)

theorem relaySelectWithRecovery_gives (apdu : Frame) (rspCap : Nat) :
    (relaySelectWithRecovery apdu rspCap).Gives source fun r => ∀ rsp, r = some rsp → Answered source rsp := by
  have hsome {resp : Frame} (h : Answered source resp) : ∀ rsp, some resp = some rsp → Answered source rsp :=
    fun _ heq => Option.some.inj heq ▸ h
  have hfallback : (relaySelectWithRecovery.fallback rspCap).Gives source
      fun r => ∀ rsp, r = some rsp → Answered source rsp := by
    refine gives_bind (selectVariants_gives rspCap _ [] (fun h => absurd h (by decide))) fun r hr => gives_pure ?_
    intro rsp h
    split at h
    · exact Option.some.inj h ▸ hr
    · cases h
  refine gives_bind (sendApdu_gives _ _ _) fun resp hresp => ?_
  split
  · exact gives_pure (hsome (answered_of_source hresp))
  refine gives_bind recoverSession_gives fun ok _ => ?_
  split
  · refine gives_bind (sendApdu_gives _ _ _) fun resp hresp => ?_
    split
    · exact gives_pure (hsome (answered_of_source hresp))
    · exact hfallback
  · exact hfallback

theorem ctapExchange_gives (apdu : Frame) (rspCap : Nat) (ctapCmd : Byte) :
    (ctapExchange apdu rspCap ctapCmd).Gives source (Answered source) := by
  have hrelayed {total : Frame} (h : source total) : Answered source (ctapExchange.relayed rspCap total) := by
    rw [ctapExchange.relayed]
    split
    · exact answered_of_source h
    · exact relayFailureResponse_answered rspCap
  refine gives_bind (sendApdu_gives _ _ _) fun total htotal => ?_
  split
  · exact gives_pure (hrelayed htotal)
  refine gives_bind recoverSession_gives fun ok _ => ?_
  split
  · refine gives_bind (gives_trivial _) fun selected _ => ?_
    split
    · exact gives_bind (sendApdu_gives _ _ _) fun total htotal => gives_pure (hrelayed htotal)
    · exact gives_pure (hrelayed htotal)
  · exact gives_pure (hrelayed htotal)

theorem plainExchange_gives (apdu : Frame) (rspCap : Nat) :
    (plainExchange apdu rspCap).Gives source (Answered source) := by
  refine gives_bind (sendApdu_gives _ _ _) fun total htotal => gives_pure ?_
  split
  · exact relayFailureResponse_answered rspCap
  · exact answered_of_source htotal

/-- **The relay answers with a response of the card or with a status word of its own.** -/
theorem apduExchange_gives (apdu : Frame) (rspCap : Nat) :
    (apduExchange apdu rspCap).Gives source (Answered source) := by
  rw [apduExchange]
  split
  · exact gives_pure fun h => absurd h (by decide)
  split
  · refine gives_bind (relaySelectWithRecovery_gives apdu rspCap) fun r hr => ?_
    cases r with
    | none => exact gives_pure (relayFailureResponse_answered rspCap)
    | some rsp => exact gives_pure (hr rsp rfl)
  split
  · exact ctapExchange_gives apdu rspCap _
  · exact plainExchange_gives apdu rspCap

end Answers

end NeroReader.SecurityKey
