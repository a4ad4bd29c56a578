import NeroReader.IsoDepRounds

/-!
What an exchange with GET RESPONSE rounds returns, against the responses received in its rounds. A
loop drops the status word of the response before it asks for the next one, so a round that fails
leaves the exchange with bodies and no status word.
-/

namespace NeroReader.IsoDep

/-! ### Responses and rounds -/

def bodyOf (resp : Frame) : Frame := resp.take (resp.length - 2)
def swOf (resp : Frame) : Frame := resp.drop (resp.length - 2)

/-- The bodies of the responses in order, and the status word of the last one. -/
def assembled (responses : List Frame) : Frame :=
  responses.flatMap bodyOf ++ (responses.getLast?.map swOf).getD []

theorem assembled_concat (done : List Frame) (resp : Frame) :
    assembled (done ++ [resp]) = done.flatMap bodyOf ++ resp := by
  simp only [assembled, List.flatMap_append, List.flatMap_singleton, List.getLast?_append,
    List.getLast?_singleton, Option.some_or, Option.map_some, Option.getD_some, List.append_assoc,
    bodyOf, swOf, List.take_append_drop]

/-- The responses received in the rounds: those of the rounds that brought a status word. -/
def responses (rounds : List RoundRun) : List Frame :=
  (rounds.filter fun rr => decide rr.Complete).map RoundRun.response

/-- A result of at least a status word is the assembled response. -/
def Whole (responses : List Frame) : Received → Prop
  | .ok resp => resp.length < 2 ∨ resp = assembled responses
  | .err _ => True

instance (responses : List Frame) (received : Received) : Decidable (Whole responses received) :=
  match received with
  | .ok resp => inferInstanceAs (Decidable (resp.length < 2 ∨ resp = assembled responses))
  | .err _ => .isTrue trivial

/-- The last round brought no response, and less than a status word was kept in front of it. -/
def EndsShort (rounds : List RoundRun) : Prop :=
  ∃ rr, rounds.getLast? = some rr ∧ ¬rr.Complete ∧ rr.round.kept.length < 2

/-- No round fails, unless the exchange ends there with less than a status word. -/
def Continued (rounds : List RoundRun) : Prop := (∀ rr ∈ rounds, rr.Complete) ∨ EndsShort rounds

/-- The last look for a CRC leaves the bytes it ends with. -/
def Settled (resp : Frame) (rounds : List RoundRun) : Prop :=
  match rounds.getLast? with
  | none => trimCrcSuffix resp = resp
  | some rr => rr.Complete → trimCrcSuffix (rr.round.kept ++ rr.response) = rr.round.kept ++ rr.response

instance (resp : Frame) (rounds : List RoundRun) : Decidable (Settled resp rounds) :=
  match h : rounds.getLast? with
  | none => decidable_of_iff (trimCrcSuffix resp = resp) (by simp only [Settled, h])
  | some rr => decidable_of_iff
      (rr.Complete → trimCrcSuffix (rr.round.kept ++ rr.response) = rr.round.kept ++ rr.response)
      (by simp only [Settled, h])

/-- The framing heuristics read every response of the exchange as the card sent it. -/
structure FramingExact (x : ApduCall) (rounds : List RoundRun) : Prop where
  each : ∀ rr ∈ rounds, rr.Complete → rr.FramingExact x
  settled : Settled [] rounds

theorem responses_cons_complete {rr : RoundRun} (h : rr.Complete) (rest : List RoundRun) :
    responses (rr :: rest) = rr.response :: responses rest := by
  simp only [responses, List.filter_cons, decide_eq_true h, if_true, List.map_cons]

theorem responses_cons_incomplete {rr : RoundRun} (h : ¬rr.Complete) (rest : List RoundRun) :
    responses (rr :: rest) = responses rest := by
  simp only [responses, List.filter_cons, decide_eq_false h, Bool.false_eq_true, if_false]

theorem settled_cons_complete {resp : Frame} {rr : RoundRun} (h : rr.Complete) {rest : List RoundRun}
    (hsettled : Settled resp (rr :: rest)) : Settled (rr.round.kept ++ rr.response) rest := by
  cases rest with
  | nil => exact hsettled h
  | cons next rest => exact hsettled

theorem endsShort_cons {rr next : RoundRun} {rest : List RoundRun} :
    EndsShort (rr :: next :: rest) ↔ EndsShort (next :: rest) := Iff.rfl

theorem endsShort_singleton {rr : RoundRun} :
    EndsShort [rr] ↔ ¬rr.Complete ∧ rr.round.kept.length < 2 := by
  constructor
  · rintro ⟨_, ⟨⟩, h⟩
    exact h
  · intro h
    exact ⟨rr, rfl, h⟩

theorem endsShort_nil : ¬EndsShort [] := nofun

/-! ### The count of bytes -/

/-- What the loops hold behind these responses: the assembled response, or less than it once a round
has failed. -/
structure Tally (done : List Frame) (whole : Prop) (resp : Frame) : Prop where
  holds : whole → resp = assembled done
  short : ¬whole → resp.length < (assembled done).length
  statusWord : 2 ≤ resp.length
  last : ∃ earlier final, done = earlier ++ [final] ∧ 2 ≤ final.length

namespace Tally

variable {done : List Frame} {whole : Prop} {resp : Frame}

theorem length_le (t : Tally done whole resp) : resp.length ≤ (assembled done).length := by
  by_cases h : whole
  · exact (congrArg List.length (t.holds h)).le
  · exact (t.short h).le

/-- A complete round behind the kept bytes. -/
theorem next (t : Tally done whole resp) {final : Frame} (hfinal : 2 ≤ final.length) :
    Tally (done ++ [final]) whole (bodyOf resp ++ final) where
  holds := by
    intro h
    obtain ⟨earlier, final', rfl, hlen⟩ := t.last
    rw [assembled_concat, t.holds h, assembled_concat]
    congr 1
    rw [List.flatMap_append, List.flatMap_singleton, bodyOf, List.length_append,
      Nat.add_sub_assoc hlen, List.take_length_add_append, bodyOf]
  short := by
    intro h
    obtain ⟨earlier, final', rfl, hlen⟩ := t.last
    have := t.short h
    rw [assembled_concat, List.length_append] at this
    have h2 := t.statusWord
    simp only [assembled_concat, List.length_append, List.flatMap_append, List.flatMap_singleton, bodyOf,
      List.length_take]
    omega
  statusWord := by
    rw [List.length_append]
    omega
  last := ⟨done, final, rfl, hfinal⟩

/-- A failed round leaves the kept bytes, which are too few. -/
theorem failed (t : Tally done whole resp) (hkept : 2 ≤ (bodyOf resp).length) :
    Tally done False (bodyOf resp) where
  holds := False.elim
  short := by
    intro _
    have := t.length_le
    have h2 := t.statusWord
    simp only [bodyOf, List.length_take] at hkept ⊢
    omega
  statusWord := hkept
  last := t.last

end Tally

theorem trimCrcSuffix_length_le (resp : Frame) : (trimCrcSuffix resp).length ≤ resp.length := by
  rcases trimCrcSuffix_cases resp with h | ⟨-, h⟩
  · exact (congrArg List.length h).le
  · rw [h, List.length_take]
    omega

theorem two_le_trimCrcSuffix {resp : Frame} (hlen : 2 ≤ resp.length) :
    2 ≤ (trimCrcSuffix resp).length := by
  rcases trimCrcSuffix_cases resp with h | ⟨h4, h⟩
  · rw [h]
    exact hlen
  · rw [h, List.length_take]
    omega

namespace ApduCall

variable {x : ApduCall}

/-- What a complete round appends, once the trim has looked at it. -/
theorem appended_of_complete (round : Round) {blockNum : Byte} {apdu : Frame} {respCap : Nat}
    {answers : List Answer} {r : Returned} {more : Frame}
    (hround : (sendIBlock (x.roundCall blockNum apdu respCap) answers).final = .stop r)
    (hmore : r.received = .ok more) (hlen : 2 ≤ more.length)
    (hexact : (RoundRun.mk round (sendIBlock (x.roundCall blockNum apdu respCap) answers).trace
      r).FramingExact x) :
    trimCrcSuffix (round.kept ++ more) =
      round.kept ++ cardResponse (sendIBlock (x.roundCall blockNum apdu respCap) answers).trace := by
  obtain ⟨received, blockNum'⟩ := r
  cases hmore
  have hoff : OffsetsExact (x.roundCall blockNum apdu respCap).session
      (sendIBlock (x.roundCall blockNum apdu respCap) answers).trace := hexact.offsets
  rw [sendIBlock_collects hround hlen hoff]
  exact hexact.trim

/-- **The run of the loops.** From a loop head the exchange ends with bytes that are the assembled
response exactly when they were before and no round fails. -/
theorem tally_exchanged (hroom : x.command.call.fragCap ≠ 0) {act : ApduAction} {answers : List Answer}
    {rounds : List RoundRun} {r : Returned} (h : Exchanged x act answers rounds r) :
    ∀ {resp : Frame} {done : List Frame} {whole : Prop}, LoopHead x resp act → Tally done whole resp →
      (∀ rr ∈ rounds, rr.Complete → rr.FramingExact x) → (whole → Settled resp rounds) →
      (Whole (done ++ responses rounds) r.received ↔
        (whole ∧ ∀ rr ∈ rounds, rr.Complete) ∨ EndsShort rounds) := by
  induction h with
  | stop r answers =>
      intro resp done whole hhead t _ hsettled
      rcases loopHead_cases hroom hhead with ⟨blockNum, hact⟩ | ⟨-, _, -, -, _, _, _, _, _, hact, -⟩
      · cases hact
        have htwo := two_le_trimCrcSuffix t.statusWord
        have hle := trimCrcSuffix_length_le resp
        simp only [responses, List.filter_nil, List.map_nil, List.append_nil, List.not_mem_nil,
          false_implies, implies_true, and_true, endsShort_nil, or_false, Whole]
        by_cases hwhole : whole
        · exact iff_of_true (Or.inr ((hsettled hwhole).trans (t.holds hwhole))) hwhole
        · refine iff_of_false (not_or.mpr ⟨by omega, fun heq => ?_⟩) hwhole
          have := t.short hwhole
          rw [← heq] at this
          omega
      · cases hact
  | @round q s round blockNum apdu respCap answers r₀ r rounds hstart hround hrest ih =>
      intro resp done whole hhead t hexact hsettled
      rcases loopHead_cases hroom hhead with ⟨_, hact⟩ | ⟨-, round', hne, hkept, _, _, _, _, _, hact, -⟩
      · cases hact
      cases hact
      have hbody : round.kept = bodyOf resp := hkept
      generalize hrr : RoundRun.mk round (sendIBlock (x.roundCall blockNum apdu respCap) answers).trace r₀
        = rr at hexact hsettled ⊢
      have hrr_round : rr.round = round := hrr ▸ rfl
      have hrr_received : rr.returned = r₀ := hrr ▸ rfl
      rcases loopHead_onReturned (x := x) hne r₀ with ⟨more, hmore, hlen, hnext⟩ | ⟨hshort, hnext⟩
      · have hcomplete : rr.Complete := by
          rw [RoundRun.Complete, hrr_received, hmore]
          exact hlen
        have hframing := hexact rr (List.mem_cons_self ..) hcomplete
        have happended : trimCrcSuffix (round.kept ++ more) = round.kept ++ rr.response := by
          subst hrr
          exact appended_of_complete round hround hmore hlen hframing
        rw [happended, hbody] at hnext
        have hstep := ih hnext (t.next hframing.statusWord)
          (fun rr' hrr' => hexact rr' (List.mem_cons_of_mem _ hrr'))
          (fun hwhole => by
            have := settled_cons_complete hcomplete (hsettled hwhole)
            rwa [hrr_round, hbody] at this)
        rw [responses_cons_complete hcomplete, List.append_cons, hstep]
        cases rounds with
        | nil => simp [endsShort_nil, endsShort_singleton, hcomplete]
        | cons next rest => simp [endsShort_cons, hcomplete]
      · have hincomplete : ¬rr.Complete := by
          intro hcomplete
          rw [RoundRun.Complete, hrr_received] at hcomplete
          split at hcomplete
          · rename_i heq
            exact absurd hcomplete (Nat.not_le_of_lt (hshort _ heq))
          · exact hcomplete
        rw [responses_cons_incomplete hincomplete]
        by_cases hkept2 : 2 ≤ (bodyOf resp).length
        · rw [hbody] at hnext
          rw [ih hnext (t.failed hkept2) (fun rr' hrr' => hexact rr' (List.mem_cons_of_mem _ hrr'))
            False.elim]
          cases rounds with
          | nil =>
              rw [← hbody, ← hrr_round] at hkept2
              have hopen : ¬EndsShort [rr] := fun h =>
                absurd (endsShort_singleton.mp h).2 (Nat.not_lt.mpr hkept2)
              simp [endsShort_nil, hincomplete, hopen]
          | cons next rest => simp [endsShort_cons, hincomplete]
        · -- nothing goes on behind less than a status word
          obtain ⟨blockNum', hfinish⟩ := loopHead_short (by omega) (hbody ▸ hnext)
          rw [hfinish] at hrest
          obtain ⟨rfl, rfl⟩ := exchanged_stop hrest
          have hle := trimCrcSuffix_length_le (bodyOf resp)
          refine iff_of_true (Or.inl (by omega)) (Or.inr (endsShort_singleton.mpr ⟨hincomplete, ?_⟩))
          rw [hrr_round, hbody]
          omega

/-- The command's round: a complete one leaves its response to the loops. -/
theorem whole_command (hroom : x.command.call.fragCap ≠ 0) {answers : List Answer}
    {rounds : List RoundRun} {r r₀ : Returned} {rr : RoundRun}
    (hrr : rr = ⟨.command, (sendIBlock x.command.call answers).trace, r₀⟩)
    (hround : (sendIBlock x.command.call answers).final = .stop r₀)
    (hrest : Exchanged x (x.onReturned .command r₀) (sendIBlock x.command.call answers).rest rounds r)
    (hexact : FramingExact x (rr :: rounds)) :
    Whole (responses (rr :: rounds)) r.received ↔ Continued (rr :: rounds) := by
  have hkept : rr.round.kept = [] := hrr ▸ rfl
  have hreturned : rr.returned = r₀ := hrr ▸ rfl
  obtain ⟨received, blockNum⟩ := r₀
  by_cases hcomplete : rr.Complete
  · obtain ⟨more, rfl, hlen⟩ : ∃ more, received = .ok more ∧ 2 ≤ more.length := by
      rw [RoundRun.Complete, hreturned] at hcomplete
      cases received with
      | ok more => exact ⟨more, rfl, hcomplete⟩
      | err code => exact hcomplete.elim
    have hframing := hexact.each rr (List.mem_cons_self ..) hcomplete
    have happended : trimCrcSuffix more = rr.response := by
      have := appended_of_complete .command hround rfl hlen (hrr ▸ hframing)
      rw [hrr]
      exact this
    rw [onReturned_command_ok, swStatusWordLen, if_neg (Nat.not_lt_of_le hlen), happended] at hrest
    have htally : Tally [rr.response] True rr.response :=
      ⟨fun _ => (assembled_concat [] rr.response).symm, fun h => (h trivial).elim, hframing.statusWord,
        [], rr.response, rfl, hframing.statusWord⟩
    have hrun := tally_exchanged hroom hrest ⟨blockNum, Or.inl rfl⟩ htally
      (fun rr' hrr' => hexact.each rr' (List.mem_cons_of_mem _ hrr'))
      (fun _ => by
        have := settled_cons_complete hcomplete hexact.settled
        rwa [hkept, List.nil_append] at this)
    rw [responses_cons_complete hcomplete]
    refine hrun.trans ?_
    cases rounds with
    | nil => simp [Continued, endsShort_nil, hcomplete]
    | cons next rest => simp [Continued, endsShort_cons, hcomplete]
  · -- the exchange ends with the command's failure, or with less than a status word
    have hstop : x.onReturned .command ⟨received, blockNum⟩ = .stop ⟨received, blockNum⟩ := by
      cases received with
      | err code => rfl
      | ok more =>
          rw [RoundRun.Complete, hreturned] at hcomplete
          rw [onReturned_command_ok, swStatusWordLen, if_pos (Nat.lt_of_not_le hcomplete)]
    rw [hstop] at hrest
    obtain ⟨rfl, rfl⟩ := exchanged_stop hrest
    have hshort : EndsShort [rr] := endsShort_singleton.mpr ⟨hcomplete, by rw [hkept]; exact Nat.two_pos⟩
    refine iff_of_true ?_ (Or.inr hshort)
    cases received with
    | err code => trivial
    | ok more =>
        rw [RoundRun.Complete, hreturned] at hcomplete
        exact Or.inl (Nat.lt_of_not_le hcomplete)

end ApduCall

open ApduCall in
/-- **No partial success.** An exchange that ends has its rounds, and where the framing heuristics
read every response as the card sent it, a result of at least a status word is the assembled response
exactly when no GET RESPONSE round failed behind two or more response bytes. -/
theorem whole_iff_continued {x : ApduCall} {answers : List Answer} {r : Returned}
    (hend : (sendApduTimeoutEx x answers).final = .stop r) :
    (∃ rounds, Exchanged x x.startAction answers rounds r) ∧
      ∀ rounds, Exchanged x x.startAction answers rounds r → FramingExact x rounds →
        (Whole (responses rounds) r.received ↔ Continued rounds) := by
  refine ⟨exchanged_startAction hend, ?_⟩
  intro rounds h hexact
  cases hstart : x.command.call.start with
  | send q s =>
      have hact : x.startAction = .send q (x.command, s) := by
        rw [startAction, hstart]
        rfl
      rw [hact] at h
      cases h with
      | round _ _ hround hrest =>
          exact whole_command (Call.fragCap_ne_zero_of_start hstart) rfl hround hrest hexact
  | stop r₀ =>
      rw [startAction_of_stop hstart] at h
      obtain ⟨rfl, rfl⟩ := exchanged_stop h
      refine iff_of_true ?_ (Or.inl nofun)
      obtain ⟨received, blockNum⟩ := r
      cases received with
      | err code => trivial
      | ok resp => exact Or.inl (by rw [Call.start_stop hstart rfl]; exact Nat.two_pos)

/-! ### A read in two rounds -/

/-- A read that follows GET RESPONSE. -/
def followedRead : ApduCall := ⟨Session.plain 256, [0x00, 0xB0, 0x00, 0x00, 0x02], 64, 1000, true⟩

/-- An I-block of the card with its CRC. -/
def cardAnswer (block : Byte) (inf : Frame) : Answer :=
  ⟨(0x02 ||| block) :: inf ++ crcABytes ((0x02 ||| block) :: inf), 5, false⟩

/-- The card has two bytes now and two more on request. -/
def firstAnswer : Answer := cardAnswer 0 [0xAA, 0xBB, 0x61, 0x02]

def firstReturned : Returned := ⟨.ok (firstAnswer.frame.drop 1), 1⟩

def restCall : Call := followedRead.roundCall 1 (getResponseApdu 2) 60

/-- Both rounds, with what the I-block layer returned for the second. -/
def readRounds (second : List Answer) (r : Returned) : List RoundRun :=
  [⟨.command, [(⟨[0x02, 0x00, 0xB0, 0x00, 0x00, 0x02], 80⟩, firstAnswer)], firstReturned⟩,
    ⟨.getResponse [0xAA, 0xBB], (sendIBlock restCall second).trace, r⟩]

theorem sendIBlock_firstAnswer (second : List Answer) :
    sendIBlock followedRead.command.call (firstAnswer :: second) =
      ⟨[(⟨[0x02, 0x00, 0xB0, 0x00, 0x00, 0x02], 80⟩, firstAnswer)], .stop firstReturned, second⟩ := by
  obtain ⟨s, hstart, hanswer⟩ : ∃ s, followedRead.command.call.start =
      .send ⟨[0x02, 0x00, 0xB0, 0x00, 0x00, 0x02], 80⟩ s ∧
        followedRead.command.call.onAnswer s firstAnswer = .stop firstReturned :=
    ⟨.tx ⟨0, ⟨[0x02, 0x00, 0xB0, 0x00, 0x00, 0x02], 0x02, 1, 5, false⟩, 0, 0, 0, .transceiveTimeout⟩,
      by decide +kernel, by decide +kernel⟩
  rw [sendIBlock, hstart, Driver.run_send_cons, hanswer, Driver.run_stop]
  rfl

theorem exchanged_readRounds (second : List Answer) (r₀ : Returned) {r : Returned}
    (hround : (sendIBlock restCall second).final = .stop r₀)
    (hlast : followedRead.onReturned (.getResponse [0xAA, 0xBB]) r₀ = .stop r) :
    Exchanged followedRead followedRead.startAction (firstAnswer :: second) (readRounds second r₀) r := by
  obtain ⟨q, s, hact, hstart⟩ : ∃ q s, followedRead.startAction = .send q (followedRead.command, s) ∧
      followedRead.command.call.start = .send q s := ⟨_, _, rfl, rfl⟩
  obtain ⟨q', s', hnext, hstart'⟩ : ∃ q s, followedRead.onReturned .command firstReturned =
      .send q (⟨followedRead, .getResponse [0xAA, 0xBB], restCall⟩, s) ∧ restCall.start = .send q s :=
    ⟨⟨[0x03, 0x00, 0xC0, 0x00, 0x00, 0x02], 80⟩,
      .tx ⟨0, ⟨[0x03, 0x00, 0xC0, 0x00, 0x00, 0x02], 0x03, 1, 5, false⟩, 1, 1, 0, .transceiveTimeout⟩,
      by decide +kernel, by decide +kernel⟩
  have hfirst : sendIBlock (followedRead.roundCall followedRead.session.blockNum followedRead.apdu
      followedRead.respCap) (firstAnswer :: second) = _ := sendIBlock_firstAnswer second
  have hrest : Exchanged followedRead (followedRead.onReturned .command firstReturned) second
      [⟨.getResponse [0xAA, 0xBB], (sendIBlock restCall second).trace, r₀⟩] r := by
    rw [hnext]
    refine .round (.getResponse [0xAA, 0xBB]) hstart' hround ?_
    rw [hlast]
    exact .stop _ _
  have hrounds := Exchanged.round .command hstart (congrArg Driver.Outcome.final hfirst)
    (by rw [hfirst]; exact hrest)
  rw [hfirst] at hrounds
  rw [hact]
  exact hrounds

theorem whole_iff_continued_two :
    Whole [[0xAA, 0xBB, 0x61, 0x02], [0xCC, 0x90, 0x00]] (.ok [0xAA, 0xBB, 0xCC, 0x90, 0x00]) ↔
      Continued (readRounds [cardAnswer 1 [0xCC, 0x90, 0x00]]
        ⟨.ok ((cardAnswer 1 [0xCC, 0x90, 0x00]).frame.drop 1), 0⟩) := by
  have h : Exchanged followedRead _ _ _ ⟨.ok [0xAA, 0xBB, 0xCC, 0x90, 0x00], 0⟩ :=
    exchanged_readRounds [cardAnswer 1 [0xCC, 0x90, 0x00]]
      ⟨.ok ((cardAnswer 1 [0xCC, 0x90, 0x00]).frame.drop 1), 0⟩ (by decide) (by decide)
  have hend : (sendApduTimeoutEx followedRead [firstAnswer, cardAnswer 1 [0xCC, 0x90, 0x00]]).final =
      .stop ⟨.ok [0xAA, 0xBB, 0xCC, 0x90, 0x00], 0⟩ := by decide
  exact (whole_iff_continued hend).2 _ h ⟨by decide, by decide⟩

/-- The card stops answering: the two bytes come back as if they were a status word. -/
theorem truncated_body : ¬∀ x answers rounds r, x.follow = true →
    Exchanged x x.startAction answers rounds r → Whole (responses rounds) r.received := by
  intro h
  have hwhole := h followedRead _ _ ⟨.ok [0xAA, 0xBB], 1⟩ rfl
    (exchanged_readRounds [silence] ⟨.err (some .transceiveTimeout), 1⟩ (by decide)
      (by decide))
  revert hwhole
  decide

end NeroReader.IsoDep
