import NeroReader.Separation
import NeroReader.SerialConsole
import NeroReader.WriterCli

/-!
The writer's main loop: the console and the command line, the field strength, and one attempt to write whatever tag is
found. A tag that was written stays on the antenna, so the loop holds off until it has seen the tag taken away. What is
written is what the command lines received so far configure.
-/

namespace NeroReader.WriterApp

open SerialConsole WriterPayload

def pollIntervalIdleMs : BitVec 32 := 100
def pollIntervalNearMs : BitVec 32 := 50
def sameTagCooldownMs : BitVec 32 := 1500
def removalStableSamples : Byte := 3
def couplingApproach : Int := 3
def sakIso144434Bit : Byte := 0x20

inductive TagType where
  | type2
  | type4
  | type5
  deriving DecidableEq, Repr

/-- What the front end and the writers of the tag types meet in one pass. -/
structure Encounter where
  sak : Option Byte
  knownType2 : Bool
  inventory : Bool
  writes : TagType → Frame → Bool
  finishedMs : BitVec 32

/-- One pass: the clock, the field amplitude, the amplitude a setup would take for its baseline, and the tag. -/
structure Pass where
  nowMs : BitVec 32
  amp : Byte
  setupAmp : Byte
  tag : Encounter

/-- The writer's context. -/
structure Writer where
  cli : Cli
  tagWritten : Bool
  lastWriteMs : BitVec 32
  removedStableSamples : Byte
  baselineAmp : Byte
  lastPollMs : BitVec 32
  pollIntervalMs : BitVec 32
  wasNear : Bool

/-- What a pass shows outside: a setup of the writer, a look at a field where a written tag is expected, an attempt. -/
inductive View where
  | setup
  | sample (nowMs : BitVec 32) (removed : Bool)
  | attempt (type : TagType) (message : Frame) (ok : Bool) (finishedMs : BitVec 32)
  deriving DecidableEq

/-- `writer_payload_default`. -/
def payloadDefault : Config :=
  ⟨.none, .ofText str1Max [] (Nat.zero_le _), .ofText str2Max [] (Nat.zero_le _), [], 0⟩

def Cli.reset : Cli := ⟨payloadDefault, .empty, false⟩

namespace Writer

/-- The writer behind `writer_setup`. -/
def setup (amp : Byte) : Writer := ⟨Cli.reset, false, 0, 0, amp, 0, pollIntervalIdleMs, false⟩

/-- `writer_finish_write_attempt`. -/
def finishWriteAttempt (w : Writer) (ok : Bool) (nowMs : BitVec 32) : Writer :=
  if ok then { w with tagWritten := true, lastWriteMs := nowMs, removedStableSamples := 0 } else w

/-- One attempt on a tag of some type. -/
def attempt (w : Writer) (tag : Encounter) (type : TagType) : Writer × List View :=
  let ok := tag.writes type w.cli.config.message
  (w.finishWriteAttempt ok tag.finishedMs, [.attempt type w.cli.config.message ok tag.finishedMs])

/-- `try_one_tag`. -/
def tryOneTag (w : Writer) (tag : Encounter) : Writer × List View :=
  if w.cli.config.message = [] then (w, [])
  else
    match tag.sak with
    | some sak =>
        if sak &&& sakIso144434Bit ≠ 0 then w.attempt tag .type4
        else if tag.knownType2 then w.attempt tag .type2
        else (w, [])
    | none => if tag.inventory then w.attempt tag .type5 else (w, [])

/-- The load a tag puts on the field. -/
def load (w : Writer) (amp : Byte) : Int := (w.baselineAmp.toNat : Int) - amp.toNat

/-- The look at a field where a written tag is expected. -/
def watchRemoval (w : Writer) (nowMs : BitVec 32) (amp : Byte) : Writer × List View :=
  let removed := decide (w.load amp ≤ couplingApproach ∨ w.baselineAmp ≤ amp)
  let samples :=
    if removed then
      if w.removedStableSamples < removalStableSamples then w.removedStableSamples + 1 else w.removedStableSamples
    else 0
  let w := { w with removedStableSamples := samples }
  (if removalStableSamples ≤ samples then { w with tagWritten := false, baselineAmp := amp, removedStableSamples := 0 }
    else w, [.sample nowMs removed])

/-- The pace of the polls. -/
def pace (w : Writer) (amp : Byte) : Writer :=
  if couplingApproach < w.load amp then { w with pollIntervalMs := pollIntervalNearMs, wasNear := true }
  else { w with pollIntervalMs := pollIntervalIdleMs, wasNear := false }

/-- `writer_loop`, behind the command line. -/
def poll (w : Writer) (p : Pass) : Writer × List View :=
  if p.nowMs - w.lastPollMs < w.pollIntervalMs then (w, [])
  else
    let w := { w with lastPollMs := p.nowMs }
    if w.tagWritten then
      if p.nowMs - w.lastWriteMs < sameTagCooldownMs then (w, []) else w.watchRemoval p.nowMs p.amp
    else (w.pace p.amp).tryOneTag p.tag

/-- What a report of the console does to the writer. -/
def hear (signed : Bool) (setupAmp : Byte) (w : Writer) : Report → Writer
  | .setup .writer => .setup setupAmp
  | .setup .reader => w
  | .read b => { w with cli := (WriterPayload.poll signed w.cli b).1 }

end Writer

/-! ### The main loop -/

/-- The console, and the writer behind it. -/
structure App where
  console : Console
  writer : Writer

inductive AppEvent where
  | arrive (bytes : Frame)
  | pass (p : Pass)

/-- What a report shows outside. -/
def Report.views : Report → List View
  | .setup .writer => [.setup]
  | .setup .reader => []
  | .read _ => []

namespace App

/-- The console goes on, and the writer hears what it reports. -/
def hear (signed : Bool) (a : App) (console : Console) (p : Pass) : App × List View :=
  let news := console.reports.drop a.console.reports.length
  (⟨console, news.foldl (Writer.hear signed p.setupAmp) a.writer⟩, news.flatMap Report.views)

/-- `writer_loop`. -/
def writerLoop (signed : Bool) (a : App) (p : Pass) : App × List View :=
  let heard := a.hear signed a.console.cliPoll p
  if heard.1.console.mode = .reader then heard
  else
    let polled := heard.1.writer.poll p
    ({ heard.1 with writer := polled.1 }, heard.2 ++ polled.2)

/-- `nfc_app_loop`. -/
def loop (signed : Bool) (a : App) (p : Pass) : App × List View :=
  let polled := a.console.pollModeSwitch
  let heard := a.hear signed polled.1 p
  if polled.2 then heard
  else
    match heard.1.console.mode with
    | .reader => heard
    | .writer => ((heard.1.writerLoop signed p).1, heard.2 ++ (heard.1.writerLoop signed p).2)

def step (signed : Bool) (a : App) : AppEvent → App × List View
  | .arrive bytes => ({ a with console := a.console.next (.arrive bytes) }, [])
  | .pass p => a.loop signed p

end App

/-- The combined firmware, as far as it is a writer: bytes arrive and the main loop comes round. -/
def machine (signed : Bool) (start : App) : Machine App AppEvent where
  init := start
  allowed _ _ := True
  next a e := (a.step signed e).1

/-- All that the passes have shown. -/
def views (signed : Bool) (history : List (App × AppEvent)) : List View :=
  Machine.output (fun a e => (a.step signed e).2) history

/-! ### A written tag -/

def View.succeededAt : View → Option (BitVec 32)
  | .attempt _ _ true finishedMs => some finishedMs
  | .attempt _ _ false _ => none
  | .setup => none
  | .sample _ _ => none

def View.IsAttempt : View → Prop
  | .attempt _ _ _ _ => True
  | .setup => False
  | .sample _ _ => False

/-- Looks in a row that saw the tag removed, each one when the cooldown behind the write was over. -/
structure Removals (ms : BitVec 32) (looks : List View) (count : Nat) : Prop where
  length : looks.length = count
  removed : ∀ v ∈ looks, ∃ nowMs, v = .sample nowMs true ∧ sameTagCooldownMs ≤ nowMs - ms

/-- Behind a write the writer was set up again, or saw the tag removed often enough. -/
def Cleared (ms : BitVec 32) (behind : List View) : Prop :=
  .setup ∈ behind ∨ ∃ front looks rest, behind = front ++ looks ++ rest ∧ Removals ms looks 3

/-- The writer waits for the removal of the tag, with the looks that saw it removed so far. -/
structure Waiting (ms : BitVec 32) (behind : List View) (w : Writer) : Prop where
  written : w.tagWritten = true
  last : w.lastWriteMs = ms
  removals : ∃ front looks, behind = front ++ looks ∧ Removals ms looks w.removedStableSamples.toNat

/-- What holds of all that was shown and the writer behind it. -/
structure Guarded (log : List View) (w : Writer) : Prop where
  separated : Separated (fun _ => True) View.IsAttempt
    (fun v between => ∀ ms, v.succeededAt = some ms → Cleared ms between) log
  behind : ∀ v mid ms, Follows log v mid → v.succeededAt = some ms → Cleared ms mid ∨ Waiting ms mid w
  few : w.removedStableSamples.toNat < 3

theorem Cleared.snoc {ms : BitVec 32} {behind : List View} (h : Cleared ms behind) (v : View) :
    Cleared ms (behind ++ [v]) := by
  rcases h with h | ⟨front, looks, rest, rfl, hlooks⟩
  · exact .inl (List.mem_append_left _ h)
  · exact .inr ⟨front, looks, rest ++ [v], by simp only [List.append_assoc], hlooks⟩

/-- One more view. -/
theorem Guarded.snoc {log : List View} {w w' : Writer} {v : View} (h : Guarded log w)
    (hattempt : v.IsAttempt → w.tagWritten = false) (hwait : ∀ ms mid, Waiting ms mid w →
      Cleared ms (mid ++ [v]) ∨ Waiting ms (mid ++ [v]) w')
    (hnew : ∀ ms, v.succeededAt = some ms → Waiting ms [] w') (hfew : w'.removedStableSamples.toNat < 3) :
    Guarded (log ++ [v]) w' where
  separated := h.separated.snoc fun hv x mid hfollows _ ms hms => by
    rcases h.behind x mid ms hfollows hms with hcleared | hwaiting
    · exact hcleared
    · exact absurd (hwaiting.written.symm.trans (hattempt hv)) (by decide)
  behind x mid ms hfollows hms := by
    rcases follows_snoc.mp hfollows with ⟨earlier, rfl, hearlier⟩ | ⟨rfl, rfl⟩
    · rcases h.behind x earlier ms hearlier hms with hcleared | hwaiting
      · exact .inl (hcleared.snoc v)
      · exact hwait ms earlier hwaiting
    · exact .inr (hnew ms hms)
  few := hfew

/-- A writer that differs elsewhere. -/
theorem Guarded.same {log : List View} {w w' : Writer} (h : Guarded log w) (hwritten : w'.tagWritten = w.tagWritten)
    (hlast : w'.lastWriteMs = w.lastWriteMs) (hsamples : w'.removedStableSamples = w.removedStableSamples) :
    Guarded log w' where
  separated := h.separated
  behind x mid ms hfollows hms := (h.behind x mid ms hfollows hms).imp_right fun hw =>
    ⟨hwritten.trans hw.written, hlast.trans hw.last, hsamples ▸ hw.removals⟩
  few := hsamples ▸ h.few

theorem Guarded.hear {log : List View} {w : Writer} (h : Guarded log w) (signed : Bool) (amp : Byte) (r : Report) :
    Guarded (log ++ Report.views r) (w.hear signed amp r) := by
  cases r with
  | setup mode =>
      cases mode with
      | reader => exact (List.append_nil log).symm ▸ h
      | writer =>
          exact h.snoc (fun hv => hv.elim)
            (fun _ _ _ => .inl (.inl (List.mem_append_right _ (List.mem_singleton.mpr rfl))))
            (fun _ hms => by cases hms) (Nat.zero_lt_succ 2)
  | read b => exact (List.append_nil log).symm ▸ h.same rfl rfl rfl

theorem Guarded.news {log : List View} {w : Writer} (h : Guarded log w) (signed : Bool) (amp : Byte)
    (news : List Report) :
    Guarded (log ++ news.flatMap Report.views) (news.foldl (Writer.hear signed amp) w) := by
  induction news generalizing log w with
  | nil => exact (List.append_nil log).symm ▸ h
  | cons r news ih =>
      rw [List.flatMap_cons, ← List.append_assoc]
      exact ih (h.hear signed amp r)

theorem Removals.nil (ms : BitVec 32) : Removals ms [] 0 := ⟨rfl, fun _ h => absurd h List.not_mem_nil⟩

theorem Removals.snoc {ms nowMs : BitVec 32} {looks : List View} {count : Nat} (h : Removals ms looks count)
    (hcooled : sameTagCooldownMs ≤ nowMs - ms) : Removals ms (looks ++ [.sample nowMs true]) (count + 1) where
  length := by rw [List.length_append, h.length, List.length_singleton]
  removed v hv := by
    rcases List.mem_append.mp hv with hv | hv
    · exact h.removed v hv
    · exact ⟨nowMs, List.mem_singleton.mp hv, hcooled⟩

theorem Guarded.watchRemoval {log : List View} {w : Writer} (h : Guarded log w) {nowMs : BitVec 32}
    (hcooled : ¬ nowMs - w.lastWriteMs < sameTagCooldownMs) (amp : Byte) :
    Guarded (log ++ (w.watchRemoval nowMs amp).2) (w.watchRemoval nowMs amp).1 := by
  have hfew := h.few
  have hlt : w.removedStableSamples < removalStableSamples := hfew
  have hnext : (w.removedStableSamples + 1).toNat = w.removedStableSamples.toNat + 1 := by
    rw [BitVec.toNat_add, Nat.mod_eq_of_lt]
    · rfl
    · exact Nat.lt_trans (Nat.succ_lt_succ hfew) (by decide)
  have hlooks : ∀ ms mid, Waiting ms mid w → ∃ front looks, mid ++ [.sample nowMs true] = front ++ looks ∧
      Removals ms looks (w.removedStableSamples.toNat + 1) := by
    intro ms mid hw
    obtain ⟨front, looks, rfl, hremovals⟩ := hw.removals
    exact ⟨front, _, List.append_assoc .., hremovals.snoc (hw.last ▸ BitVec.not_lt.mp hcooled)⟩
  rw [Writer.watchRemoval]
  dsimp only
  by_cases hremoved : w.load amp ≤ couplingApproach ∨ w.baselineAmp ≤ amp
  · rw [decide_eq_true hremoved, if_pos rfl, if_pos hlt]
    by_cases henough : removalStableSamples ≤ w.removedStableSamples + 1
    · rw [if_pos henough]
      refine h.snoc (fun hv => hv.elim) (fun ms mid hw => ?_) (fun _ hms => by cases hms) (Nat.zero_lt_succ 2)
      obtain ⟨front, looks, hmid, hremovals⟩ := hlooks ms mid hw
      have hthree : w.removedStableSamples.toNat + 1 = 3 := by
        have hle : (3 : Nat) ≤ (w.removedStableSamples + 1).toNat := henough
        omega
      exact .inl (.inr ⟨front, looks, [], by rw [hmid, List.append_nil], hthree ▸ hremovals⟩)
    · rw [if_neg henough]
      refine h.snoc (fun hv => hv.elim) (fun ms mid hw => ?_) (fun _ hms => by cases hms) ?_
      · obtain ⟨front, looks, hmid, hremovals⟩ := hlooks ms mid hw
        exact .inr ⟨hw.written, hw.last, front, looks, hmid, by rw [hnext]; exact hremovals⟩
      · exact BitVec.not_le.mp henough
  · rw [decide_eq_false hremoved, if_neg Bool.false_ne_true, if_neg (by decide)]
    refine h.snoc (fun hv => hv.elim) (fun ms mid hw => ?_) (fun _ hms => by cases hms) (Nat.zero_lt_succ 2)
    exact .inr ⟨hw.written, hw.last, mid ++ [.sample nowMs false], [], (List.append_nil _).symm, .nil ms⟩

theorem Guarded.attempt {log : List View} {w : Writer} (h : Guarded log w) (hfree : w.tagWritten = false)
    (tag : Encounter) (type : TagType) : Guarded (log ++ (w.attempt tag type).2) (w.attempt tag type).1 := by
  have hnone : ∀ ms mid, ¬ Waiting ms mid w := fun _ _ hw => absurd (hw.written.symm.trans hfree) (by decide)
  rw [Writer.attempt, Writer.finishWriteAttempt]
  dsimp only
  cases hok : tag.writes type w.cli.config.message with
  | false => exact h.snoc (fun _ => hfree) (fun ms mid hw => absurd hw (hnone ms mid)) (fun _ hms => by cases hms) h.few
  | true =>
      refine h.snoc (fun _ => hfree) (fun ms mid hw => absurd hw (hnone ms mid)) (fun ms hms => ?_) (Nat.zero_lt_succ 2)
      exact ⟨rfl, Option.some.inj hms, [], [], rfl, .nil ms⟩

theorem Guarded.tryOneTag {log : List View} {w : Writer} (h : Guarded log w) (hfree : w.tagWritten = false)
    (tag : Encounter) : Guarded (log ++ (w.tryOneTag tag).2) (w.tryOneTag tag).1 := by
  have hskip : Guarded (log ++ []) w := (List.append_nil log).symm ▸ h
  rw [Writer.tryOneTag]
  by_cases hmessage : w.cli.config.message = []
  · rw [if_pos hmessage]
    exact hskip
  rw [if_neg hmessage]
  cases tag.sak with
  | some sak =>
      dsimp only
      split_ifs
      · exact h.attempt hfree tag .type4
      · exact h.attempt hfree tag .type2
      · exact hskip
  | none =>
      dsimp only
      split_ifs
      · exact h.attempt hfree tag .type5
      · exact hskip

theorem Guarded.poll {log : List View} {w : Writer} (h : Guarded log w) (p : Pass) :
    Guarded (log ++ (w.poll p).2) (w.poll p).1 := by
  rw [Writer.poll]
  dsimp only
  by_cases hearly : p.nowMs - w.lastPollMs < w.pollIntervalMs
  · rw [if_pos hearly, List.append_nil]
    exact h
  rw [if_neg hearly]
  have hpolled : Guarded log { w with lastPollMs := p.nowMs } := h.same rfl rfl rfl
  by_cases hwritten : w.tagWritten = true
  · rw [if_pos hwritten]
    by_cases hcooling : p.nowMs - w.lastWriteMs < sameTagCooldownMs
    · rw [if_pos hcooling, List.append_nil]
      exact hpolled
    · rw [if_neg hcooling]
      exact hpolled.watchRemoval hcooling p.amp
  · rw [if_neg hwritten]
    have hfree : (Writer.pace { w with lastPollMs := p.nowMs } p.amp).tagWritten = false := by
      rw [Writer.pace]
      split_ifs <;> exact Bool.eq_false_of_not_eq_true hwritten
    have hpaced : Guarded log (Writer.pace { w with lastPollMs := p.nowMs } p.amp) := by
      rw [Writer.pace]
      split_ifs <;> exact hpolled.same rfl rfl rfl
    exact hpaced.tryOneTag hfree p.tag

theorem Guarded.loop {log : List View} {a : App} (h : Guarded log a.writer) (signed : Bool) (p : Pass) :
    Guarded (log ++ (a.loop signed p).2) (a.loop signed p).1.writer := by
  have hheard : ∀ {log : List View} {a : App} (console : Console), Guarded log a.writer →
      Guarded (log ++ (a.hear signed console p).2) (a.hear signed console p).1.writer :=
    fun _ h => h.news signed p.setupAmp _
  have hfirst := hheard a.console.pollModeSwitch.1 h
  rw [App.loop]
  split_ifs
  · exact hfirst
  cases (a.hear signed a.console.pollModeSwitch.1 p).1.console.mode with
  | reader => exact hfirst
  | writer =>
      dsimp only
      have hsecond := hheard ((a.hear signed a.console.pollModeSwitch.1 p).1.console.cliPoll) hfirst
      rw [← List.append_assoc, App.writerLoop]
      dsimp only
      split_ifs
      · exact hsecond
      · rw [← List.append_assoc]
        exact hsecond.poll p

theorem guarded_nil {w : Writer} (hfew : w.removedStableSamples.toNat < 3) : Guarded [] w :=
  ⟨separated_nil, fun _ _ _ h => absurd h not_follows_nil, hfew⟩

theorem run_guarded {signed : Bool} {start : App} (hfew : start.writer.removedStableSamples.toNat < 3)
    {history : List (App × AppEvent)} {a : App} (hrun : (machine signed start).Run history a) :
    Guarded (views signed history) a.writer := by
  refine hrun.invariant (P := fun history a => Guarded (views signed history) a.writer) (guarded_nil hfew) ?_
  intro history a e h _
  rw [views, Machine.output_snoc]
  cases e with
  | arrive bytes => exact (List.append_nil (views signed history)).symm ▸ h
  | pass p => exact h.loop signed p

/-- **No tag is written twice.** In every run, whatever arrives and whatever the field shows, an attempt that comes
behind a successful write comes behind a setup of the writer, or behind three looks in a row that saw the tag removed,
each of them taken when the cooldown behind that write was over. -/
theorem tag_written_once (signed : Bool) (start : App) (hfew : start.writer.removedStableSamples.toNat < 3)
    {history : List (App × AppEvent)} {a : App} (hrun : (machine signed start).Run history a)
    {front between behind : List View} {type type' : TagType} {message message' : Frame} {ok : Bool}
    {ms ms' : BitVec 32}
    (hviews : views signed history =
      front ++ .attempt type message true ms :: (between ++ .attempt type' message' ok ms' :: behind)) :
    Cleared ms between :=
  (run_guarded hfew hrun).separated _ _ _ _ ⟨front, hviews⟩ trivial trivial ms rfl

/-- Every sequence of events is a run. -/
theorem run_behind (signed : Bool) (start : App) (events : List AppEvent) :
    (machine signed start).Run ((machine signed start).trace start events)
      ((machine signed start).after start events) := by
  have hadmits : ∀ (a : App) (events : List AppEvent), (machine signed start).Admits a events := by
    intro a events
    induction events generalizing a with
    | nil => exact trivial
    | cons e events ih => exact ⟨trivial, ih _⟩
  exact Machine.Run.extend .start (hadmits _ events)

/-- A writer with a message to write, and a tag that takes it. -/
def ready : App :=
  ⟨⟨[], .empty, [], .writer, []⟩,
    { Writer.setup 80 with cli := ⟨{ payloadDefault with kind := .rawNdef, rawNdef := [1] },
    .empty, false⟩ }⟩

def readyPass (nowMs : BitVec 32) (amp : Byte) : Pass :=
  ⟨nowMs, amp, 80, ⟨some 0, true, false, fun _ _ => true, nowMs⟩⟩

/-- Two tags, one after the other. -/
theorem tag_written_once_two :
    let history := (machine true ready).trace ready [.pass (readyPass 100 60), .pass (readyPass 1700 80),
      .pass (readyPass 1800 80), .pass (readyPass 1900 80), .pass (readyPass 2000 60)]
    views true history = [.attempt .type2 [1] true 100, .sample 1700 true, .sample 1800 true, .sample 1900 true,
      .attempt .type2 [1] true 2000] ∧ Cleared 100 [.sample 1700 true, .sample 1800 true, .sample 1900 true] := by
  intro history
  have hviews : views true history = [.attempt .type2 [1] true 100, .sample 1700 true, .sample 1800 true,
    .sample 1900 true, .attempt .type2 [1] true 2000] := by decide
  have hsplit : views true history = [] ++ .attempt .type2 [1] true 100 :: ([.sample 1700 true, .sample 1800 true,
    .sample 1900 true] ++ .attempt .type2 [1] true 2000 :: []) := hviews
  exact ⟨hviews, tag_written_once true ready (by decide) (run_behind true ready _) hsplit⟩

/-! ### What is written -/

/-- The command line behind some bytes. -/
def cliAfter (signed : Bool) (cli : Cli) (read : Frame) : Cli :=
  read.foldl (fun cli b => (WriterPayload.poll signed cli b).1) cli

theorem watchRemoval_spec (w : Writer) (nowMs : BitVec 32) (amp : Byte) :
    (w.watchRemoval nowMs amp).1.cli = w.cli ∧ ∃ removed, (w.watchRemoval nowMs amp).2 = [.sample nowMs removed] := by
  rw [Writer.watchRemoval]
  dsimp only
  refine ⟨?_, _, rfl⟩
  split_ifs <;> rfl

/-- An attempt writes the message that is configured. -/
structure Tried (w : Writer) (tried : Writer × List View) : Prop where
  cli : tried.1.cli = w.cli
  message : ∀ type message ok ms, View.attempt type message ok ms ∈ tried.2 →
    message ≠ [] ∧ message = w.cli.config.message

theorem Tried.quiet {w w' : Writer} (h : w'.cli = w.cli) : Tried w (w', []) :=
  ⟨h, fun _ _ _ _ hmem => absurd hmem List.not_mem_nil⟩

theorem Tried.of_cli {w w' : Writer} {tried : Writer × List View} (h : Tried w tried) (hcli : w.cli = w'.cli) :
    Tried w' tried :=
  ⟨h.cli.trans hcli, fun type message ok ms hmem => hcli ▸ h.message type message ok ms hmem⟩

theorem tried_attempt (w : Writer) (hmessage : w.cli.config.message ≠ []) (tag : Encounter) (type : TagType) :
    Tried w (w.attempt tag type) where
  cli := by
    rw [Writer.attempt, Writer.finishWriteAttempt]
    dsimp only
    split_ifs <;> rfl
  message _ _ _ _ hmem := by
    rw [Writer.attempt, List.mem_singleton, View.attempt.injEq] at hmem
    exact ⟨hmem.2.1 ▸ hmessage, hmem.2.1⟩

theorem tried_tryOneTag (w : Writer) (tag : Encounter) : Tried w (w.tryOneTag tag) := by
  rw [Writer.tryOneTag]
  by_cases hmessage : w.cli.config.message = []
  · rw [if_pos hmessage]
    exact .quiet rfl
  rw [if_neg hmessage]
  cases tag.sak with
  | some sak =>
      dsimp only
      split_ifs
      · exact tried_attempt w hmessage tag .type4
      · exact tried_attempt w hmessage tag .type2
      · exact .quiet rfl
  | none =>
      dsimp only
      split_ifs
      · exact tried_attempt w hmessage tag .type5
      · exact .quiet rfl

theorem tried_poll (w : Writer) (p : Pass) : Tried w (w.poll p) := by
  rw [Writer.poll]
  dsimp only
  split_ifs
  · exact .quiet rfl
  · exact .quiet rfl
  · obtain ⟨hcli, removed, hview⟩ := watchRemoval_spec { w with lastPollMs := p.nowMs } p.nowMs p.amp
    refine ⟨hcli, fun _ _ _ _ hmem => ?_⟩
    rw [hview] at hmem
    exact View.noConfusion (List.mem_singleton.mp hmem)
  · have hpaced : (Writer.pace { w with lastPollMs := p.nowMs } p.amp).cli = w.cli := by
      rw [Writer.pace]
      split_ifs <;> rfl
    exact (tried_tryOneTag _ p.tag).of_cli hpaced

theorem hear_console (signed : Bool) (a : App) (console : Console) (p : Pass) :
    (a.hear signed console p).1.console = console := rfl

/-- The writer behind a console that read at most a byte. -/
theorem hear_reads (signed : Bool) {a : App} {console : Console} (p : Pass)
    (h : console.reports = a.console.reports ∨ ∃ b, console.reports = a.console.reports ++ [.read b]) :
    (a.hear signed console p).2 = [] ∧ ∃ read, console.delivered = a.console.delivered ++ read ∧
      (a.hear signed console p).1.writer.cli = cliAfter signed a.writer.cli read := by
  rcases h with h | ⟨b, h⟩
  · have hnews : console.reports.drop a.console.reports.length = [] := by rw [h, List.drop_length]
    rw [App.hear, hnews]
    exact ⟨rfl, [], by rw [Console.delivered, Console.delivered, h, List.append_nil], rfl⟩
  · have hnews : console.reports.drop a.console.reports.length = [.read b] := by rw [h, List.drop_left]
    rw [App.hear, hnews]
    refine ⟨rfl, [b], ?_, rfl⟩
    rw [Console.delivered, Console.delivered, h, List.filterMap_append]
    rfl

/-- What a pass keeps while the input names no command. -/
structure Stepped (signed : Bool) (a : App) (stepped : App × List View) : Prop where
  mode : stepped.1.console.mode = .writer
  held : Held stepped.1.console.scan
  text : stepped.1.console.text = a.console.text
  read : ∃ read, stepped.1.console.delivered = a.console.delivered ++ read ∧
    stepped.1.writer.cli = cliAfter signed a.writer.cli read
  message : ∀ type message ok ms, View.attempt type message ok ms ∈ stepped.2 →
    message ≠ [] ∧ message = stepped.1.writer.cli.config.message

theorem writerLoop_stepped (signed : Bool) {a : App} (p : Pass) (hmode : a.console.mode = .writer)
    (hheld : Held a.console.scan) (hfits : a.console.Fits) (hnone : ¬ NamesCommand a.console.text) :
    Stepped signed a (a.writerLoop signed p) := by
  have hpassed := cliPoll_passed hmode hheld hfits hnone
  obtain ⟨hviews, read, hdelivered, hcli⟩ := hear_reads signed p hpassed.reports
  have htried := tried_poll (a.hear signed a.console.cliPoll p).1.writer p
  have hwriter : (a.hear signed a.console.cliPoll p).1.console.mode ≠ .reader := by
    change a.console.cliPoll.mode ≠ .reader
    rw [hpassed.mode]
    decide
  rw [App.writerLoop]
  dsimp only
  rw [if_neg hwriter, hviews, List.nil_append]
  exact ⟨hpassed.mode, hpassed.held, hpassed.text, ⟨read, hdelivered, htried.cli.trans hcli⟩,
    fun type message ok ms hmem => htried.cli ▸ htried.message type message ok ms hmem⟩

/-- A pass that begins with a poll of the console. -/
theorem Stepped.heard {signed : Bool} {a b : App} {stepped : App × List View} (h : Stepped signed b stepped)
    (htext : b.console.text = a.console.text) {read : Frame} (hread : b.console.delivered = a.console.delivered ++ read)
    (hcli : b.writer.cli = cliAfter signed a.writer.cli read) : Stepped signed a stepped where
  mode := h.mode
  held := h.held
  text := h.text.trans htext
  read := by
    obtain ⟨more, hmore, hcli'⟩ := h.read
    refine ⟨read ++ more, by rw [hmore, hread, List.append_assoc], ?_⟩
    rw [hcli', hcli, cliAfter, cliAfter, cliAfter, List.foldl_append]
  message := h.message

theorem loop_eq_writerLoop {signed : Bool} {a : App} {p : Pass} (hstays : a.console.pollModeSwitch.2 = false)
    (hmode : a.console.pollModeSwitch.1.mode = .writer) (hviews : (a.hear signed a.console.pollModeSwitch.1 p).2 = []) :
    a.loop signed p = (a.hear signed a.console.pollModeSwitch.1 p).1.writerLoop signed p := by
  rw [App.loop, hstays, if_neg Bool.false_ne_true, hear_console, hmode, hviews, List.nil_append]

theorem loop_stepped (signed : Bool) {a : App} (p : Pass) (hmode : a.console.mode = .writer)
    (hheld : Held a.console.scan) (hfits : a.console.Fits) (hnone : ¬ NamesCommand a.console.text) :
    Stepped signed a (a.loop signed p) := by
  obtain ⟨hpolled, hstays⟩ := polled hmode hheld hfits hnone
  obtain ⟨hviews, read, hdelivered, hcli⟩ := hear_reads signed p (.inl hpolled.reports)
  rw [loop_eq_writerLoop hstays hpolled.mode hviews]
  have hstepped := writerLoop_stepped signed (a := (a.hear signed a.console.pollModeSwitch.1 p).1) p hpolled.mode
    hpolled.held hpolled.fits (hpolled.text ▸ hnone)
  exact hstepped.heard hpolled.text hdelivered hcli

def AppEvent.bytes : AppEvent → Frame
  | .arrive bytes => bytes
  | .pass _ => []

/-- The bytes that have arrived. -/
def received (history : List (App × AppEvent)) : Frame := Machine.output (fun _ e => e.bytes) history

/-- The main loop came round in time. -/
def InTime (x : App × AppEvent) : Prop := ∀ p, x.2 = .pass p → x.1.console.Fits

/-- **What is written is what was sent.** While the text received so far names no command and the main loop comes round
in time, the command line has read the front of that text and nothing else, the rest still waits in order, and an
attempt in the next pass writes the message that the text read by then configures. -/
theorem writes_configured (signed : Bool) (start : App) (hmode : start.console.mode = .writer)
    (hheld : Held start.console.scan) (hreports : start.console.reports = [])
    {history : List (App × AppEvent)} {a : App}
    (hrun : (machine signed start).Run history a) (htime : ∀ x ∈ history, InTime x)
    (hnone : ¬ NamesCommand (start.console.text ++ noCr (received history))) :
    a.console.text = start.console.text ++ noCr (received history) ∧
      a.writer.cli = cliAfter signed start.writer.cli a.console.delivered ∧
      (a.console.Fits → ∀ p type message ok ms, View.attempt type message ok ms ∈ (a.loop signed p).2 →
        message ≠ [] ∧
          message = (cliAfter signed start.writer.cli (a.loop signed p).1.console.delivered).config.message) := by
  have hinv : a.console.mode = .writer ∧ Held a.console.scan ∧
      a.console.text = start.console.text ++ noCr (received history) ∧
      a.writer.cli = cliAfter signed start.writer.cli a.console.delivered := by
    induction hrun with
    | start => exact ⟨hmode, hheld, (List.append_nil _).symm, by rw [machine, Console.delivered, hreports]; rfl⟩
    | @step history a e run ok ih =>
        rw [received, Machine.output_snoc, ← received, noCr_append, ← List.append_assoc] at hnone ⊢
        obtain ⟨hmode, hheld, htext, hcli⟩ := ih (fun x hx => htime x (List.mem_append_left _ hx))
          fun h => hnone (h.mono (List.prefix_append _ _).isInfix)
        cases e with
        | arrive bytes =>
            refine ⟨hmode, hheld, ?_, hcli⟩
            rw [← htext]
            simp [machine, App.step, Console.next, Console.text, Console.waiting, Console.delivered, AppEvent.bytes]
        | pass p =>
            have hfits := htime (a, .pass p) (List.mem_append_right _ (List.mem_singleton.mpr rfl)) p rfl
            have hstepped := loop_stepped signed p hmode hheld hfits
              fun h => hnone (by rw [← htext]; exact h.mono (List.prefix_append _ _).isInfix)
            obtain ⟨read, hdelivered, hread⟩ := hstepped.read
            refine ⟨hstepped.mode, hstepped.held, hstepped.text.trans (htext.trans (List.append_nil _).symm), ?_⟩
            change (a.loop signed p).1.writer.cli = cliAfter signed start.writer.cli
              (a.loop signed p).1.console.delivered
            rw [hread, hdelivered, hcli, cliAfter, cliAfter, cliAfter, List.foldl_append]
  obtain ⟨hmode, hheld, htext, hcli⟩ := hinv
  refine ⟨htext, hcli, fun hfits p type message ok ms hmem => ?_⟩
  have hstepped := loop_stepped signed p hmode hheld hfits (htext ▸ hnone)
  obtain ⟨read, hdelivered, hread⟩ := hstepped.read
  have hmessage := hstepped.message type message ok ms hmem
  rwa [hread, hcli, cliAfter, cliAfter, ← List.foldl_append, ← hdelivered] at hmessage

/-- A writer behind its setup, in front of a line that configures a text. -/
def idle : App := ⟨⟨[], .empty, [], .writer, []⟩, .setup 80⟩

/-- The line arrives, and six passes read all of it but its end. -/
def typed : List AppEvent := .arrive (ascii "text a" ++ [lf]) :: List.replicate 6 (.pass (readyPass 10 80))

def textRecord : Frame := [0xD1, 0x01, 0x04, 0x54, 0x02, 0x65, 0x6E, 0x61]

theorem writes_configured_line :
    (cliAfter true idle.writer.cli (ascii "text a")).config.message = [] ∧
      (cliAfter true idle.writer.cli (ascii "text a" ++ [lf])).config.message = textRecord ∧
      ((machine true idle).after idle typed).console.text = ascii "text a" ++ [lf] := by
  have hwaiting : ∀ x ∈ (machine true idle).trace idle typed,
    x.1.console.scan.length + x.1.console.waiting.length ≤ roomMax := by decide
  obtain ⟨htext, -, hwrites⟩ := writes_configured true idle rfl held_nil rfl (run_behind true idle typed)
    (fun x hx p _ => .inl (hwaiting x hx)) (by decide)
  have hread : (((machine true idle).after idle typed).loop true (readyPass 100 60)).1.console.delivered =
    ascii "text a" ++ [lf] := by decide
  have hattempt : View.attempt .type2 textRecord true 100 ∈
    (((machine true idle).after idle typed).loop true (readyPass 100 60)).2 := by decide
  have hmessage := (hwrites (.inl (by decide)) (readyPass 100 60) .type2 textRecord true 100 hattempt).2
  rw [hread] at hmessage
  exact ⟨by decide, hmessage.symm, htext.trans (by decide)⟩

end NeroReader.WriterApp
