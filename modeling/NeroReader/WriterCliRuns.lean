import NeroReader.WriterCliKept

/-!
Runs of the writer's serial input, byte by byte. Bytes gather into lines and a line that is too long is dropped, so
a run is one `takeLine` after another. When every line meets the condition, the message at the end is the one of
the last accepted line, with its complete text (`message_of_last_accepted`). Two lines that do not meet it: a
contact without a number, and a short message with a long text.
-/

namespace NeroReader.WriterPayload

open Ndef

/-! ### Lines -/

/-- A line of input with the character that ends it. -/
structure Line where
  text : Frame
  ending : Byte
  unbroken : ∀ ch ∈ text, ch ≠ cr ∧ ch ≠ lf
  ends : ending = cr ∨ ending = lf

namespace Line

def bytes (line : Line) : Frame := line.text ++ [line.ending]

/-- The characters that are gathered. -/
def printed (line : Line) : Frame := line.text.filter fun ch => decide (space ≤ ch)

/-- The command of a line that is not too long, and its text. -/
def order (signed : Bool) (line : Line) : Option (Command × Frame) :=
  if lineCap ≤ line.printed.length then none else WriterPayload.order signed line.printed

/-- The complete payload a line asks for. -/
def asked (signed : Bool) (uriId : Byte) (line : Line) : Option Payload :=
  (line.order signed).map fun given => given.1.asked uriId given.2

/-- The message a line asks for. -/
def message (signed : Bool) (line : Line) : Frame := ((line.asked signed 0).map Payload.message).getD []

/-- **The condition**, on a line and the payload it finds. -/
def Meets (signed : Bool) (p : Payload) (line : Line) : Prop :=
  ∀ c rest, line.order signed = some (c, rest) → c.Meets p rest

end Line

/-- Bytes polled one after another, and whether one of them updated the payload. -/
def feed (signed : Bool) : Cli → Frame → Cli × Bool
  | cli, [] => (cli, false)
  | cli, ch :: bytes =>
      let polled := poll signed cli ch
      let fed := feed signed polled.1 bytes
      (fed.1, polled.2 || fed.2)

/-- `writer_serial_cli_init`. -/
def Cli.init (cfg : Config) : Cli := ⟨cfg, .empty, false⟩

/-- What a line does to the configuration. -/
def takeLine (signed : Bool) (cfg : Config) (line : Line) : Config × Bool :=
  if lineCap ≤ line.printed.length then (cfg, false) else handleLine signed cfg line.printed

/-- The characters of the unfinished line are these; they are kept as long as they fit the buffer. -/
def Cli.Gathered (cli : Cli) (cfg : Config) (text : Frame) : Prop :=
  cli.config = cfg ∧
    if lineCap ≤ text.length then cli.overflow = true else cli.overflow = false ∧ cli.line.text = text

theorem LineBuffer.eq_empty {line : LineBuffer} (h : line.text = []) : line = .empty := by
  obtain ⟨text, hlen, hprintable⟩ := line
  subst h
  rfl

theorem gathered_init (cfg : Config) : (Cli.init cfg).Gathered cfg [] :=
    ⟨rfl, by rw [if_neg (by decide)]; exact ⟨rfl, rfl⟩⟩

/-- A byte inside a line is gathered. -/
theorem poll_inside (signed : Bool) {cli : Cli} {cfg : Config} {text : Frame} {ch : Byte}
    (h : cli.Gathered cfg text) (hch : ch ≠ cr ∧ ch ≠ lf) :
    (poll signed cli ch).2 = false ∧
      (poll signed cli ch).1.Gathered cfg (text ++ [ch].filter fun ch => decide (space ≤ ch)) := by
  obtain ⟨hcfg, hgathered⟩ := h
  rw [poll, if_neg (not_or.mpr hch)]
  by_cases hcontrol : ch < space
  · have hdropped : [ch].filter (fun ch => decide (space ≤ ch)) = [] := by
      simpa using BitVec.not_le.mpr hcontrol
    rw [dif_pos hcontrol, hdropped, List.append_nil]
    exact ⟨rfl, hcfg, hgathered⟩
  have hprinted : [ch].filter (fun ch => decide (space ≤ ch)) = [ch] := by
    simpa using BitVec.not_lt.mp hcontrol
  rw [dif_neg hcontrol, hprinted]
  by_cases hlong : lineCap ≤ text.length
  · rw [if_pos hlong] at hgathered
    have hlonger : lineCap ≤ (text ++ [ch]).length := by
      rw [List.length_append]
      omega
    split
    · exact ⟨rfl, hcfg, by rw [if_pos hlonger]; exact hgathered⟩
    · exact ⟨rfl, hcfg, by rw [if_pos hlonger]⟩
  · rw [if_neg hlong] at hgathered
    obtain ⟨hoverflow, rfl⟩ := hgathered
    by_cases hroom : cli.line.text.length < lineCap - 1
    · rw [dif_pos hroom]
      refine ⟨rfl, hcfg, ?_⟩
      rw [if_neg]
      · exact ⟨hoverflow, rfl⟩
      · rw [List.length_append, List.length_singleton]
        omega
    · rw [dif_neg hroom]
      refine ⟨rfl, hcfg, ?_⟩
      rw [if_pos]
      rw [List.length_append, List.length_singleton]
      omega

/-- The byte that ends a line hands on what was gathered. -/
theorem poll_end {signed : Bool} {cli : Cli} {cfg : Config} {text : Frame} {ch : Byte}
    (h : cli.Gathered cfg text) (hch : ch = cr ∨ ch = lf) :
    poll signed cli ch =
      let taken := if lineCap ≤ text.length then (cfg, false) else handleLine signed cfg text
      (.init taken.1, taken.2) := by
  obtain ⟨rfl, hgathered⟩ := h
  rw [poll, if_pos hch]
  by_cases hlong : lineCap ≤ text.length
  · rw [if_pos hlong] at hgathered
    rw [if_pos hgathered, if_pos hlong]
    rfl
  · rw [if_neg hlong] at hgathered
    obtain ⟨hoverflow, rfl⟩ := hgathered
    rw [if_neg (by rw [hoverflow]; simp), if_neg hlong]
    obtain ⟨cfg, line, overflow⟩ := cli
    dsimp only at hoverflow ⊢
    subst hoverflow
    by_cases hempty : line.text = []
    · rw [hempty, LineBuffer.eq_empty hempty]
      rfl
    · rw [if_pos (List.length_pos_iff.mpr hempty)]
      rfl

theorem feed_text {signed : Bool} {text gathered : Frame} {ending : Byte} {cfg : Config} {cli : Cli}
    (hunbroken : ∀ ch ∈ text, ch ≠ cr ∧ ch ≠ lf) (hends : ending = cr ∨ ending = lf) (h : cli.Gathered cfg gathered) :
    feed signed cli (text ++ [ending]) =
      let all := gathered ++ text.filter fun ch => decide (space ≤ ch)
      let taken := if lineCap ≤ all.length then (cfg, false) else handleLine signed cfg all
      (.init taken.1, taken.2) := by
  induction text generalizing cli gathered with
  | nil =>
      rw [List.nil_append, feed, poll_end h hends, List.filter_nil, List.append_nil]
      simp only [feed, Bool.or_false]
  | cons ch text ih =>
      obtain ⟨hfalse, hgathered⟩ := poll_inside signed h (hunbroken ch List.mem_cons_self)
      rw [List.cons_append, feed, ih (fun ch hmem => hunbroken ch (List.mem_cons_of_mem _ hmem)) hgathered, hfalse,
        List.append_assoc, ← List.filter_append, List.singleton_append]
      simp only [Bool.false_or]

theorem feed_line (signed : Bool) (cfg : Config) (line : Line) :
    feed signed (.init cfg) line.bytes = (.init (takeLine signed cfg line).1, (takeLine signed cfg line).2) :=
  feed_text line.unbroken line.ends (gathered_init cfg)

/-! ### Runs -/

/-- The payload a configuration stands for. -/
def Config.payload (cfg : Config) : Payload :=
    ⟨cfg.kind, cText cfg.str1.bytes, cText cfg.str2.bytes, cfg.rawNdef, cfg.uriId⟩

/-- Both arrays hold a string. -/
def Config.Terminated (cfg : Config) : Prop := (0 : Byte) ∈ cfg.str1.bytes ∧ (0 : Byte) ∈ cfg.str2.bytes

/-- One line after another. -/
def runLines (signed : Bool) : Cli → List Line → Cli
  | cli, [] => cli
  | cli, line :: lines => runLines signed (feed signed cli line.bytes).1 lines

/-- The accepted lines of a run. -/
def accepted (signed : Bool) : Cli → List Line → List Line
  | _, [] => []
  | cli, line :: lines =>
      let fed := feed signed cli line.bytes
      if fed.2 then line :: accepted signed fed.1 lines else accepted signed fed.1 lines

/-- Every line of a run, with the state it finds. -/
def EveryLine (signed : Bool) (holds : Cli → Line → Prop) : Cli → List Line → Prop
  | _, [] => True
  | cli, line :: lines => holds cli line ∧ EveryLine signed holds (feed signed cli line.bytes).1 lines

/-- A line that is turned down leaves the payload, and an accepted one configures the complete payload it asks for. -/
def KeptBy (signed : Bool) (cli : Cli) (line : Line) : Prop :=
  let fed := feed signed cli line.bytes
  (fed.2 = false → fed.1.config.payload = cli.config.payload) ∧
    (fed.2 = true → some fed.1.config.payload = line.asked signed cli.config.uriId)

instance (signed : Bool) (cli : Cli) (line : Line) : Decidable (KeptBy signed cli line) :=
  inferInstanceAs (Decidable (_ ∧ _))

def MeetsBy (signed : Bool) (cli : Cli) (line : Line) : Prop := line.Meets signed cli.config.payload

theorem CharArray.holds_cText {size : Nat} {s : CharArray size} (h : (0 : Byte) ∈ s.bytes) :
    s.Holds (cText s.bytes) := by
  refine ⟨zero_notMem_cText _, ?_⟩
  have hsplit := List.takeWhile_append_dropWhile (p := (· ≠ (0 : Byte))) (l := s.bytes)
  cases hrest : s.bytes.dropWhile (· ≠ (0 : Byte)) with
  | nil =>
      rw [List.dropWhile_eq_nil_iff] at hrest
      exact absurd (hrest 0 h) (by simp)
  | cons ch rest =>
      have hne : s.bytes.dropWhile (· ≠ (0 : Byte)) ≠ [] := by
        rw [hrest]
        exact List.cons_ne_nil _ _
      have hhead := List.head_dropWhile_not (· ≠ (0 : Byte)) hne
      simp only [hrest, List.head_cons] at hhead
      rw [hrest, show ch = 0 by simpa using hhead] at hsplit
      exact ⟨rest, hsplit.symm⟩

theorem Config.Terminated.holds {cfg : Config} (h : cfg.Terminated) : cfg.Holds cfg.payload :=
  ⟨rfl, CharArray.holds_cText h.1, CharArray.holds_cText h.2, rfl, rfl⟩

theorem Config.Holds.payload_eq {cfg : Config} {p : Payload} (h : cfg.Holds p) : cfg.payload = p := by
  rw [Config.payload, h.kind_eq, h.str1.cText_eq, h.str2.cText_eq, h.rawNdef_eq, h.uriId_eq]

theorem Config.Holds.terminated {cfg : Config} {p : Payload} (h : cfg.Holds p) : cfg.Terminated := by
  obtain ⟨rest1, h1⟩ := h.str1.bytes_eq
  obtain ⟨rest2, h2⟩ := h.str2.bytes_eq
  rw [Config.Terminated, h1, h2]
  simp

theorem Line.printed_isText {line : Line} (h : ¬ lineCap ≤ line.printed.length) : IsText line.printed := by
  refine ⟨?_, Nat.not_le.mp h⟩
  intro hmem
  rw [Line.printed, List.mem_filter] at hmem
  exact absurd hmem.2 (by decide)

/-- What a line does to the payload. -/
def Payload.takeLine (signed : Bool) (p : Payload) (line : Line) : Payload × Bool :=
  match line.order signed with
  | none => (p, false)
  | some (c, rest) => p.handle rest c

theorem Config.Holds.takeLine {cfg : Config} {p : Payload} (h : cfg.Holds p) (signed : Bool) (line : Line) :
    (takeLine signed cfg line).1.Holds (p.takeLine signed line).1 ∧
      (takeLine signed cfg line).2 = (p.takeLine signed line).2 := by
  rw [WriterPayload.takeLine, Payload.takeLine, Line.order]
  by_cases hlong : lineCap ≤ line.printed.length
  · rw [if_pos hlong, if_pos hlong]
    exact ⟨h, rfl⟩
  · rw [if_neg hlong, if_neg hlong]
    exact h.handleLine (Line.printed_isText hlong)

theorem Line.order_isArgument {signed : Bool} {line : Line} {c : Command} {rest : Frame}
    (h : line.order signed = some (c, rest)) : IsArgument rest := by
  rw [Line.order] at h
  split at h
  · cases h
  · rename_i hlong
    exact WriterPayload.order_isArgument (Line.printed_isText hlong) h

/-- **One line of a run**: it keeps the payload exactly when it meets the condition. -/
theorem keptBy_iff {signed : Bool} {cfg : Config} {line : Line} (hcfg : cfg.Terminated)
    (hp : cfg.payload.Settled ∨ MeetsBy signed (.init cfg) line) :
    KeptBy signed (.init cfg) line ↔ MeetsBy signed (.init cfg) line := by
  obtain ⟨hholds, hok⟩ := hcfg.holds.takeLine signed line
  rw [KeptBy, feed_line]
  dsimp only [Cli.init]
  rw [hholds.payload_eq, hok, Payload.takeLine, Line.asked]
  cases horder : line.order signed with
  | none =>
      refine iff_of_true ⟨fun _ => rfl, by rintro ⟨⟩⟩ ?_
      intro c rest h
      rw [horder] at h
      cases h
  | some given =>
      obtain ⟨c, rest⟩ := given
      have hmeets : MeetsBy signed (.init cfg) line ↔ c.Meets cfg.payload rest := by
        constructor
        · exact fun h => h c rest horder
        · intro h c' rest' horder'
          rw [horder] at horder'
          cases horder'
          exact h
      rw [hmeets] at hp
      apply Iff.trans _ hmeets.symm
      dsimp only [Option.map_some]
      rw [Option.some.injEq]
      exact c.kept_iff (Line.order_isArgument horder) hp

/-- A message depends on the identifier only where a URI is written as it stands. -/
theorem Command.asked_message (c : Command) (uriId : Byte) (rest : Frame) :
    (c.asked uriId rest).message = (c.asked 0 rest).message := by
  cases c <;> rfl

theorem Payload.handle_message {p : Payload} {rest : Frame} {c : Command} (h : (p.handle rest c).2 = true) :
    (p.handle rest c).1.message ≠ [] := by
  rw [Payload.handle] at h ⊢
  dsimp only at h ⊢
  split
  · rename_i happlied
    rw [if_pos happlied] at h
    exact fun hempty => of_decide_eq_true h (by rw [hempty]; rfl)
  · rename_i happlied
    rw [if_neg happlied] at h
    exact absurd h happlied

/-- An accepted line leaves a payload that the encoder takes. -/
theorem Payload.takeLine_settled {p : Payload} {signed : Bool} {line : Line} (hp : p.Settled)
    (hkept : (p.takeLine signed line).2 = false → (p.takeLine signed line).1 = p) :
    (p.takeLine signed line).1.Settled := by
  cases hok : (p.takeLine signed line).2 with
  | false =>
      rw [hkept hok]
      exact hp
  | true =>
      rw [Payload.takeLine] at hok ⊢
      cases horder : line.order signed with
      | none =>
          rw [horder] at hok
          cases hok
      | some given =>
          rw [horder] at hok
          exact Or.inr (Payload.handle_message hok)

theorem every_keptBy {signed : Bool} {cfg : Config} {lines : List Line} (hcfg : cfg.Terminated)
    (h : EveryLine signed (MeetsBy signed) (.init cfg) lines) :
    EveryLine signed (KeptBy signed) (.init cfg) lines := by
  induction lines generalizing cfg with
  | nil => exact trivial
  | cons line lines ih =>
      obtain ⟨hline, hlines⟩ := h
      refine ⟨(keptBy_iff hcfg (Or.inr hline)).mpr hline, ?_⟩
      rw [feed_line] at hlines ⊢
      exact ih (hcfg.holds.takeLine signed line).1.terminated hlines

theorem every_meetsBy {signed : Bool} {cfg : Config} {lines : List Line} (hcfg : cfg.Terminated)
    (hp : cfg.payload.Settled) (h : EveryLine signed (KeptBy signed) (.init cfg) lines) :
    EveryLine signed (MeetsBy signed) (.init cfg) lines := by
  induction lines generalizing cfg with
  | nil => exact trivial
  | cons line lines ih =>
      obtain ⟨hline, hlines⟩ := h
      refine ⟨(keptBy_iff hcfg (Or.inl hp)).mp hline, ?_⟩
      obtain ⟨hholds, hok⟩ := hcfg.holds.takeLine signed line
      rw [KeptBy, feed_line] at hline
      rw [feed_line] at hlines ⊢
      apply ih hholds.terminated _ hlines
      rw [hholds.payload_eq]
      apply Payload.takeLine_settled hp
      intro hfalse
      rw [← hholds.payload_eq]
      exact hline.1 (hok.trans hfalse)

theorem Line.message_eq {signed : Bool} {line : Line} {uriId : Byte} {p : Payload}
    (h : some p = line.asked signed uriId) : p.message = line.message signed := by
  rw [Line.asked] at h
  rw [Line.message, Line.asked]
  cases horder : line.order signed with
  | none =>
      rw [horder] at h
      cases h
  | some given =>
      rw [horder] at h
      cases h
      exact Command.asked_message _ _ _

/-- The message at the end of a run whose lines are kept. -/
theorem message_runLines {signed : Bool} {cfg : Config} {lines : List Line} (hcfg : cfg.Terminated)
    (h : EveryLine signed (KeptBy signed) (.init cfg) lines) :
    (runLines signed (.init cfg) lines).config.message =
      (((accepted signed (.init cfg) lines).getLast?).map (Line.message signed)).getD cfg.message := by
  induction lines generalizing cfg with
  | nil => rfl
  | cons line lines ih =>
      obtain ⟨hline, hlines⟩ := h
      have hholds := (hcfg.holds.takeLine signed line).1
      have hnext := hholds.terminated
      rw [KeptBy, feed_line] at hline
      rw [feed_line] at hlines
      rw [runLines, accepted, feed_line]
      dsimp only
      rw [ih hnext hlines]
      cases hok : (takeLine signed cfg line).2 with
      | false =>
          have hsame : (takeLine signed cfg line).1.payload = cfg.payload := hline.1 hok
          rw [if_neg (by simp), hnext.holds.message_eq, hsame, ← hcfg.holds.message_eq]
      | true =>
          have hasked : some (takeLine signed cfg line).1.payload = line.asked signed cfg.uriId := hline.2 hok
          have hmessage : (takeLine signed cfg line).1.message = line.message signed := by
            rw [hnext.holds.message_eq]
            exact Line.message_eq hasked
          rw [if_pos rfl, List.getLast?_cons, hmessage]
          cases (accepted signed (.init (takeLine signed cfg line).1) lines).getLast? <;> rfl

/-- **The message is the last accepted line's**, with its complete text, in every run whose lines meet the condition,
and each line on the way leaves the payload or configures what it asks for. From a payload that is not set, or one
the encoder takes, a run whose lines do that has met the condition at every line. -/
theorem message_of_last_accepted (signed : Bool) {cfg : Config} (hcfg : cfg.Terminated) (lines : List Line) :
    (EveryLine signed (MeetsBy signed) (.init cfg) lines →
      EveryLine signed (KeptBy signed) (.init cfg) lines ∧
        (runLines signed (.init cfg) lines).config.message =
          (((accepted signed (.init cfg) lines).getLast?).map (Line.message signed)).getD cfg.message) ∧
      (cfg.payload.Settled → EveryLine signed (KeptBy signed) (.init cfg) lines →
        EveryLine signed (MeetsBy signed) (.init cfg) lines) := by
  constructor
  · intro hmeets
    have hkept := every_keptBy hcfg hmeets
    exact ⟨hkept, message_runLines hcfg hkept⟩
  · exact every_meetsBy hcfg

/-- `writer_payload_default`. -/
def defaultConfig : Config where
  kind := .none
  str1 := .ofText _ [] (Nat.zero_le str1Max)
  str2 := .ofText _ [] (Nat.zero_le str2Max)
  rawNdef := []
  uriId := 0

/-- A line as it is typed. -/
def typed (text : Frame) (h : ∀ ch ∈ text, ch ≠ cr ∧ ch ≠ lf := by decide +kernel) : Line := ⟨text, lf, h, Or.inr rfl⟩

def lateLine : Line := typed (ascii "sms 5|running late")
def contactLine : Line := typed (ascii "vcard Ada")
def longLine : Line := typed (ascii "sms 5|" ++ List.replicate 130 0x61)

def noteLine : Line := typed (ascii "text on my way")
def wordLine : Line := typed (ascii "hello")
def phoneLine : Line := typed (ascii "phone")

/-- Two lines are accepted, each with one behind it that is turned down. -/
def fourLines : List Line := [noteLine, wordLine, lateLine, phoneLine]

theorem Line.meets_of_order {signed : Bool} {line : Line} {p : Payload} {c : Command} {rest : Frame}
    (horder : line.order signed = some (c, rest)) (h : c.Meets p rest) : line.Meets signed p := by
  intro c' rest' horder'
  obtain ⟨rfl, rfl⟩ := Prod.mk.inj (Option.some.inj (horder.symm.trans horder'))
  exact h

theorem fourLines_meet : EveryLine false (MeetsBy false) (.init defaultConfig) fourLines := by
  have hnote : Command.text.Encodes (ascii "on my way") := by
    rw [Command.Encodes]
    decide
  have hlate : Command.sms.Encodes (ascii "5|running late") := by
    rw [Command.Encodes]
    decide
  have hword : wordLine.order false = none := by decide
  refine ⟨Line.meets_of_order (show _ = some (.text, ascii "on my way") by decide) hnote, ?_,
    Line.meets_of_order (show _ = some (.sms, ascii "5|running late") by decide)
      ⟨hlate, by decide, by rw [Whole]; decide⟩,
    Line.meets_of_order (show _ = some (.phone, []) by decide) ?_, trivial⟩
  · intro c rest h
    rw [hword] at h
    cases h
  · rw [Command.Meets, Command.MeetsFormatted, if_pos (Or.inl rfl)]
    decide +kernel

theorem message_of_last_accepted_late :
    accepted false (.init defaultConfig) fourLines = [noteLine, lateLine] ∧
      (runLines false (.init defaultConfig) fourLines).config.message = lateLine.message false := by
  have hterminated : defaultConfig.Terminated := ⟨by decide, by decide⟩
  have haccepted : accepted false (.init defaultConfig) fourLines = [noteLine, lateLine] := by
    simp only [fourLines, accepted]
    rw [if_pos (by decide +kernel), if_neg (by decide +kernel), if_pos (by decide +kernel), if_neg (by decide +kernel)]
  have h := ((message_of_last_accepted false hterminated fourLines).1 fourLines_meet).2
  rw [haccepted] at h
  exact ⟨haccepted, h⟩

/-- The contact is turned down, yet the message is no longer the one of the line before; and the long line is accepted
with its text cut. -/
theorem rejected_line_changes_message :
    (runLines false (.init defaultConfig) [lateLine, contactLine]).config.message ≠
        (((accepted false (.init defaultConfig) [lateLine, contactLine]).getLast?).map (Line.message false)).getD
          defaultConfig.message ∧
      (feed false (.init defaultConfig) longLine.bytes).2 = true ∧ ¬ KeptBy false (.init defaultConfig) longLine := by
  decide +kernel

end NeroReader.WriterPayload
