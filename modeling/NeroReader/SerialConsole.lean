import NeroReader.Machine
import NeroReader.ModeScan
import NeroReader.RingBuffer

/-!
The serial input of the combined firmware. Received bytes wait in the port, move into a ring, and are popped by the
mode scanner, which gives back to the ring what is no command. In writer mode the command line reads one byte in each
pass of the main loop. The ring is a queue with a bound; on the way through port, ring and scanner no byte is lost or
overtaken.
-/

namespace NeroReader.SerialConsole

open ModeScan

/-! ### The ring -/

def serialRxCap : Nat := 128

abbrev SerialRx := RingBuffer Byte serialRxCap

theorem zero_lt_serialRxCap : 0 < serialRxCap := Nat.zero_lt_succ 127

/-- The ring at reset. -/
def SerialRx.empty : SerialRx := ⟨fun _ => 0, 0, 0, zero_lt_serialRxCap, zero_lt_serialRxCap⟩

/-- `nero_nfc_app_serial_preload`, from the bytes that wait in the port. -/
def serialPreload : SerialRx → Frame → SerialRx × Frame
  | rx, [] => (rx, [])
  | rx, b :: uart => if 0 < rx.free then serialPreload (rx.pushTail b) uart else (rx, b :: uart)

/-- `nero_nfc_app_serial_pushback_read`. -/
def pushbackRead (rx : SerialRx) : Option (Byte × SerialRx) := if rx.count = 0 then none else some rx.popHead

/-- `nero_nfc_app_serial_pushback_return`. -/
def pushbackReturn (rx : SerialRx) (bytes : Frame) : SerialRx :=
  if bytes = [] ∨ rx.free < bytes.length then rx else bytes.foldr (fun b rx => rx.prependHead b) rx

/-! ### The queue behind the ring -/

/-- What a ring of this size can hold. -/
def roomMax : Nat := serialRxCap - 1

inductive SerialOp where
  | preload (uart : Frame)
  | read
  | giveBack (bytes : Frame)
  deriving DecidableEq, Repr

/-- What an operation left outside: the bytes that stayed in the port, or the byte that was read. -/
inductive SerialOut where
  | waiting (uart : Frame)
  | byte (read : Option Byte)
  | none
  deriving DecidableEq, Repr

def ringStep (rx : SerialRx) : SerialOp → SerialRx × SerialOut
  | .preload uart => ((serialPreload rx uart).1, .waiting (serialPreload rx uart).2)
  | .read => ((pushbackRead rx).elim rx (·.2), .byte ((pushbackRead rx).map (·.1)))
  | .giveBack bytes => (pushbackReturn rx bytes, .none)

/-- The same operations on a list of at most `roomMax` bytes. -/
def queueStep (queue : Frame) : SerialOp → Frame × SerialOut
  | .preload uart =>
      (queue ++ uart.take (roomMax - queue.length), .waiting (uart.drop (roomMax - queue.length)))
  | .read => (queue.tail, .byte queue.head?)
  | .giveBack bytes => (if roomMax < bytes.length + queue.length then queue else bytes ++ queue, .none)

/-- The outputs of some operations, and the state behind them. -/
def runOps {S : Type} (step : S → SerialOp → S × SerialOut) : S → List SerialOp → S × List SerialOut
  | s, [] => (s, [])
  | s, op :: ops => ((runOps step (step s op).1 ops).1, (step s op).2 :: (runOps step (step s op).1 ops).2)

theorem count_le_roomMax (rx : SerialRx) : rx.contents.length ≤ roomMax := by
  rw [RingBuffer.contents_length]
  exact Nat.le_of_lt_succ rx.count_lt

theorem free_pos_iff (rx : SerialRx) : 0 < rx.free ↔ rx.contents.length < roomMax := by
  rw [RingBuffer.free_eq, roomMax]
  omega

theorem contents_serialPreload (rx : SerialRx) (uart : Frame) :
    (serialPreload rx uart).1.contents = rx.contents ++ uart.take (roomMax - rx.contents.length) ∧
      (serialPreload rx uart).2 = uart.drop (roomMax - rx.contents.length) := by
  induction uart generalizing rx with
  | nil => exact ⟨by rw [serialPreload, List.take_nil, List.append_nil], by rw [serialPreload, List.drop_nil]⟩
  | cons b uart ih =>
      rw [serialPreload]
      by_cases hfree : 0 < rx.free
      · have hroom := (free_pos_iff rx).mp hfree
        have hpush : (rx.pushTail b).contents = rx.contents ++ [b] := by
          apply RingBuffer.contents_pushTail
          rw [RingBuffer.contents_length] at hroom
          exact Nat.succ_lt_of_lt_pred hroom
        have hrest : roomMax - rx.contents.length = roomMax - (rx.pushTail b).contents.length + 1 := by
          rw [hpush, List.length_append, List.length_singleton]
          omega
        rw [if_pos hfree, (ih _).1, (ih _).2, hrest, List.take_succ_cons, List.drop_succ_cons, hpush, List.append_assoc]
        exact ⟨rfl, rfl⟩
      · have hfull : roomMax - rx.contents.length = 0 :=
          Nat.sub_eq_zero_of_le (Nat.le_of_not_lt (mt (free_pos_iff rx).mpr hfree))
        rw [if_neg hfree, hfull, List.take_zero, List.append_nil]
        exact ⟨rfl, rfl⟩

theorem contents_foldr_prependHead (rx : SerialRx) (bytes : Frame) (h : bytes.length + rx.contents.length ≤ roomMax) :
    (bytes.foldr (fun b rx => rx.prependHead b) rx).contents = bytes ++ rx.contents := by
  induction bytes with
  | nil => rfl
  | cons b bytes ih =>
      have hroom : bytes.length + 1 + rx.contents.length ≤ 127 := h
      have hrest := ih (by rw [List.length_cons] at h; omega)
      rw [List.foldr_cons, RingBuffer.contents_prependHead, hrest, List.cons_append]
      rw [← RingBuffer.contents_length, hrest, List.length_append]
      exact Nat.lt_succ_of_le (by omega)

theorem contents_pushbackReturn (rx : SerialRx) (bytes : Frame) : (pushbackReturn rx bytes).contents =
    if roomMax < bytes.length + rx.contents.length then rx.contents else bytes ++ rx.contents := by
  have hle := count_le_roomMax rx
  have hfree : rx.free = roomMax - rx.contents.length := RingBuffer.free_eq rx
  rw [pushbackReturn]
  by_cases hnil : bytes = []
  · subst hnil
    rw [if_pos (.inl rfl), if_neg (by rw [List.length_nil, Nat.zero_add]; exact Nat.not_lt.mpr hle)]
    rfl
  by_cases hroom : roomMax < bytes.length + rx.contents.length
  · rw [if_pos (.inr (by omega)), if_pos hroom]
  · rw [if_neg (fun h => h.elim hnil (by omega)), if_neg hroom]
    exact contents_foldr_prependHead rx bytes (Nat.le_of_not_lt hroom)

theorem pushbackRead_spec (rx : SerialRx) : (pushbackRead rx).map (·.1) = rx.contents.head? ∧
    ((pushbackRead rx).elim rx (·.2)).contents = rx.contents.tail := by
  rw [pushbackRead]
  by_cases hempty : rx.count = 0
  · rw [if_pos hempty, RingBuffer.contents_eq_nil.mpr hempty]
    exact ⟨rfl, RingBuffer.contents_eq_nil.mpr hempty⟩
  · rw [if_neg hempty, RingBuffer.contents_popHead rx hempty]
    exact ⟨rfl, rfl⟩

/-- One operation, on the ring and on its contents. -/
theorem ringStep_queueStep (rx : SerialRx) (op : SerialOp) :
    queueStep rx.contents op = ((ringStep rx op).1.contents, (ringStep rx op).2) := by
  cases op with
  | preload uart =>
      obtain ⟨hcontents, hrest⟩ := contents_serialPreload rx uart
      rw [queueStep, ringStep, hcontents, hrest]
  | read =>
      obtain ⟨hbyte, hrest⟩ := pushbackRead_spec rx
      rw [queueStep, ringStep, hbyte, hrest]
  | giveBack bytes => rw [queueStep, ringStep, contents_pushbackReturn]

/-- **The ring is a queue with a bound.** Over any operations it gives the outputs of the list of its contents: what
comes in leaves in order, what is given back leaves first, and where there is no room nothing is overwritten. -/
theorem ring_refines_queue (ops : List SerialOp) (rx : SerialRx) :
    runOps queueStep rx.contents ops = ((runOps ringStep rx ops).1.contents, (runOps ringStep rx ops).2) := by
  induction ops generalizing rx with
  | nil => rfl
  | cons op ops ih =>
      rw [runOps, runOps, ringStep_queueStep]
      dsimp only
      rw [ih]

/-! ### The console -/

inductive RuntimeMode where
  | reader
  | writer
  deriving DecidableEq, Repr

/-- What the console does to the rest: it sets one of the modes up, or hands the command line a byte. -/
inductive Report where
  | setup (mode : RuntimeMode)
  | read (b : Byte)
  deriving DecidableEq, Repr

def Report.byte? : Report → Option Byte
  | .setup _ => none
  | .read b => some b

/-- The port, the ring, the scanner's buffer and the mode, with the reports so far. -/
structure Console where
  uart : Frame
  rx : SerialRx
  scan : Frame
  mode : RuntimeMode
  reports : List Report

/-- The pushback buffer of the scan. -/
def pushbackCap : Nat := scanCap + 4

namespace Console

/-- The bytes that the command line has read. -/
def delivered (c : Console) : Frame := c.reports.filterMap Report.byte?

/-- `do_mode_switch`. A reader that is told to be one is set up again. -/
def doModeSwitch (c : Console) (mode : RuntimeMode) : Console :=
  if mode = c.mode then
    match mode with
    | .reader => { c with reports := c.reports ++ [.setup .reader] }
    | .writer => c
  else { c with mode := mode, scan := [], reports := c.reports ++ [.setup mode] }

/-- `scan_mode_switch`, over at most so many bytes of the ring. -/
def scanRing : Nat → Console → Console
  | 0, c => c
  | n + 1, c =>
      match pushbackRead c.rx with
      | none => c
      | some (ch, rx) =>
          let fed := scanFeed c.scan ch pushbackCap
          let c := { c with rx := rx, scan := fed.buf }
          match fed.result with
          | .ingested => scanRing n c
          | .gotReader => scanRing n (c.doModeSwitch .reader)
          | .gotWriter => scanRing n (c.doModeSwitch .writer)
          | .pushbackStop =>
              if c.mode = .writer then { c with rx := pushbackReturn c.rx fed.pushback } else scanRing n c

def scanModeSwitch (c : Console) : Console := scanRing c.rx.count c

/-- `nfc_hal_preload_serial`. -/
def preload (c : Console) : Console :=
  { c with rx := (serialPreload c.rx c.uart).1, uart := (serialPreload c.rx c.uart).2 }

/-- `nfc_app_poll_mode_switch`, and whether the mode changed. -/
def pollModeSwitch (c : Console) : Console × Bool :=
  (c.preload.scanModeSwitch, c.preload.scanModeSwitch.mode ≠ c.mode)

/-- The byte that `writer_hal_serial_read_byte` reads, behind its own scan. -/
def readByte (c : Console) : Console :=
  match pushbackRead c.rx with
  | some (b, rx) => { c with rx := rx, reports := c.reports ++ [.read b] }
  | none =>
      match c.uart with
      | [] => c
      | b :: uart => { c with uart := uart, reports := c.reports ++ [.read b] }

/-- `writer_serial_cli_poll`. -/
def cliPoll (c : Console) : Console :=
  let first := c.pollModeSwitch
  if first.2 then first.1
  else
    let c := first.1.preload
    if c.rx.count = 0 ∧ c.uart = [] then c
    else
      let second := c.pollModeSwitch
      if second.2 then second.1 else second.1.readByte

/-- `nfc_app_loop` of the combined firmware. -/
def loopPass (c : Console) : Console :=
  let polled := c.pollModeSwitch
  if polled.2 then polled.1
  else
    match polled.1.mode with
    | .reader => polled.1
    | .writer => polled.1.cliPoll

end Console

/-! ### One scan -/

def noCr (text : Frame) : Frame := text.filter (· ≠ cr)

/-- The text of a command line stands somewhere in the text. -/
def NamesCommand (text : Frame) : Prop := modeReader ++ [lf] <:+: text ∨ modeWriter ++ [lf] <:+: text

instance (text : Frame) : Decidable (NamesCommand text) :=
  inferInstanceAs (Decidable (modeReader ++ [lf] <:+: text ∨ modeWriter ++ [lf] <:+: text))

theorem NamesCommand.mono {text more : Frame} (h : NamesCommand text) (hwithin : text <:+: more) : NamesCommand more :=
  h.imp (·.trans hwithin) (·.trans hwithin)

@[simp] theorem noCr_append (a b : Frame) : noCr (a ++ b) = noCr a ++ noCr b := List.filter_append ..

theorem noCr_cons (ch : Byte) (rest : Frame) : noCr (ch :: rest) = if ch = cr then noCr rest else ch :: noCr rest := by
  by_cases hcr : ch = cr
  · rw [if_pos hcr, noCr, List.filter_cons_of_neg (by simp [hcr])]
    rfl
  · rw [if_neg hcr, noCr, List.filter_cons_of_pos (by simp [hcr])]
    rfl

/-- What the scanner can hold between two bytes. -/
structure Held (buf : Frame) : Prop where
  begun : Begun buf
  plain : ∀ ch ∈ buf, ch ≠ cr ∧ ch ≠ lf

theorem held_nil : Held [] := ⟨begun_nil, fun _ h => absurd h List.not_mem_nil⟩

theorem Held.noCr {buf : Frame} (h : Held buf) : noCr buf = buf :=
  List.filter_eq_self.mpr fun ch hch => decide_eq_true (h.plain ch hch).1

/-- What a scan in writer mode leaves of a text: all of it held, or some of it given back in front. -/
structure Scanned (held text held' text' : Frame) : Prop where
  kept : held' ++ SerialConsole.noCr text' = held ++ SerialConsole.noCr text
  length_le : held'.length + text'.length ≤ held.length + text.length
  held : Held held'
  front : text' = [] ∨ held' = [] ∧ ∃ ch rest, text' = ch :: rest ∧ ch ≠ cr

theorem scanCap_le_pushbackCap : scanCap ≤ pushbackCap := Nat.le_add_right _ _

theorem pushbackRead_of_contents {rx : SerialRx} {ch : Byte} {rest : Frame} (h : rx.contents = ch :: rest) :
    ∃ rx', pushbackRead rx = some (ch, rx') ∧ rx'.contents = rest := by
  have hcount : rx.count ≠ 0 := by
    rw [← RingBuffer.contents_length, h]
    exact Nat.succ_ne_zero _
  obtain ⟨hbyte, hrest⟩ := RingBuffer.popHead_of_contents h
  exact ⟨rx.popHead.2, by rw [pushbackRead, if_neg hcount, ← hbyte], hrest⟩

theorem pushbackRead_of_nil {rx : SerialRx} (h : rx.contents = []) : pushbackRead rx = none :=
  if_pos (RingBuffer.contents_eq_nil.mp h)

/-- What the scanner gives back stands in front again. -/
theorem scanned_givenBack {held rest : Frame} {ch : Byte} {rx : SerialRx} (hheld : Held held) (hch : ch ≠ cr)
    (hrest : rx.contents = rest) (hroom : held.length + (ch :: rest).length ≤ roomMax) :
    Scanned held (ch :: rest) [] (pushbackReturn rx (held ++ [ch])).contents := by
  have hlength : (held ++ [ch]).length + rx.contents.length = held.length + (ch :: rest).length := by
    rw [hrest, List.length_append, List.length_cons, List.length_cons, List.length_nil]
    omega
  have hcontents : (pushbackReturn rx (held ++ [ch])).contents = held ++ [ch] ++ rest := by
    rw [contents_pushbackReturn, if_neg (by omega), hrest]
  rw [hcontents]
  refine ⟨?_, ?_, held_nil, .inr ⟨rfl, ?_⟩⟩
  · rw [List.nil_append, noCr_append, noCr_append, hheld.noCr, noCr_cons, noCr_cons, if_neg hch, if_neg hch,
      List.append_assoc]
    rfl
  · simp
  · cases held with
    | nil => exact ⟨ch, rest, rfl, hch⟩
    | cons first others => exact ⟨first, others ++ [ch] ++ rest, rfl, (hheld.plain first List.mem_cons_self).1⟩

/-- A byte that does not finish a command is held, or given back behind what was held. -/
theorem scanFeed_held {buf : Frame} {ch : Byte} (h : Held buf) (hcr : ch ≠ cr) (hnone : ¬ NamesCommand (buf ++ [ch])) :
    scanFeed buf ch pushbackCap = ⟨[], .pushbackStop, buf ++ [ch]⟩ ∨
      scanFeed buf ch pushbackCap = ⟨buf ++ [ch], .ingested, []⟩ ∧ Held (buf ++ [ch]) := by
  by_cases hlf : ch = lf
  · subst hlf
    have hwriter : buf ≠ modeWriter := fun hbuf => hnone (.inr (by rw [hbuf]))
    have hreader : buf ≠ modeReader := fun hbuf => hnone (.inl (by rw [hbuf]))
    rw [scanFeed_lf scanCap_le_pushbackCap h.begun, if_neg hwriter, if_neg hreader]
    exact .inl rfl
  · rcases scanFeed_byte scanCap_le_pushbackCap h.begun hcr hlf with ⟨hfed, -⟩ | ⟨hfed, hbegun⟩
    · exact .inl hfed
    · refine .inr ⟨hfed, hbegun, fun b hb => ?_⟩
      rcases List.mem_append.mp hb with hb | hb
      · exact h.plain b hb
      · rw [List.mem_singleton.mp hb]
        exact ⟨hcr, hlf⟩

/-- **A scan in writer mode**, over a text without a command. -/
theorem scanRing_writer (n : Nat) (c : Console) (hn : c.rx.contents.length ≤ n) (hmode : c.mode = .writer)
    (hheld : Held c.scan) (hroom : c.scan.length + c.rx.contents.length ≤ roomMax)
    (hnone : ¬ NamesCommand (c.scan ++ noCr c.rx.contents)) :
    (c.scanRing n).mode = .writer ∧ (c.scanRing n).uart = c.uart ∧ (c.scanRing n).reports = c.reports ∧
      Scanned c.scan c.rx.contents (c.scanRing n).scan (c.scanRing n).rx.contents := by
  induction n generalizing c with
  | zero =>
      have hnil : c.rx.contents = [] := List.length_eq_zero_iff.mp (Nat.le_zero.mp hn)
      exact ⟨hmode, rfl, rfl, rfl, Nat.le_refl _, hheld, .inl hnil⟩
  | succ n ih =>
      cases hcontents : c.rx.contents with
      | nil =>
          rw [Console.scanRing, pushbackRead_of_nil hcontents]
          exact ⟨hmode, rfl, rfl, by rw [hcontents], by rw [hcontents], hheld, .inl hcontents⟩
      | cons ch rest =>
          rw [hcontents] at hn hroom hnone
          obtain ⟨rx, hread, hrest⟩ := pushbackRead_of_contents hcontents
          have hshorter : rx.contents.length ≤ n := by
            rw [hrest]
            exact Nat.le_of_succ_le_succ hn
          rw [Console.scanRing, hread]
          dsimp only
          by_cases hcr : ch = cr
          · have hfed : scanFeed c.scan ch pushbackCap = ⟨c.scan, .ingested, []⟩ := by rw [scanFeed, if_pos hcr]
            have hskip : noCr (ch :: rest) = noCr rest := by rw [noCr_cons, if_pos hcr]
            rw [hskip] at hnone
            rw [hfed]
            obtain ⟨hmode', huart, hreports, hscanned⟩ := ih { c with rx := rx } hshorter hmode hheld
              (by rw [hrest]; rw [List.length_cons] at hroom; exact Nat.le_of_succ_le hroom) (by rwa [hrest])
            rw [hrest] at hscanned
            exact ⟨hmode', huart, hreports, by rw [hskip]; exact hscanned.kept,
              Nat.le_succ_of_le hscanned.length_le, hscanned.held, hscanned.front⟩
          have hkeep : c.scan ++ noCr (ch :: rest) = c.scan ++ [ch] ++ noCr rest := by
            rw [noCr_cons, if_neg hcr, List.append_assoc, List.singleton_append]
          rw [hkeep] at hnone
          rcases scanFeed_held hheld hcr fun h => hnone (h.mono (List.prefix_append _ _).isInfix) with
            hfed | ⟨hfed, hnext⟩
          · rw [hfed]
            dsimp only
            rw [if_pos hmode]
            exact ⟨hmode, rfl, rfl, scanned_givenBack hheld hcr hrest hroom⟩
          · rw [hfed]
            obtain ⟨hmode', huart, hreports, hscanned⟩ := ih { c with rx := rx, scan := c.scan ++ [ch] } hshorter
              hmode hnext
              (by
                change (c.scan ++ [ch]).length + rx.contents.length ≤ roomMax
                rw [hrest, List.length_append, List.length_singleton]
                rw [List.length_cons] at hroom
                omega)
              (by rwa [hrest])
            change Scanned (c.scan ++ [ch]) rx.contents _ _ at hscanned
            rw [hrest] at hscanned
            refine ⟨hmode', huart, hreports, by rw [hkeep]; exact hscanned.kept, ?_, hscanned.held, hscanned.front⟩
            have hlength := hscanned.length_le
            rw [List.length_append, List.length_singleton] at hlength
            rw [List.length_cons]
            exact Nat.le_trans hlength (by omega)

/-! ### One pass -/

namespace Console

/-- What is still to be read. -/
def waiting (c : Console) : Frame := c.rx.contents ++ c.uart

/-- All the text of the console, in order and without carriage returns. -/
def text (c : Console) : Frame := c.delivered ++ c.scan ++ noCr c.waiting

/-- What the scanner holds and what waits fit into the ring, or the scanner holds
nothing and no carriage return waits. -/
def Fits (c : Console) : Prop := c.scan.length + c.waiting.length ≤ roomMax ∨ c.scan = [] ∧ cr ∉ c.waiting

end Console

/-- What a poll keeps in writer mode. -/
structure Polled (c c' : Console) : Prop where
  mode : c'.mode = .writer
  reports : c'.reports = c.reports
  text : c'.text = c.text
  held : Held c'.scan
  fits : c'.Fits
  front : c'.waiting = [] ∨ c'.scan = [] ∧ ∃ ch rest, c'.rx.contents = ch :: rest ∧ ch ≠ cr

theorem noCr_length_le (text : Frame) : (noCr text).length ≤ text.length := List.length_filter_le ..

theorem noCr_eq_self {text : Frame} (h : cr ∉ text) : noCr text = text :=
  List.filter_eq_self.mpr fun _ hch => decide_eq_true fun heq => h (heq ▸ hch)

theorem cr_notMem_of_length {text : Frame} (h : text.length ≤ (noCr text).length) : cr ∉ text := by
  intro hmem
  have heq := List.length_filter_eq_length_iff.mp (Nat.le_antisymm (noCr_length_le text) h) cr hmem
  simp at heq

theorem waiting_preload (c : Console) : c.preload.waiting = c.waiting := by
  obtain ⟨hcontents, hrest⟩ := contents_serialPreload c.rx c.uart
  rw [Console.waiting, Console.preload, hcontents, hrest, List.append_assoc, List.take_append_drop]
  rfl

theorem preload_left {c : Console} (h : c.preload.rx.contents.length < roomMax) : c.preload.uart = [] := by
  obtain ⟨hcontents, hrest⟩ := contents_serialPreload c.rx c.uart
  rw [Console.preload, hcontents, List.length_append, List.length_take] at h
  rw [Console.preload, hrest, List.drop_eq_nil_iff]
  omega

theorem Held.length_lt {buf : Frame} (h : Held buf) : buf.length < roomMax :=
  Nat.lt_of_lt_of_le h.begun.room (show 31 ≤ 127 by omega)

/-- A ring that fits leaves the port empty when the scan empties it. -/
theorem drained {c : Console} {held' text' : Frame} (hfits : c.preload.Fits)
    (hscanned : Scanned c.preload.scan c.preload.rx.contents held' text') (hempty : text' = []) :
    c.preload.uart = [] := by
  rcases hfits with hroom | ⟨hscan, hcr⟩
  · by_contra hleft
    have hpos := List.length_pos_iff.mpr hleft
    rw [Console.waiting, List.length_append] at hroom
    exact hleft (preload_left (by omega))
  · have hkept := hscanned.kept
    have hplain : cr ∉ c.preload.rx.contents := fun h => hcr (List.mem_append_left _ h)
    rw [hempty, hscan, noCr_eq_self hplain, List.nil_append] at hkept
    apply preload_left
    rw [← hkept]
    simpa [noCr] using hscanned.held.length_lt

theorem Scanned.fits {c : Console} {c' : Console} (hfits : c.preload.Fits) (huart : c'.uart = c.preload.uart)
    (hscanned : Scanned c.preload.scan c.preload.rx.contents c'.scan c'.rx.contents) : c'.Fits := by
  have hleft := drained hfits hscanned
  rcases hfits with hroom | ⟨hscan, hcr⟩
  · left
    have hlength := hscanned.length_le
    rw [Console.waiting, List.length_append] at hroom ⊢
    rw [huart]
    omega
  rcases hscanned.front with hempty | ⟨hheld, -⟩
  · left
    rw [Console.waiting, huart, hleft hempty, hempty, List.append_nil, List.length_nil, Nat.add_zero]
    exact Nat.le_of_lt hscanned.held.length_lt
  · right
    have hplain : cr ∉ c.preload.rx.contents := fun h => hcr (List.mem_append_left _ h)
    have hkept := congrArg List.length hscanned.kept
    have hlength := hscanned.length_le
    rw [hscan, hheld, noCr_eq_self hplain, List.nil_append, List.nil_append] at hkept
    rw [hscan, hheld, List.length_nil, Nat.zero_add, Nat.zero_add] at hlength
    refine ⟨hheld, fun h => ?_⟩
    rcases List.mem_append.mp h with h | h
    · exact cr_notMem_of_length (hkept ▸ hlength) h
    · exact hcr (List.mem_append_right _ (huart ▸ h))

/-- **A poll in writer mode.** -/
theorem polled {c : Console} (hmode : c.mode = .writer) (hheld : Held c.scan) (hfits : c.Fits)
    (hnone : ¬ NamesCommand c.text) : Polled c c.pollModeSwitch.1 ∧ c.pollModeSwitch.2 = false := by
  have hfits' : c.preload.Fits := by
    rw [Console.Fits, waiting_preload]
    exact hfits
  have hroom : c.preload.scan.length + c.preload.rx.contents.length ≤ roomMax := by
    rcases hfits' with h | ⟨h, -⟩
    · rw [Console.waiting, List.length_append] at h
      omega
    · rw [h, List.length_nil, Nat.zero_add]
      exact count_le_roomMax _
  have hwithin : c.preload.scan ++ noCr c.preload.rx.contents <:+: c.text := by
    rw [Console.text, ← waiting_preload, Console.waiting, noCr_append]
    exact ⟨c.delivered, noCr c.preload.uart, by simp [Console.preload, Console.delivered]⟩
  obtain ⟨hmode', huart, hreports, hscanned⟩ := scanRing_writer c.preload.rx.count c.preload
    (Nat.le_of_eq (RingBuffer.contents_length _)) hmode hheld hroom fun h => hnone (h.mono hwithin)
  refine ⟨⟨hmode', hreports, ?_, hscanned.held, hscanned.fits hfits' huart, ?_⟩, ?_⟩
  · rw [Console.text, Console.text, ← waiting_preload c, Console.waiting, Console.waiting, noCr_append, noCr_append]
    change (c.preload.scanRing c.preload.rx.count).delivered ++ (c.preload.scanRing c.preload.rx.count).scan ++
      (noCr (c.preload.scanRing c.preload.rx.count).rx.contents ++
        noCr (c.preload.scanRing c.preload.rx.count).uart) = _
    have hkept := hscanned.kept
    rw [Console.delivered, hreports, huart, List.append_assoc, ← List.append_assoc _ _ (noCr c.preload.uart), hkept]
    simp [Console.preload, Console.delivered]
  · rcases hscanned.front with hempty | hfirst
    · left
      change (c.preload.scanRing c.preload.rx.count).rx.contents ++ (c.preload.scanRing c.preload.rx.count).uart = []
      rw [hempty, huart, drained hfits' hscanned hempty]
      rfl
    · exact .inr hfirst
  · rw [Console.pollModeSwitch, Console.scanModeSwitch, hmode', hmode]
    rfl

/-- A complete line still waits behind a poll. -/
theorem Polled.line {c c' : Console} (h : Polled c c') (hline : lf ∈ c.waiting) : lf ∈ c'.waiting := by
  have hkept : c'.scan ++ noCr c'.waiting = c.scan ++ noCr c.waiting := by
    have htext := h.text
    rw [Console.text, Console.text, Console.delivered, Console.delivered, h.reports, List.append_assoc,
      List.append_assoc] at htext
    exact List.append_cancel_left htext
  have hmem : lf ∈ c'.scan ++ noCr c'.waiting := by
    rw [hkept]
    exact List.mem_append_right _ (List.mem_filter.mpr ⟨hline, by decide⟩)
  rcases List.mem_append.mp hmem with hmem | hmem
  · exact absurd rfl (h.held.plain lf hmem).2
  · exact List.mem_of_mem_filter hmem

/-- What a pass keeps in writer mode. -/
structure Passed (c c' : Console) : Prop where
  mode : c'.mode = .writer
  held : Held c'.scan
  text : c'.text = c.text
  reports : c'.reports = c.reports ∨ ∃ b, c'.reports = c.reports ++ [.read b]
  line : lf ∈ c.waiting → ∃ b, c'.reports = c.reports ++ [.read b]

/-- The byte behind a poll is the next one of the text. -/
theorem Polled.readByte {c c' : Console} (h : Polled c c') : Passed c c'.readByte := by
  rcases h.front with hempty | ⟨hscan, ch, rest, hcontents, hcr⟩
  · obtain ⟨hring, huart⟩ := List.append_eq_nil_iff.mp hempty
    have hread : c'.readByte = c' := by rw [Console.readByte, pushbackRead_of_nil hring, huart]
    rw [hread]
    refine ⟨h.mode, h.held, h.text, .inl h.reports, fun hline => ?_⟩
    have hmem := h.line hline
    rw [hempty] at hmem
    exact absurd hmem List.not_mem_nil
  · obtain ⟨rx, hread, hrest⟩ := pushbackRead_of_contents hcontents
    have hnext : c'.readByte = { c' with rx := rx, reports := c'.reports ++ [.read ch] } := by
      rw [Console.readByte, hread]
    have hbyte : ∃ b, c'.readByte.reports = c.reports ++ [.read b] := ⟨ch, by rw [hnext, h.reports]⟩
    refine ⟨by rw [hnext, h.mode], by rw [hnext]; exact h.held, ?_, .inr hbyte, fun _ => hbyte⟩
    rw [← h.text, hnext, Console.text, Console.text, Console.waiting, Console.waiting, hcontents, hscan,
      List.cons_append, noCr_cons, if_neg hcr, hrest]
    simp [Console.delivered, Report.byte?]

theorem Polled.passed {c c' c'' : Console} (h : Polled c c') (hpassed : Passed c' c'') : Passed c c'' where
  mode := hpassed.mode
  held := hpassed.held
  text := hpassed.text.trans h.text
  reports := h.reports ▸ hpassed.reports
  line hline := h.reports ▸ hpassed.line (h.line hline)

theorem Polled.preload {c c' : Console} (h : Polled c c') : Polled c c'.preload where
  mode := h.mode
  reports := h.reports
  text := by
    rw [← h.text, Console.text, waiting_preload]
    rfl
  held := h.held
  fits := by
    rw [Console.Fits, waiting_preload]
    exact h.fits
  front := by
    rcases h.front with hempty | ⟨hscan, ch, rest, hcontents, hcr⟩
    · exact .inl ((waiting_preload _).trans hempty)
    · refine .inr ⟨hscan, ch, rest ++ c'.uart.take (roomMax - c'.rx.contents.length), ?_, hcr⟩
      rw [Console.preload, (contents_serialPreload _ _).1]
      simp [hcontents]

theorem cliPoll_passed {c : Console} (hmode : c.mode = .writer) (hheld : Held c.scan) (hfits : c.Fits)
    (hnone : ¬ NamesCommand c.text) : Passed c c.cliPoll := by
  obtain ⟨hfirst, hstays⟩ := polled hmode hheld hfits hnone
  have hsame := hfirst.preload
  rw [Console.cliPoll]
  dsimp only
  rw [hstays, if_neg Bool.false_ne_true]
  by_cases hquiet : c.pollModeSwitch.1.preload.rx.count = 0 ∧ c.pollModeSwitch.1.preload.uart = []
  · rw [if_pos hquiet]
    refine ⟨hsame.mode, hsame.held, hsame.text, .inl hsame.reports, fun hline => ?_⟩
    have hmem := hsame.line hline
    rw [Console.waiting, RingBuffer.contents_eq_nil.mpr hquiet.1, hquiet.2] at hmem
    exact absurd hmem List.not_mem_nil
  · obtain ⟨hsecond, hstays'⟩ := polled hsame.mode hsame.held hsame.fits (hsame.text ▸ hnone)
    rw [if_neg hquiet, hstays', if_neg Bool.false_ne_true]
    exact hsame.passed hsecond.readByte

/-- **A pass of the main loop in writer mode.** -/
theorem loopPass_passed {c : Console} (hmode : c.mode = .writer) (hheld : Held c.scan) (hfits : c.Fits)
    (hnone : ¬ NamesCommand c.text) : Passed c c.loopPass := by
  obtain ⟨hfirst, hstays⟩ := polled hmode hheld hfits hnone
  rw [Console.loopPass, hstays, if_neg Bool.false_ne_true, hfirst.mode]
  exact hfirst.passed (cliPoll_passed hfirst.mode hfirst.held hfirst.fits (hfirst.text ▸ hnone))

/-! ### The loop -/

inductive ConsoleEvent where
  | arrive (bytes : Frame)
  | pass

def Console.next (c : Console) : ConsoleEvent → Console
  | .arrive bytes => { c with uart := c.uart ++ bytes }
  | .pass => c.loopPass

/-- The passes of the main loop, with bytes that arrive between them. The loop comes round before the ring overflows. -/
def consoleLoop (start : Console) : Machine Console ConsoleEvent where
  init := start
  allowed c e := e = .pass → c.Fits
  next := Console.next

def ConsoleEvent.bytes : ConsoleEvent → Frame
  | .arrive bytes => bytes
  | .pass => []

/-- The bytes that have arrived. -/
def received (history : List (Console × ConsoleEvent)) : Frame := Machine.output (fun _ e => e.bytes) history

/-- **No byte is lost or overtaken.** While the text received so far names no command, the console stays in writer
mode, what the command line has read is the front of that text without its carriage returns, the rest still waits in
order, and each pass with a complete line in the input reads one byte. -/
theorem console_in_order (start : Console) (hmode : start.mode = .writer) (hheld : Held start.scan)
    {history : List (Console × ConsoleEvent)} {c : Console} (hrun : (consoleLoop start).Run history c)
    (hnone : ¬ NamesCommand (start.text ++ noCr (received history))) :
    c.mode = .writer ∧ c.text = start.text ++ noCr (received history) ∧
      (c.Fits → lf ∈ c.waiting → ∃ b, c.loopPass.reports = c.reports ++ [.read b]) := by
  have hinv : c.mode = .writer ∧ Held c.scan ∧ c.text = start.text ++ noCr (received history) := by
    induction hrun with
    | start => exact ⟨hmode, hheld, (List.append_nil _).symm⟩
    | @step history c e run ok ih =>
        rw [received, Machine.output_snoc, ← received, noCr_append, ← List.append_assoc] at hnone ⊢
        obtain ⟨hmode, hheld, htext⟩ := ih fun h => hnone (h.mono (List.prefix_append _ _).isInfix)
        cases e with
        | arrive bytes =>
            refine ⟨hmode, hheld, ?_⟩
            rw [← htext]
            simp [consoleLoop, Console.next, Console.text, Console.waiting, Console.delivered, ConsoleEvent.bytes]
        | pass =>
            have hpassed := loopPass_passed hmode hheld (ok rfl)
              fun h => hnone (by rw [← htext]; exact h.mono (List.prefix_append _ _).isInfix)
            exact ⟨hpassed.mode, hpassed.held, hpassed.text.trans (htext.trans (List.append_nil _).symm)⟩
  obtain ⟨hmode, hheld, htext⟩ := hinv
  exact ⟨hmode, htext, fun hfits hline => (loopPass_passed hmode hheld hfits (htext ▸ hnone)).line hline⟩

/-- A line of three bytes, and a pass. -/
theorem console_in_order_line :
    let start : Console := ⟨[], .empty, [], .writer, []⟩
    ∃ history c, (consoleLoop start).Run history c ∧ c.mode = .writer ∧ c.text = [0x61, lf] := by
  intro start
  have hallowed : (consoleLoop start).allowed start (.arrive [0x61, cr, lf]) := fun h => ConsoleEvent.noConfusion h
  have hfits : (start.next (.arrive [0x61, cr, lf])).Fits := .inl (by decide)
  have hrun := (Machine.Run.start.step hallowed).step (e := .pass) fun _ => hfits
  obtain ⟨hmode, htext, -⟩ := console_in_order start rfl held_nil hrun (by decide)
  exact ⟨_, _, hrun, hmode, htext.trans (by decide)⟩

end NeroReader.SerialConsole
