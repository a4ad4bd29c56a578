import NeroReader.NdefRecord

/-!
The scanner that picks the lines `mode reader` and `mode writer` out of the serial input and gives every other byte
back. Bytes are given back in pieces, as soon as a line cannot be a command any more, and the scanner starts afresh
behind each piece, inside the line. `scanFeed` follows `nfc_mode_scan_feed`; `Text` is what the input is without its
command lines. The two agree on exactly the streams with no line that is such pieces and then the text of a
command (`scan_lines_iff`).
-/

namespace NeroReader.ModeScan

def scanCap : Nat := 32
def scanPrefixLen : Nat := 5
def scanCmdLen : Nat := 11
def cr : Byte := 0x0D
def lf : Byte := 0x0A
def modePrefix : Frame := ascii "mode "
def modeReader : Frame := ascii "mode reader"
def modeWriter : Frame := ascii "mode writer"

/-! ### The scanner -/

inductive ScanResult where
  | ingested
  | gotReader
  | gotWriter
  | pushbackStop
  deriving DecidableEq

/-- What one byte leaves: the buffered bytes, the result, and the bytes given back. -/
structure Fed where
  buf : Frame
  result : ScanResult
  pushback : Frame
  deriving DecidableEq

/-- The buffer is emptied into the pushback, or lost where it does not fit. -/
def giveBack (buf : Frame) (pushbackCap : Nat) : Fed :=
  if pushbackCap < buf.length then ⟨[], .pushbackStop, []⟩ else ⟨[], .pushbackStop, buf⟩

/-- `nfc_mode_scan_feed`. -/
def scanFeed (buf : Frame) (ch : Byte) (pushbackCap : Nat) : Fed :=
  if ch = cr then ⟨buf, .ingested, []⟩
  else if ch = lf then
    if buf.length = scanCmdLen ∧ buf.take scanCmdLen = modeWriter then ⟨[], .gotWriter, []⟩
    else if buf.length = scanCmdLen ∧ buf.take scanCmdLen = modeReader then ⟨[], .gotReader, []⟩
    else giveBack (buf ++ [lf]) pushbackCap
  else if buf.length < scanPrefixLen ∧ ch ≠ u8At modePrefix buf.length then giveBack (buf ++ [ch]) pushbackCap
  else if scanCap - 1 ≤ buf.length + 1 then giveBack (buf ++ [ch]) pushbackCap
  else ⟨buf ++ [ch], .ingested, []⟩

/-- The scanner in a run: its buffer, and all that was given back so far. -/
structure Scan where
  buf : Frame
  given : Frame

def Scan.next (pushbackCap : Nat) (s : Scan) (ch : Byte) : Scan :=
  ⟨(scanFeed s.buf ch pushbackCap).buf, s.given ++ (scanFeed s.buf ch pushbackCap).pushback⟩

def scanned (pushbackCap : Nat) (input : Frame) : Scan := input.foldl (Scan.next pushbackCap) ⟨[], []⟩

/-! ### The input without its command lines -/

/-- The lines that are finished and no commands, and the line begun. -/
structure Text where
  done : Frame
  line : Frame

def Text.next (t : Text) (ch : Byte) : Text :=
  if ch = cr then t
  else if ch = lf then
    if t.line = modeReader ∨ t.line = modeWriter then ⟨t.done, []⟩ else ⟨t.done ++ t.line ++ [lf], []⟩
  else ⟨t.done, t.line ++ [ch]⟩

def Text.kept (t : Text) : Frame := t.done ++ t.line

def textOf (input : Frame) : Text := input.foldl Text.next ⟨[], []⟩

/-- What a byte must do: nothing is lost, and a command is seen at the end of its line and nowhere else. -/
structure Fed.Right (fed : Fed) (given : Frame) (text : Text) (ch : Byte) : Prop where
  kept : given ++ fed.pushback ++ fed.buf = (text.next ch).kept
  room : fed.buf.length < scanCap
  reader : fed.result = .gotReader ↔ ch = lf ∧ text.line = modeReader
  writer : fed.result = .gotWriter ↔ ch = lf ∧ text.line = modeWriter

/-- Every byte of the stream is scanned right. -/
def ScansLines (pushbackCap : Nat) (input : Frame) : Prop :=
  ∀ i ch, input[i]? = some ch →
    (scanFeed (scanned pushbackCap (input.take i)).buf ch pushbackCap).Right (scanned pushbackCap (input.take i)).given
      (textOf (input.take i)) ch

/-! ### Pieces -/

/-- What the scanner gives back within a line: the text up to the first byte that is not in its place, or all the
buffer holds. -/
inductive Piece (p : Frame) : Prop where
  | mismatch (k : Nat) (hk : k < scanPrefixLen) (hlen : p.length = k + 1)
      (hagree : ∀ i < k, u8At p i = u8At modePrefix i) (hne : u8At p k ≠ u8At modePrefix k)
  | full (hlen : p.length = scanCap - 1) (hagree : ∀ i < scanPrefixLen, u8At p i = u8At modePrefix i)

/-- A line behind whose first pieces the text of a command stands. -/
def HidesCommand (line : Frame) : Prop :=
  ∃ pieces : List Frame, pieces ≠ [] ∧ (∀ p ∈ pieces, Piece p) ∧
    (line = pieces.flatten ++ modeReader ∨ line = pieces.flatten ++ modeWriter)

/-- What the buffer can hold. -/
structure Begun (buf : Frame) : Prop where
  room : buf.length < scanCap - 1
  agree : ∀ i < scanPrefixLen, i < buf.length → u8At buf i = u8At modePrefix i

theorem u8At_of_prefix {p q : Frame} (h : p <+: q) {i : Nat} (hi : i < p.length) : u8At q i = u8At p i := by
  obtain ⟨rest, rfl⟩ := h
  exact u8At_append_left p rest hi

theorem Piece.not_begun {p q : Frame} (hp : Piece p) (hq : Begun q) : ¬ p <+: q := by
  intro h
  have hlen := h.length_le
  cases hp with
  | mismatch k hk hplen _ hne =>
      apply hne
      rw [← u8At_of_prefix h (by omega)]
      exact hq.agree k hk (by omega)
  | full hplen _ =>
      have := hq.room
      omega

theorem Piece.eq_of_front {p q : Frame} (hp : Piece p) (hq : Piece q) (h : p <+: q) : p = q := by
  apply h.eq_of_length
  have hlen := h.length_le
  cases hp with
  | mismatch k hk hplen _ hne =>
      cases hq with
      | mismatch l hl hqlen hagree _ =>
          rcases Nat.lt_or_ge k l with hkl | hkl
          · refine absurd ?_ hne
            rw [← u8At_of_prefix h (by omega)]
            exact hagree k hkl
          · omega
      | full hqlen hagree =>
          refine absurd ?_ hne
          rw [← u8At_of_prefix h (by omega)]
          exact hagree k hk
  | full hplen _ =>
      rw [scanCap] at hplen
      cases hq with
      | mismatch l hl hqlen _ _ =>
          rw [scanPrefixLen] at hl
          omega
      | full hqlen _ =>
          rw [scanCap] at hqlen
          omega

/-- A text falls into pieces and a rest in one way. -/
theorem pieces_unique {ps qs : List Frame} {r r' : Frame} (hps : ∀ p ∈ ps, Piece p) (hqs : ∀ q ∈ qs, Piece q)
    (hr : Begun r) (hr' : Begun r') (h : ps.flatten ++ r = qs.flatten ++ r') : ps = qs ∧ r = r' := by
  induction ps generalizing qs with
  | nil =>
      cases qs with
      | nil => exact ⟨rfl, h⟩
      | cons q qs =>
          refine absurd ⟨qs.flatten ++ r', ?_⟩ ((hqs q (by simp)).not_begun hr)
          rw [List.flatten_nil, List.nil_append, List.flatten_cons, List.append_assoc] at h
          exact h.symm
  | cons p ps ih =>
      cases qs with
      | nil =>
          refine absurd ⟨ps.flatten ++ r, ?_⟩ ((hps p (by simp)).not_begun hr')
          rwa [List.flatten_nil, List.nil_append, List.flatten_cons, List.append_assoc] at h
      | cons q qs =>
          rw [List.flatten_cons, List.flatten_cons, List.append_assoc, List.append_assoc] at h
          have hp : p <+: p ++ (ps.flatten ++ r) := List.prefix_append _ _
          have hq : q <+: p ++ (ps.flatten ++ r) := by
            rw [h]
            exact List.prefix_append _ _
          have heq : p = q := by
            rcases List.prefix_or_prefix_of_prefix hp hq with hpq | hqp
            · exact (hps p (by simp)).eq_of_front (hqs q (by simp)) hpq
            · exact ((hqs q (by simp)).eq_of_front (hps p (by simp)) hqp).symm
          subst heq
          obtain ⟨rfl, rfl⟩ := ih (fun x hx => hps x (by simp [hx])) (fun x hx => hqs x (by simp [hx]))
            (List.append_cancel_left h)
          exact ⟨rfl, rfl⟩

theorem begun_nil : Begun [] := ⟨by decide, fun _ _ h => absurd h (Nat.not_lt_zero _)⟩

theorem begun_modeReader : Begun modeReader := ⟨by decide, by decide⟩

theorem begun_modeWriter : Begun modeWriter := ⟨by decide, by decide⟩

/-! ### One byte -/

theorem giveBack_of_fits {buf : Frame} {pushbackCap : Nat} (h : buf.length ≤ pushbackCap) :
    giveBack buf pushbackCap = ⟨[], .pushbackStop, buf⟩ := if_neg (Nat.not_lt.mpr h)

/-- The line begun is the pieces already given back, then the buffer. -/
structure Follows (buf line : Frame) (pieces : List Frame) : Prop where
  each : ∀ p ∈ pieces, Piece p
  begun : Begun buf
  line_eq : line = pieces.flatten ++ buf

/-- The buffer and the pushback after a byte within a line. -/
theorem scanFeed_byte {buf : Frame} {ch : Byte} {pushbackCap : Nat} (hcap : scanCap ≤ pushbackCap) (hbuf : Begun buf)
    (hcr : ch ≠ cr) (hlf : ch ≠ lf) :
    (scanFeed buf ch pushbackCap = ⟨[], .pushbackStop, buf ++ [ch]⟩ ∧ Piece (buf ++ [ch])) ∨
      scanFeed buf ch pushbackCap = ⟨buf ++ [ch], .ingested, []⟩ ∧ Begun (buf ++ [ch]) := by
  have hroom := hbuf.room
  have hlen : (buf ++ [ch]).length = buf.length + 1 := by simp
  have hback := giveBack_of_fits (show (buf ++ [ch]).length ≤ pushbackCap by omega)
  have hbefore (i : Nat) (hi : i < buf.length) : u8At (buf ++ [ch]) i = u8At buf i := u8At_append_left _ _ hi
  have hlast : u8At (buf ++ [ch]) buf.length = ch := by
    rw [u8At_append_right _ _ (Nat.le_refl _), Nat.sub_self]
    rfl
  rw [scanFeed, if_neg hcr, if_neg hlf]
  by_cases hmis : buf.length < scanPrefixLen ∧ ch ≠ u8At modePrefix buf.length
  · rw [if_pos hmis, hback]
    refine Or.inl ⟨rfl, .mismatch buf.length hmis.1 hlen (fun i hi => ?_) (by rw [hlast]; exact hmis.2)⟩
    rw [hbefore i hi]
    exact hbuf.agree i (Nat.lt_trans hi hmis.1) hi
  · have hagree (i : Nat) (hi : i < scanPrefixLen) (hin : i < buf.length + 1) :
        u8At (buf ++ [ch]) i = u8At modePrefix i := by
      rcases Nat.lt_or_ge i buf.length with hlt | hge
      · rw [hbefore i hlt]
        exact hbuf.agree i hi hlt
      · obtain rfl : i = buf.length := by omega
        rw [hlast]
        by_contra hne
        exact hmis ⟨hi, hne⟩
    rw [if_neg hmis]
    by_cases hfull : scanCap - 1 ≤ buf.length + 1
    · rw [if_pos hfull, hback]
      refine Or.inl ⟨rfl, .full (by omega) (fun i hi => hagree i hi ?_)⟩
      rw [scanPrefixLen] at hi
      rw [scanCap] at hfull
      omega
    · rw [if_neg hfull]
      exact Or.inr ⟨rfl, by omega, fun i hi hin => hagree i hi (by omega)⟩

/-- A newline is the end of a command exactly where the buffer is the command's text. -/
theorem scanFeed_lf {buf : Frame} {pushbackCap : Nat} (hcap : scanCap ≤ pushbackCap) (hbuf : Begun buf) :
    scanFeed buf lf pushbackCap =
      if buf = modeWriter then ⟨[], .gotWriter, []⟩
      else if buf = modeReader then ⟨[], .gotReader, []⟩
      else ⟨[], .pushbackStop, buf ++ [lf]⟩ := by
  have htake (cmd : Frame) (hcmd : cmd.length = scanCmdLen) :
      (buf.length = scanCmdLen ∧ buf.take scanCmdLen = cmd) ↔ buf = cmd := by
    constructor
    · rintro ⟨hlen, htake⟩
      rwa [← hlen, List.take_length] at htake
    · rintro rfl
      exact ⟨hcmd, by rw [← hcmd, List.take_length]⟩
  have hroom := hbuf.room
  have hback := giveBack_of_fits (show (buf ++ [lf]).length ≤ pushbackCap by
    rw [List.length_append, List.length_singleton]
    omega)
  rw [scanFeed, if_neg (by decide), if_pos rfl]
  simp only [htake modeWriter (by decide), htake modeReader (by decide), hback]

/-- Where no piece stands in front, the line is a command exactly when the buffer is. -/
theorem Follows.command_iff {buf line cmd : Frame} {pieces : List Frame} (h : Follows buf line pieces)
    (hcmd : Begun cmd) : line = cmd ↔ pieces = [] ∧ buf = cmd := by
  rw [h.line_eq]
  constructor
  · intro heq
    exact pieces_unique h.each (List.forall_mem_nil _) h.begun hcmd (by rwa [List.flatten_nil, List.nil_append])
  · rintro ⟨rfl, rfl⟩
    rfl

theorem Follows.hides_iff {buf line : Frame} {pieces : List Frame} (h : Follows buf line pieces) :
    HidesCommand line ↔ pieces ≠ [] ∧ (buf = modeReader ∨ buf = modeWriter) := by
  constructor
  · rintro ⟨ps, hne, hps, heq | heq⟩
    · obtain ⟨rfl, rfl⟩ := pieces_unique h.each hps h.begun begun_modeReader (h.line_eq.symm.trans heq)
      exact ⟨hne, Or.inl rfl⟩
    · obtain ⟨rfl, rfl⟩ := pieces_unique h.each hps h.begun begun_modeWriter (h.line_eq.symm.trans heq)
      exact ⟨hne, Or.inr rfl⟩
  · rintro ⟨hne, rfl | rfl⟩
    · exact ⟨pieces, hne, h.each, Or.inl h.line_eq⟩
    · exact ⟨pieces, hne, h.each, Or.inr h.line_eq⟩

/-- **One byte.** Pieces and buffer go on making up the line. -/
theorem Follows.next {buf : Frame} {text : Text} {pieces : List Frame} {pushbackCap : Nat}
    (hcap : scanCap ≤ pushbackCap) (h : Follows buf text.line pieces) (ch : Byte) :
    ∃ pieces', Follows (scanFeed buf ch pushbackCap).buf (text.next ch).line pieces' ∧
      (¬(ch = lf ∧ HidesCommand text.line) →
        text.done ++ pieces.flatten ++ (scanFeed buf ch pushbackCap).pushback = (text.next ch).done ++
        pieces'.flatten) := by
  by_cases hcr : ch = cr
  · refine ⟨pieces, ?_, fun _ => ?_⟩
    · rw [scanFeed, if_pos hcr, Text.next, if_pos hcr]
      exact h
    · rw [scanFeed, if_pos hcr, Text.next, if_pos hcr, List.append_nil]
  by_cases hlf : ch = lf
  · subst hlf
    have hbuf : (scanFeed buf lf pushbackCap).buf = [] := by
      rw [scanFeed_lf hcap h.begun]
      split <;> [rfl; split <;> rfl]
    have hline : (text.next lf).line = [] := by
      rw [Text.next, if_neg hcr, if_pos rfl]
      split <;> rfl
    refine ⟨[], ?_, fun hhid => ?_⟩
    · rw [hbuf, hline]
      exact ⟨by simp, begun_nil, rfl⟩
    · have hshown : ¬(pieces ≠ [] ∧ (buf = modeReader ∨ buf = modeWriter)) := by
        rw [← h.hides_iff]
        exact fun hh => hhid ⟨rfl, hh⟩
      have hwriter := h.command_iff begun_modeWriter
      have hreader := h.command_iff begun_modeReader
      rw [scanFeed_lf hcap h.begun, Text.next, if_neg hcr, if_pos rfl]
      by_cases hcmd : buf = modeReader ∨ buf = modeWriter
      · have hnil : pieces = [] := by
          by_contra hne
          exact hshown ⟨hne, hcmd⟩
        subst hnil
        rcases hcmd with rfl | rfl
        · rw [if_neg (by decide), if_pos rfl, if_pos (Or.inl (hreader.mpr ⟨rfl, rfl⟩))]
          simp
        · rw [if_pos rfl, if_pos (Or.inr (hwriter.mpr ⟨rfl, rfl⟩))]
          simp
      · obtain ⟨hnr, hnw⟩ := not_or.mp hcmd
        rw [if_neg hnw, if_neg hnr, if_neg, h.line_eq]
        · simp
        · rw [hreader, hwriter]
          rintro (⟨-, hb⟩ | ⟨-, hb⟩)
          · exact hnr hb
          · exact hnw hb
  · have htext : text.next ch = ⟨text.done, text.line ++ [ch]⟩ := by rw [Text.next, if_neg hcr, if_neg hlf]
    rw [htext]
    rcases scanFeed_byte hcap h.begun hcr hlf with ⟨hfed, hpiece⟩ | ⟨hfed, hbegun⟩
    · refine ⟨pieces ++ [buf ++ [ch]], ?_, fun _ => ?_⟩
      · rw [hfed]
        refine ⟨fun p hp => ?_, begun_nil, ?_⟩
        · rcases List.mem_append.mp hp with hp | hp
          · exact h.each p hp
          · rw [List.mem_singleton.mp hp]
            exact hpiece
        · rw [h.line_eq]
          simp
      · rw [hfed]
        simp
    · refine ⟨pieces, ?_, fun _ => ?_⟩
      · rw [hfed]
        refine ⟨h.each, hbegun, ?_⟩
        rw [h.line_eq, List.append_assoc]
      · rw [hfed]
        simp

theorem scanFeed_result {buf : Frame} {pushbackCap : Nat} (hcap : scanCap ≤ pushbackCap) (hbuf : Begun buf)
    (ch : Byte) :
    ((scanFeed buf ch pushbackCap).result = .gotReader ↔ ch = lf ∧ buf = modeReader) ∧
      ((scanFeed buf ch pushbackCap).result = .gotWriter ↔ ch = lf ∧ buf = modeWriter) := by
  by_cases hlf : ch = lf
  · subst hlf
    rw [scanFeed_lf hcap hbuf]
    by_cases hw : buf = modeWriter
    · subst hw
      exact ⟨by decide, by decide⟩
    · by_cases hr : buf = modeReader
      · subst hr
        exact ⟨by decide, by decide⟩
      · simp [hw, hr]
  · by_cases hcr : ch = cr
    · rw [scanFeed, if_pos hcr]
      simp [hlf]
    · rcases scanFeed_byte hcap hbuf hcr hlf with ⟨hfed, -⟩ | ⟨hfed, -⟩
      · simp [hfed, hlf]
      · simp [hfed, hlf]

/-! ### Streams -/

theorem scanned_concat (pushbackCap : Nat) (input : Frame) (ch : Byte) :
    scanned pushbackCap (input ++ [ch]) = (scanned pushbackCap input).next pushbackCap ch := by
  rw [scanned, List.foldl_concat, scanned]

theorem textOf_concat (input : Frame) (ch : Byte) : textOf (input ++ [ch]) = (textOf input).next ch := by
  rw [textOf, List.foldl_concat, textOf]

/-- No finished line of the stream hides a command. -/
def NoneHidden (input : Frame) : Prop :=
  ∀ i, input[i]? = some lf → ¬ HidesCommand (textOf (input.take i)).line

theorem NoneHidden.take {input : Frame} (h : NoneHidden input) (n : Nat) : NoneHidden (input.take n) := by
  intro i hi
  have hlt : i < n := by
    by_contra hge
    rw [List.getElem?_take_eq_none (Nat.not_lt.mp hge)] at hi
    exact absurd hi (by simp)
  rw [List.take_take, Nat.min_eq_left (Nat.le_of_lt hlt)]
  rw [List.getElem?_take_of_lt hlt] at hi
  exact h i hi

/-- **A run.** The scanner follows the line over any stream; what it gave back is the text before the buffer as
long as no line hid a command. -/
theorem scanned_follows {pushbackCap : Nat} (hcap : scanCap ≤ pushbackCap) (input : Frame) :
    ∃ pieces, Follows (scanned pushbackCap input).buf (textOf input).line pieces ∧
      (NoneHidden input → (scanned pushbackCap input).given = (textOf input).done ++ pieces.flatten) := by
  induction input using List.reverseRecOn with
  | nil => exact ⟨[], ⟨by simp, begun_nil, rfl⟩, fun _ => rfl⟩
  | append_singleton input ch ih =>
      obtain ⟨pieces, hfol, hgiven⟩ := ih
      obtain ⟨pieces', hnext, hback⟩ := hfol.next hcap ch
      rw [scanned_concat, textOf_concat]
      refine ⟨pieces', hnext, fun hnone => ?_⟩
      have hbefore : NoneHidden input := by
        have := hnone.take input.length
        rwa [List.take_left] at this
      rw [← hback, ← hgiven hbefore]
      · rfl
      · rintro ⟨rfl, hhid⟩
        refine hnone input.length ?_ ?_
        · simp
        · rwa [List.take_left]

/-- **The mode scanner.** The stream is scanned right, nothing being lost and the commands being found at the ends of
their lines and nowhere else, exactly when no finished line is made of pieces and then the text of a command. -/
theorem scan_lines_iff {pushbackCap : Nat} (hcap : scanCap ≤ pushbackCap) (input : Frame) :
    ScansLines pushbackCap input ↔ NoneHidden input := by
  constructor
  · intro hscan i hi hhid
    obtain ⟨pieces, hfol, -⟩ := scanned_follows hcap (input.take i)
    obtain ⟨hne, hcmd⟩ := hfol.hides_iff.mp hhid
    have hright := hscan i lf hi
    obtain ⟨hreader, hwriter⟩ := scanFeed_result hcap hfol.begun lf
    rcases hcmd with hb | hb
    · have hline := (hright.reader.mp (hreader.mpr ⟨rfl, hb⟩)).2
      exact hne ((hfol.command_iff begun_modeReader).mp hline).1
    · have hline := (hright.writer.mp (hwriter.mpr ⟨rfl, hb⟩)).2
      exact hne ((hfol.command_iff begun_modeWriter).mp hline).1
  · intro hnone i ch hi
    obtain ⟨pieces, hfol, hgiven⟩ := scanned_follows hcap (input.take i)
    obtain ⟨pieces', hnext, hback⟩ := hfol.next hcap ch
    have hshown : ¬(ch = lf ∧ HidesCommand (textOf (input.take i)).line) := by
      rintro ⟨rfl, hhid⟩
      exact hnone i hi hhid
    have honly {cmd : Frame} (hcmd : cmd = modeReader ∨ cmd = modeWriter) (hlf : ch = lf)
        (hb : (scanned pushbackCap (input.take i)).buf = cmd) : pieces = [] := by
      by_contra hne
      refine hshown ⟨hlf, hfol.hides_iff.mpr ⟨hne, ?_⟩⟩
      rwa [hb]
    obtain ⟨hreader, hwriter⟩ := scanFeed_result hcap hfol.begun ch
    refine ⟨?_, ?_, ?_, ?_⟩
    · rw [hgiven (hnone.take i), hback hshown, Text.kept, hnext.line_eq, List.append_assoc]
    · have := hnext.begun.room
      omega
    · rw [hreader, hfol.command_iff begun_modeReader]
      exact ⟨fun ⟨hlf, hb⟩ => ⟨hlf, honly (Or.inl rfl) hlf hb, hb⟩, fun ⟨hlf, _, hb⟩ => ⟨hlf, hb⟩⟩
    · rw [hwriter, hfol.command_iff begun_modeWriter]
      exact ⟨fun ⟨hlf, hb⟩ => ⟨hlf, honly (Or.inr rfl) hlf hb, hb⟩, fun ⟨hlf, _, hb⟩ => ⟨hlf, hb⟩⟩

/-- One stray byte in front, and the rest of the line is taken for a command. -/
theorem stray_byte_not_scanned : ¬ ScansLines 32 (ascii "xmode reader\n") := by
  intro h
  have hright := (h 12 lf (by decide)).reader.mp (by decide)
  exact absurd hright.2 (by decide)

theorem scan_lines_iff_command : ScansLines 32 (ascii "mode reader\n") := by
  apply (scan_lines_iff (by decide) _).mpr
  intro i hi hhid
  have hlen := (List.getElem?_eq_some_iff.mp hi).1
  have hlast : ∀ i < 12, (ascii "mode reader\n")[i]? = some lf → i = 11 := by decide
  obtain rfl := hlast i hlen hi
  have hfol : Follows modeReader modeReader [] := ⟨by simp, begun_modeReader, rfl⟩
  exact (hfol.hides_iff.mp hhid).1 rfl

end NeroReader.ModeScan
