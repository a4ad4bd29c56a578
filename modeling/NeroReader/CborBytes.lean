import NeroReader.CborSkip

/-!
The readers of byte strings in `reader_cbor.c`: with the length in the head, in pieces up to a break byte, behind a
tag, and the tail that older authenticators append under a key of its own. Each gives the bytes it read, or none,
and the position it leaves the reader at. A string in pieces that turns out cut off, malformed or too long leaves
the reader inside the string, and so does whatever stands behind a tag.
-/

namespace NeroReader.CborBytes

open Cbor (breakByte byteString openBytes piece pieces taggedByteString)
open CborSkip (Buffer)
open LanguageSpans
open scoped Computability

def cborMajorBytes : Nat := 2
def cborMajorTag : Nat := 6
def cborHeaderIndefBytes : Byte := 0x5F
def cborLegacyAliasKey : Nat := 3

/-- The bytes that a reading returns, and `c->pos` behind it. -/
abbrev Reading := Option Frame × Nat

variable (c : Buffer)

/-- The bytes from a position on that so many calls of `cbor_next` return. -/
def bytesFrom (pos count : Nat) : Frame := (c.data.drop pos).take count

/-- Content that does not fit the destination: its capacity, or none where no buffer is given. -/
def exceeds (dest : Option Nat) (length : Nat) : Bool := dest.any (· < length)

/-- `cbor_read_bytes`. -/
def readBytes (dest : Option Nat) (pos : Nat) : Reading :=
  match c.readHead pos with
  | none => (none, pos)
  | some head =>
      if head.major ≠ cborMajorBytes then (none, pos)
      else if h : c.hasRemaining head.next.1 head.value = true then
        if (dest = none ∧ 0 < head.value) ∨ 0xFFFF < head.value ∨ exceeds dest head.value then (none, pos)
        else (some (bytesFrom c head.next.1 head.value),
          (c.advance head.next.1 head.value (Buffer.le_of_hasRemaining h)).1)
      else (none, pos)

/-- The loop over the pieces, with the bytes so far. -/
def readPieces (dest : Option Nat) (total : Frame) (pos : Nat) : Reading :=
  if h : pos < c.data.length then
    if u8At c.data pos = breakByte then
      let next := c.advance pos 1 h
      if exceeds dest total.length then (none, next.1) else (some total, next.1)
    else
      match c.readHead pos with
      | none => (none, pos)
      | some head =>
          if h : head.major = cborMajorBytes ∧ c.hasRemaining head.next.1 head.value = true then
            if 0xFFFF - total.length < head.value then (none, head.next.1)
            else if exceeds dest (total.length + head.value) then (none, head.next.1)
            else
              let next := c.advance head.next.1 head.value (Buffer.le_of_hasRemaining h.2)
              readPieces dest (total ++ bytesFrom c head.next.1 head.value) next.1
          else (none, head.next.1)
  else (none, pos)
termination_by c.data.length - pos
decreasing_by
  have hbehind := head.next.2.1
  have hnext := c.advance_val (Buffer.le_of_hasRemaining h.2)
  omega

/-- `cbor_read_bytes_indefinite`. -/
def readBytesIndefinite (dest : Option Nat) (pos : Nat) : Reading :=
  if h : c.hasRemaining pos 1 = true then
    if u8At c.data pos ≠ cborHeaderIndefBytes then (none, pos)
    else readPieces c dest [] (c.advance pos 1 (Buffer.le_of_hasRemaining h)).1
  else (none, pos)

/-- `cbor_read_bytes_flexible`. -/
def readBytesFlexible (dest : Option Nat) (pos : Nat) : Reading :=
  let reading := readBytes c dest pos
  if reading.1.isSome then reading else readBytesIndefinite c dest reading.2

/-- `cbor_read_bytes_maybe_tagged`. -/
def readBytesMaybeTagged (dest : Option Nat) (pos : Nat) : Reading :=
  let reading := readBytesFlexible c dest pos
  if reading.1.isSome then reading
  else
    match c.readHead reading.2 with
    | none => (none, reading.2)
    | some head => if head.major ≠ cborMajorTag then (none, reading.2) else readBytesFlexible c dest head.next.1

/-- `cbor_read_uint`: the number and the position behind it. -/
def readUint (pos : Nat) : Option Nat × Nat :=
  match c.readHead pos with
  | none => (none, pos)
  | some head => if head.major ≠ 0 then (none, pos) else (some head.value, head.next.1)

/-- `cbor_read_legacy_signature_tail`; it reads with a copy of the reader. -/
def readLegacySignatureTail (dest : Option Nat) (pos : Nat) : Reading :=
  let probe := readUint c pos
  if probe.1 ≠ some cborLegacyAliasKey then (none, pos)
  else
    let reading := readBytesMaybeTagged c dest probe.2
    if reading.1.isSome then reading else (none, pos)

/-! ### Strings with their length -/

variable {c} {dest : Option Nat} {pos next : Nat}

/-- A content fits the buffer; without one only the empty content does. -/
def Fits (dest : Option Nat) (length : Nat) : Prop := length ≤ dest.getD 0

theorem fits_iff {length : Nat} :
    Fits dest length ↔ ¬(dest = none ∧ 0 < length) ∧ ¬exceeds dest length = true := by
  cases dest <;> simp [Fits, exceeds]

theorem spans_bytesFrom {count : Nat} (h : pos + count ≤ c.data.length) :
    Spans c.data {bytesFrom c pos count} pos (pos + count) := by
  have hlen : (bytesFrom c pos count).length = count := by
    rw [bytesFrom, List.length_take, List.length_drop]
    omega
  refine spans_word.mpr ⟨by rw [hlen], h, ?_⟩
  exact List.take_prefix count (c.data.drop pos)

theorem spans_content {content : Frame} (h : Spans c.data {content} pos next) :
    pos + content.length ≤ c.data.length ∧ next = pos + content.length ∧
      bytesFrom c pos content.length = content := by
  obtain ⟨hnext, hinside, hprefix⟩ := spans_word.mp h
  refine ⟨by omega, hnext, ?_⟩
  rw [bytesFrom]
  exact (List.prefix_iff_eq_take.mp hprefix).symm

/-- A head, and behind it the content whose length it states. -/
theorem spans_piece {content : Frame} : Spans c.data (piece content) pos next ↔
    ∃ head, c.readHead pos = some head ∧ head.major = 2 ∧ head.value = content.length ∧
      Spans c.data {content} head.next.1 next := by
  rw [piece, spans_mul]
  constructor
  · rintro ⟨mid, hhead, hcontent⟩
    obtain ⟨h, hread⟩ := Buffer.readHead_iff.mpr hhead
    exact ⟨_, hread, rfl, rfl, hcontent⟩
  · rintro ⟨⟨major, value, mid⟩, hread, hmajor, hvalue, hcontent⟩
    dsimp only at *
    subst hmajor hvalue
    exact ⟨mid.1, Buffer.readHead_iff.mp ⟨mid.2, hread⟩, hcontent⟩

/-- **A string with its length is read exactly where it stands and fits.** -/
theorem readBytes_iff {content : Frame} : readBytes c dest pos = (some content, next) ↔
    Spans c.data (piece content) pos next ∧ Fits dest content.length := by
  rw [spans_piece]
  constructor
  · intro h
    rw [readBytes] at h
    cases hread : c.readHead pos with
    | none =>
        rw [hread] at h
        cases h
    | some head =>
        rw [hread] at h
        dsimp only at h
        split at h
        · cases h
        rename_i hmajor
        split at h
        case isFalse => cases h
        rename_i hspan
        have hle := Buffer.le_of_hasRemaining hspan
        split at h
        · cases h
        rename_i hroom
        rw [Buffer.advance_val] at h
        cases h
        have hspans := spans_bytesFrom hle
        have hlen := (spans_word.mp hspans).1
        have hvalue : head.value = (bytesFrom c head.next.1 head.value).length := by omega
        refine ⟨⟨head, rfl, not_not.mp hmajor, hvalue, hspans⟩, ?_⟩
        rw [← hvalue, fits_iff]
        exact ⟨fun h => hroom (Or.inl h), fun h => hroom (Or.inr (Or.inr h))⟩
  · rintro ⟨⟨head, hread, hmajor, hvalue, hspans⟩, hfits⟩
    obtain ⟨hle, rfl, hcontent⟩ := spans_content hspans
    have hspan : c.hasRemaining head.next.1 head.value = true := by
      rw [Buffer.hasRemaining_iff, hvalue]
      exact hle
    have hlength := c.length_le
    have hroom : ¬((dest = none ∧ 0 < head.value) ∨ 0xFFFF < head.value ∨ exceeds dest head.value) := by
      rw [hvalue]
      obtain ⟨hgiven, hfull⟩ := fits_iff.mp hfits
      rintro (h | h | h)
      · exact hgiven h
      · omega
      · exact hfull h
    have hbytes : head.major = cborMajorBytes := hmajor
    rw [readBytes, hread]
    dsimp only
    rw [if_neg (not_not.mpr hbytes), dif_pos hspan, if_neg hroom, Buffer.advance_val, hvalue, hcontent]

theorem readBytes_keeps (h : (readBytes c dest pos).1 = none) : readBytes c dest pos = (none, pos) := by
  rw [readBytes] at h ⊢
  cases hread : c.readHead pos with
  | none => rfl
  | some head =>
      rw [hread] at h
      dsimp only at h ⊢
      split
      · rfl
      rename_i hmajor
      rw [if_neg hmajor] at h
      split
      case isFalse => rfl
      rename_i hspan
      rw [dif_pos hspan] at h
      split
      · rfl
      rename_i hroom
      rw [if_neg hroom] at h
      cases h

/-! ### Strings in pieces -/

theorem spans_pieces {L : Language Cbor.Octet} {content : Frame} : Spans c.data (pieces content * L) pos next ↔
    (content = [] ∧ Spans c.data L pos next) ∨ ∃ first rest mid, content = first ++ rest ∧
      Spans c.data (piece first) pos mid ∧ Spans c.data (pieces rest * L) mid next := by
  rw [spans_mul]
  constructor
  · rintro ⟨mid, hpieces, hL⟩
    rcases Cbor.mem_pieces.mp hpieces.word with ⟨hnil, hword⟩ | ⟨first, rest, hcontent, hword⟩
    · have hone : Spans c.data 1 pos mid := ⟨hpieces.le, hpieces.inside, hword⟩
      obtain ⟨rfl, -⟩ := spans_one.mp hone
      exact Or.inl ⟨hnil, hL⟩
    · obtain ⟨behind, hfirst, hrest⟩ := spans_mul.mp ⟨hpieces.le, hpieces.inside, hword⟩
      exact Or.inr ⟨first, rest, behind, hcontent, hfirst, spans_mul.mpr ⟨mid, hrest, hL⟩⟩
  · rintro (⟨rfl, hL⟩ | ⟨first, rest, mid, rfl, hfirst, hrest⟩)
    · have hword : [] ∈ pieces [] := Cbor.mem_pieces.mpr (Or.inl ⟨rfl, Language.nil_mem_one⟩)
      have hinside := hL.le.trans hL.inside
      exact ⟨pos, .of_drop hword hinside rfl, hL⟩
    · obtain ⟨behind, hpieces, hL⟩ := spans_mul.mp hrest
      obtain ⟨hle, hinside, hword⟩ := spans_mul.mpr ⟨mid, hfirst, hpieces⟩
      exact ⟨behind, ⟨hle, hinside, Cbor.mem_pieces.mpr (Or.inr ⟨first, rest, rfl, hword⟩)⟩, hL⟩

/-- What is left of a string in pieces, up to its end. -/
def remaining (content : Frame) : Language Cbor.Octet := pieces content * {[breakByte]}

theorem remaining_lt {content : Frame} (h : Spans c.data (remaining content) pos next) : pos < c.data.length := by
  obtain ⟨mid, hpieces, hbreak⟩ := spans_mul.mp h
  obtain ⟨rfl, -⟩ := spans_singleton.mp hbreak
  have hle := hpieces.le
  have hinside := hbreak.inside
  omega

/-- The end of a string in pieces. -/
theorem remaining_break {content : Frame} (hpos : pos < c.data.length) (hbreak : u8At c.data pos = breakByte) :
    Spans c.data (remaining content) pos next ↔ content = [] ∧ next = pos + 1 := by
  obtain ⟨ib, tail, hdrop⟩ : ∃ ib tail, c.data.drop pos = ib :: tail := ⟨_, _, List.drop_eq_getElem_cons hpos⟩
  rw [Buffer.u8At_of_drop hdrop] at hbreak
  rw [remaining, spans_pieces, spans_singleton]
  constructor
  · rintro (⟨hcontent, hnext, -⟩ | ⟨first, rest, mid, -, hfirst, -⟩)
    · exact ⟨hcontent, hnext⟩
    · -- no piece starts with the break byte
      obtain ⟨w, hw, -, hword⟩ := hfirst.drop_eq
      obtain ⟨start, more, rfl, hne⟩ := Cbor.starts_of_piece hw
      rw [hdrop] at hword
      exact absurd ((List.cons.inj hword).1.symm.trans hbreak) hne
  · rintro ⟨hcontent, hnext⟩
    exact Or.inl ⟨hcontent, hnext, tail, by rw [hdrop, hbreak]⟩

/-- Before the end comes a piece, and its content is the start of the string's. -/
theorem remaining_piece {content : Frame} (hbreak : u8At c.data pos ≠ breakByte) :
    Spans c.data (remaining content) pos next ↔ ∃ head, c.readHead pos = some head ∧ head.major = 2 ∧
      head.next.1 + head.value ≤ c.data.length ∧ ∃ rest, content = bytesFrom c head.next.1 head.value ++ rest ∧
        Spans c.data (remaining rest) (head.next.1 + head.value) next := by
  rw [remaining, spans_pieces]
  constructor
  · rintro (⟨-, hend⟩ | ⟨first, rest, mid, rfl, hfirst, hrest⟩)
    · obtain ⟨-, tail, hdrop⟩ := spans_singleton.mp hend
      exact absurd (Buffer.u8At_of_drop hdrop) hbreak
    · obtain ⟨head, hread, hmajor, hvalue, hcontent⟩ := spans_piece.mp hfirst
      obtain ⟨hle, rfl, hbytes⟩ := spans_content hcontent
      rw [← hvalue] at hle hbytes hrest
      exact ⟨head, hread, hmajor, hle, rest, by rw [hbytes], hrest⟩
  · rintro ⟨head, hread, hmajor, hle, rest, rfl, hrest⟩
    have hcontent := spans_bytesFrom hle
    have hlen := (spans_word.mp hcontent).1
    refine Or.inr ⟨_, rest, _, rfl, spans_piece.mpr ⟨head, hread, hmajor, ?_, hcontent⟩, hrest⟩
    omega

theorem exceeds_mono {length length' : Nat} (h : exceeds dest length = true) (hle : length ≤ length') :
    exceeds dest length' = true := by
  cases dest with
  | none => cases h
  | some capacity =>
      simp only [exceeds, Option.any_some, decide_eq_true_eq] at h ⊢
      omega

/-- **The loop reads what is left of the string behind what it has**, where the whole fits. -/
theorem readPieces_iff {total content : Frame} (htotal : total.length ≤ pos) :
    readPieces c dest total pos = (some content, next) ↔ ∃ rest, content = total ++ rest ∧
      Spans c.data (remaining rest) pos next ∧ ¬exceeds dest content.length = true := by
  induction hleft : c.data.length - pos using Nat.strong_induction_on generalizing pos total with
  | _ left ih =>
      rw [readPieces]
      split
      case isFalse =>
        rename_i hend
        refine iff_of_false (by simp) ?_
        rintro ⟨rest, -, hrest, -⟩
        exact hend (remaining_lt hrest)
      rename_i hpos
      split
      · rename_i hbreak
        simp only [remaining_break hpos hbreak]
        constructor
        · intro h
          split at h
          · cases h
          rename_i hroom
          rw [Buffer.advance_val] at h
          cases h
          exact ⟨[], (List.append_nil _).symm, ⟨rfl, rfl⟩, hroom⟩
        · rintro ⟨rest, rfl, ⟨rfl, rfl⟩, hroom⟩
          rw [List.append_nil] at hroom ⊢
          rw [if_neg hroom, Buffer.advance_val]
      rename_i hbreak
      simp only [remaining_piece hbreak]
      cases hread : c.readHead pos with
      | none => exact iff_of_false (by simp) (by simp)
      | some head =>
          dsimp only
          have hbehind := head.next.2.1
          by_cases hpiece : head.major = cborMajorBytes ∧ c.hasRemaining head.next.1 head.value = true
          case neg =>
            rw [dif_neg hpiece]
            refine iff_of_false (by simp) ?_
            rintro ⟨rest, -, ⟨_, hhead, hmajor, hle, -⟩, -⟩
            cases hhead
            exact hpiece ⟨hmajor, Buffer.hasRemaining_iff.mpr hle⟩
          have hle := Buffer.le_of_hasRemaining hpiece.2
          have hlen := (spans_word.mp (spans_bytesFrom hle)).1
          have hlength := c.length_le
          rw [dif_pos hpiece, if_neg (by omega)]
          by_cases hfull : exceeds dest (total.length + head.value) = true
          · rw [if_pos hfull]
            refine iff_of_false (by simp) ?_
            rintro ⟨rest, rfl, ⟨head', hhead, -, -, more, rfl, -⟩, hroom⟩
            cases hhead
            refine hroom (exceeds_mono hfull ?_)
            rw [List.length_append, List.length_append]
            omega
          rw [if_neg hfull, Buffer.advance_val,
            ih _ (by omega) (by rw [List.length_append]; omega) rfl]
          constructor
          · rintro ⟨rest, rfl, hrest, hroom⟩
            exact ⟨_, List.append_assoc _ _ _, ⟨head, rfl, hpiece.1, hle, rest, rfl, hrest⟩, hroom⟩
          · rintro ⟨rest, rfl, ⟨head', hhead, -, -, more, rfl, hmore⟩, hroom⟩
            cases hhead
            exact ⟨more, (List.append_assoc _ _ _).symm, hmore, hroom⟩

theorem le_readPieces (total : Frame) : pos ≤ (readPieces c dest total pos).2 := by
  induction hleft : c.data.length - pos using Nat.strong_induction_on generalizing pos total with
  | _ left ih =>
      rw [readPieces]
      split
      case isFalse => exact Nat.le_refl pos
      rename_i hpos
      split
      · split <;> exact Nat.le_of_succ_le (c.advance pos 1 hpos).2.1
      cases c.readHead pos with
      | none => exact Nat.le_refl pos
      | some head =>
          dsimp only
          have hbehind := head.next.2.1
          split
          case isFalse => exact Nat.le_of_succ_le hbehind
          split
          · exact Nat.le_of_succ_le hbehind
          split
          · exact Nat.le_of_succ_le hbehind
          rename_i hpiece _ _
          have hadvance := c.advance_val (Buffer.le_of_hasRemaining hpiece.2)
          have hle := Nat.le_of_succ_le (hbehind.trans (Nat.le_add_right head.next.1 head.value))
          rw [Buffer.advance_val]
          exact hle.trans (ih _ (by omega) _ rfl)

/-! ### The readings -/

/-- The initial byte of a byte string in pieces. -/
def OpensBytes (c : Buffer) (pos : Nat) : Prop := pos < c.data.length ∧ u8At c.data pos = cborHeaderIndefBytes

theorem OpensBytes.readHead (h : OpensBytes c pos) : c.readHead pos = none := by
  cases hread : c.readHead pos with
  | none => rfl
  | some head =>
      obtain ⟨ib, arg, rest, hdrop, harg⟩ := Buffer.arg_of_readHead hread
      have hib := Buffer.u8At_of_drop hdrop
      rw [h.2] at hib
      subst hib
      exact absurd (Cbor.argLength_lt harg) (by decide)

theorem spans_openBytes {content : Frame} :
    Spans c.data (openBytes content) pos next ↔ OpensBytes c pos ∧ Spans c.data (remaining content) (pos + 1) next := by
  rw [openBytes, spans_mul]
  constructor
  · rintro ⟨mid, hfirst, hrest⟩
    obtain ⟨rfl, tail, hdrop⟩ := spans_singleton.mp hfirst
    exact ⟨⟨hfirst.inside, Buffer.u8At_of_drop hdrop⟩, hrest⟩
  · rintro ⟨⟨hpos, hfirst⟩, hrest⟩
    obtain ⟨ib, tail, hdrop⟩ : ∃ ib tail, c.data.drop pos = ib :: tail := ⟨_, _, List.drop_eq_getElem_cons hpos⟩
    rw [Buffer.u8At_of_drop hdrop] at hfirst
    subst hfirst
    exact ⟨pos + 1, spans_singleton.mpr ⟨rfl, tail, hdrop⟩, hrest⟩

theorem readBytesIndefinite_of_opens (h : OpensBytes c pos) :
    readBytesIndefinite c dest pos = readPieces c dest [] (pos + 1) := by
  have hspan : c.hasRemaining pos 1 = true := Buffer.hasRemaining_iff.mpr h.1
  rw [readBytesIndefinite, dif_pos hspan, if_neg (not_not.mpr h.2), Buffer.advance_val]

theorem readBytesIndefinite_keeps (h : ¬OpensBytes c pos) : readBytesIndefinite c dest pos = (none, pos) := by
  rw [readBytesIndefinite]
  split
  · rename_i hspan
    rw [if_pos]
    exact fun hfirst => h ⟨Buffer.hasRemaining_iff.mp hspan, hfirst⟩
  · rfl

/-- **A string in pieces is read exactly where it stands and does not exceed the buffer.** -/
theorem readBytesIndefinite_iff {content : Frame} : readBytesIndefinite c dest pos = (some content, next) ↔
    Spans c.data (openBytes content) pos next ∧ ¬exceeds dest content.length = true := by
  rw [spans_openBytes]
  by_cases hopen : OpensBytes c pos
  · rw [readBytesIndefinite_of_opens hopen, readPieces_iff (Nat.zero_le _)]
    constructor
    · rintro ⟨rest, rfl, hrest, hroom⟩
      exact ⟨⟨hopen, hrest⟩, hroom⟩
    · rintro ⟨⟨-, hrest⟩, hroom⟩
      exact ⟨content, rfl, hrest, hroom⟩
  · rw [readBytesIndefinite_keeps hopen]
    exact iff_of_false (by simp) fun h => hopen h.1.1

theorem not_opensBytes_of_piece {content : Frame} (h : Spans c.data (piece content) pos next) : ¬OpensBytes c pos := by
  intro hopen
  obtain ⟨head, hread, -⟩ := spans_piece.mp h
  rw [hopen.readHead] at hread
  cases hread

theorem readBytes_of_opens (h : OpensBytes c pos) : readBytes c dest pos = (none, pos) := by
  rw [readBytes, h.readHead]

theorem readBytesFlexible_of_opens (h : OpensBytes c pos) :
    readBytesFlexible c dest pos = readBytesIndefinite c dest pos := by
  rw [readBytesFlexible, readBytes_of_opens h]
  rfl

theorem readBytesFlexible_of_not_opens (h : ¬OpensBytes c pos) :
    readBytesFlexible c dest pos = readBytes c dest pos := by
  rw [readBytesFlexible]
  cases hread : (readBytes c dest pos).1 with
  | none =>
      rw [readBytes_keeps hread, readBytesIndefinite_keeps h]
      rfl
  | some content => rfl

/-- A byte string that fits; in pieces, and without a buffer, any does. -/
def Takes (c : Buffer) (dest : Option Nat) (content : Frame) (pos next : Nat) : Prop :=
  (Spans c.data (piece content) pos next ∧ Fits dest content.length) ∨
    Spans c.data (openBytes content) pos next ∧ ¬exceeds dest content.length = true

theorem readBytesFlexible_iff {content : Frame} :
    readBytesFlexible c dest pos = (some content, next) ↔ Takes c dest content pos next := by
  by_cases hopen : OpensBytes c pos
  · rw [readBytesFlexible_of_opens hopen, readBytesIndefinite_iff, Takes, or_iff_right]
    exact fun h => not_opensBytes_of_piece h.1 hopen
  · rw [readBytesFlexible_of_not_opens hopen, readBytes_iff, Takes, or_iff_left]
    exact fun h => hopen (spans_openBytes.mp h.1).1

theorem readBytesFlexible_keeps (hopen : ¬OpensBytes c pos) (h : (readBytesFlexible c dest pos).1 = none) :
    readBytesFlexible c dest pos = (none, pos) := by
  rw [readBytesFlexible_of_not_opens hopen] at h ⊢
  exact readBytes_keeps h

/-- A failure inside a string in pieces is noticed behind its start. -/
theorem lt_readBytesFlexible (hopen : OpensBytes c pos) : pos < (readBytesFlexible c dest pos).2 := by
  rw [readBytesFlexible_of_opens hopen, readBytesIndefinite_of_opens hopen]
  exact le_readPieces []

theorem le_readBytesFlexible : pos ≤ (readBytesFlexible c dest pos).2 := by
  by_cases hopen : OpensBytes c pos
  · exact Nat.le_of_lt (lt_readBytesFlexible hopen)
  · cases hread : readBytesFlexible c dest pos with
    | mk content next =>
        cases content with
        | none =>
            have hkeeps := readBytesFlexible_keeps hopen (by rw [hread])
            rw [hkeeps] at hread
            cases hread
            exact Nat.le_refl pos
        | some content =>
            rcases readBytesFlexible_iff.mp hread with h | h
            · exact h.1.le
            · exact h.1.le

/-! ### Behind a tag -/

/-- A tag whose head is complete. -/
def TagAt (c : Buffer) (pos next : Nat) : Prop := ∃ tag, Spans c.data (Cbor.heads 6 tag) pos next

theorem tagAt_iff : TagAt c pos next ↔ ∃ head, c.readHead pos = some head ∧ head.major = 6 ∧ head.next.1 = next := by
  constructor
  · rintro ⟨tag, h⟩
    obtain ⟨hnext, hread⟩ := Buffer.readHead_iff.mpr h
    exact ⟨_, hread, rfl, rfl⟩
  · rintro ⟨⟨major, value, mid⟩, hread, hmajor, hnext⟩
    dsimp only at hmajor hnext
    subst hmajor hnext
    exact ⟨value, Buffer.readHead_iff.mp ⟨mid.2, hread⟩⟩

theorem TagAt.not_opensBytes (h : TagAt c pos next) : ¬OpensBytes c pos := by
  intro hopen
  obtain ⟨head, hread, -⟩ := tagAt_iff.mp h
  rw [hopen.readHead] at hread
  cases hread

theorem TagAt.lt (h : TagAt c pos next) : pos < next := by
  obtain ⟨head, -, -, rfl⟩ := tagAt_iff.mp h
  exact head.next.2.1

theorem TagAt.not_piece {content : Frame} {next' : Nat} (h : TagAt c pos next) :
    ¬Spans c.data (piece content) pos next' := by
  intro hpiece
  obtain ⟨head, hread, hmajor, -⟩ := tagAt_iff.mp h
  obtain ⟨head', hread', hmajor', -⟩ := spans_piece.mp hpiece
  cases hread.symm.trans hread'
  omega

theorem spans_tagged {content : Frame} : Spans c.data (taggedByteString content) pos next ↔
    Spans c.data (piece content) pos next ∨ Spans c.data (openBytes content) pos next ∨
      ∃ mid, TagAt c pos mid ∧ Spans c.data (byteString content) mid next := by
  constructor
  · rintro ⟨hle, hinside, hword | ⟨tag, hword⟩⟩
    · rcases spans_add.mp ⟨hle, hinside, hword⟩ with h | h
      · exact Or.inl h
      · exact Or.inr (Or.inl h)
    · obtain ⟨mid, htag, hstring⟩ := spans_mul.mp ⟨hle, hinside, hword⟩
      exact Or.inr (Or.inr ⟨mid, ⟨tag, htag⟩, hstring⟩)
  · rintro (h | h | ⟨mid, ⟨tag, htag⟩, hstring⟩)
    · exact ⟨h.le, h.inside, Or.inl (spans_add.mpr (Or.inl h)).word⟩
    · exact ⟨h.le, h.inside, Or.inl (spans_add.mpr (Or.inr h)).word⟩
    · have h := spans_mul.mpr ⟨mid, htag, hstring⟩
      exact ⟨h.le, h.inside, Or.inr ⟨tag, h.word⟩⟩

theorem takes_of_byteString {content : Frame} (h : Spans c.data (byteString content) pos next)
    (hfits : Fits dest content.length) : Takes c dest content pos next := by
  rcases spans_add.mp h with h | h
  · exact Or.inl ⟨h, hfits⟩
  · exact Or.inr ⟨h, (fits_iff.mp hfits).2⟩

theorem readBytesMaybeTagged_of_flexible {content : Frame} (h : Takes c dest content pos next) :
    readBytesMaybeTagged c dest pos = (some content, next) := by
  rw [readBytesMaybeTagged, readBytesFlexible_iff.mpr h]
  rfl

/-- Behind a tag the reading goes on from there. -/
theorem readBytesMaybeTagged_of_tag (h : TagAt c pos next) :
    readBytesMaybeTagged c dest pos = readBytesFlexible c dest next := by
  have hnone : (readBytesFlexible c dest pos).1 = none := by
    cases hread : readBytesFlexible c dest pos with
    | mk content next' =>
        cases content with
        | none => rfl
        | some content =>
            rcases readBytesFlexible_iff.mp hread with hstring | hstring
            · exact absurd hstring.1 h.not_piece
            · exact absurd (spans_openBytes.mp hstring.1).1 h.not_opensBytes
  obtain ⟨head, hread, hmajor, rfl⟩ := tagAt_iff.mp h
  rw [readBytesMaybeTagged, readBytesFlexible_keeps h.not_opensBytes hnone, hread]
  have htag : head.major = cborMajorTag := hmajor
  dsimp only
  rw [if_neg (by simp), if_neg (not_not.mpr htag)]

theorem readBytesMaybeTagged_of_plain (hopen : ¬OpensBytes c pos) (htag : ∀ next, ¬TagAt c pos next) :
    readBytesMaybeTagged c dest pos = readBytes c dest pos := by
  rw [readBytesMaybeTagged, readBytesFlexible_of_not_opens hopen]
  cases hread : (readBytes c dest pos).1 with
  | some content => rfl
  | none =>
      rw [readBytes_keeps hread]
      cases hhead : c.readHead pos with
      | none => rfl
      | some head =>
          have hmajor : head.major ≠ cborMajorTag := fun hmajor => htag _ (tagAt_iff.mpr ⟨head, hhead, hmajor, rfl⟩)
          dsimp only
          rw [if_neg (by simp), if_pos hmajor]

/-- A byte string at a position, behind one tag at most, that fits the destination. -/
def Stands (c : Buffer) (dest : Option Nat) (pos : Nat) (content : Frame) (next : Nat) : Prop :=
  Spans c.data (taggedByteString content) pos next ∧ Fits dest content.length

/-- **A byte string that fits is read wherever it stands.** -/
theorem Stands.read {content : Frame} (h : Stands c dest pos content next) :
    readBytesMaybeTagged c dest pos = (some content, next) := by
  obtain ⟨hspans, hfits⟩ := h
  rcases spans_tagged.mp hspans with hpiece | hopen | ⟨mid, htag, hstring⟩
  · exact readBytesMaybeTagged_of_flexible (Or.inl ⟨hpiece, hfits⟩)
  · exact readBytesMaybeTagged_of_flexible (Or.inr ⟨hopen, (fits_iff.mp hfits).2⟩)
  · rw [readBytesMaybeTagged_of_tag htag]
    exact readBytesFlexible_iff.mpr (takes_of_byteString hstring hfits)

theorem Stands.read_of_opens {content : Frame} (h : Stands c dest pos content next) (hopen : OpensBytes c pos) :
    readBytesFlexible c dest pos = (some content, next) := by
  obtain ⟨hspans, hfits⟩ := h
  rcases spans_tagged.mp hspans with hpiece | hstring | ⟨mid, htag, -⟩
  · exact absurd hopen (not_opensBytes_of_piece hpiece)
  · exact readBytesFlexible_iff.mpr (Or.inr ⟨hstring, (fits_iff.mp hfits).2⟩)
  · exact absurd hopen htag.not_opensBytes

/-- Where no string in pieces and no tag starts, only a string with its length is read. -/
theorem readBytesMaybeTagged_plain_iff {content : Frame} (hopen : ¬OpensBytes c pos)
    (htag : ∀ next, ¬TagAt c pos next) :
    readBytesMaybeTagged c dest pos = (some content, next) ↔ Stands c dest pos content next := by
  rw [readBytesMaybeTagged_of_plain hopen htag, readBytes_iff, Stands, spans_tagged, or_iff_left]
  rintro (hstring | ⟨mid, hmid, -⟩)
  · exact hopen (spans_openBytes.mp hstring).1
  · exact htag mid hmid

theorem readLegacySignatureTail_keeps (h : (readLegacySignatureTail c dest pos).1 = none) :
    readLegacySignatureTail c dest pos = (none, pos) := by
  rw [readLegacySignatureTail] at h ⊢
  dsimp only at h ⊢
  split
  · rfl
  rename_i hkey
  rw [if_neg hkey] at h
  split
  · rename_i hread
    rw [if_pos hread] at h
    rw [h] at hread
    cases hread
  · rfl

/-! ### Exact and atomic -/

/-- The reading is exact, and a reading that fails leaves the position as it was. -/
structure Exact (c : Buffer) (dest : Option Nat) (pos : Nat) : Prop where
  reads : ∀ content next, readBytesMaybeTagged c dest pos = (some content, next) ↔ Stands c dest pos content next
  keeps : (readBytesMaybeTagged c dest pos).1 = none → (readBytesMaybeTagged c dest pos).2 = pos
  flexibleKeeps : (readBytesFlexible c dest pos).1 = none → (readBytesFlexible c dest pos).2 = pos
  tailKeeps : (readLegacySignatureTail c dest pos).1 = none → (readLegacySignatureTail c dest pos).2 = pos

/-- A string in pieces, or a tag, starts here. -/
def Begins (c : Buffer) (pos : Nat) : Prop := OpensBytes c pos ∨ ∃ next, TagAt c pos next

theorem stands_of_begins (hbegins : Begins c pos) (h : Exact c dest pos) :
    ∃ content next, Stands c dest pos content next := by
  cases hread : readBytesMaybeTagged c dest pos with
  | mk content next =>
      cases content with
      | some content => exact ⟨content, next, (h.reads content next).mp hread⟩
      | none =>
          exfalso
          have hnext := h.keeps (by rw [hread])
          rcases hbegins with hopen | ⟨mid, htag⟩
          · cases hflexible : readBytesFlexible c dest pos with
            | mk found behind =>
                cases found with
                | some content =>
                    rw [readBytesMaybeTagged_of_flexible (readBytesFlexible_iff.mp hflexible)] at hread
                    cases hread
                | none =>
                    have hkept := h.flexibleKeeps (by rw [hflexible])
                    have hmoved : pos < (readBytesFlexible c dest pos).2 := lt_readBytesFlexible hopen
                    omega
          · rw [readBytesMaybeTagged_of_tag htag] at hnext
            have hbehind := htag.lt
            have hmoved : mid ≤ (readBytesFlexible c dest mid).2 := le_readBytesFlexible
            omega

/-- The second piece is a text string; the reading goes on inside the broken string, where a tag and another byte
string happen to stand. -/
def brokenString : Buffer := ⟨[0x5F, 0x60, 0xC0, 0x41, 0xAA], by decide⟩

end NeroReader.CborBytes
