import NeroReader.CborGrammar
import NeroReader.LanguageSpans
import NeroReader.NdefTlv

/-!
`cbor_skip`: from an item of an authenticator's answer to the byte behind it. Every position that a part of the
skip ends at carries the proof that it lies behind its start and inside the buffer, so that the loops end. What is
skipped is the data items of `CborGrammar`.
-/

namespace NeroReader.CborSkip

open Cbor (Octet breakByte number)
open Ndef (u16)
open LanguageSpans
open scoped Computability

def cborMaxNestDepth : Nat := 32
def cborMajorTypeShift : Nat := 5
def cborAiMask : Byte := 0x1F
def cborAiUint8 : Nat := 24
def cborAiUint16 : Nat := 25
def cborAiUint32 : Nat := 26

/-- The bytes of a `cbor_reader_t`; their number is a `uint16_t`. -/
structure Buffer where
  data : Frame
  length_le : data.length ≤ 0xFFFF

namespace Buffer

variable (c : Buffer)

/-- A position from `low` on, inside the buffer or at its end. -/
abbrev From (low : Nat) := { pos : Nat // low ≤ pos ∧ pos ≤ c.data.length }

variable {c}

def From.back {low low' : Nat} (pos : c.From low) (h : low' ≤ low) : c.From low' := ⟨pos.1, h.trans pos.2.1, pos.2.2⟩

variable (c)

/-- The assignment `c->pos = (uint16_t)(c->pos + count)`. -/
def advance (pos count : Nat) (h : pos + count ≤ c.data.length) : c.From (pos + count) :=
  ⟨u16 (pos + count), by
    rw [Ndef.u16_of_le (h.trans c.length_le)]
    exact ⟨Nat.le_refl _, h⟩⟩

@[simp] theorem advance_val {pos count : Nat} (h : pos + count ≤ c.data.length) :
    (c.advance pos count h).1 = pos + count := Ndef.u16_of_le (h.trans c.length_le)

def hasRemaining (pos count : Nat) : Bool := decide (pos ≤ c.data.length ∧ count ≤ c.data.length - pos)

theorem le_of_hasRemaining {c : Buffer} {pos count : Nat} (h : c.hasRemaining pos count = true) :
    pos + count ≤ c.data.length := by
  rw [hasRemaining, decide_eq_true_eq] at h
  omega

/-! ### Heads -/

structure HeadAt (pos : Nat) where
  major : Nat
  value : Nat
  next : c.From (pos + 1)

/-- A head whose argument takes so many bytes behind the initial byte. -/
def argument (pos major count : Nat) : Option (c.HeadAt pos) :=
  if h : c.hasRemaining (pos + 1) count = true then
    some ⟨major, number 0 ((c.data.drop (pos + 1)).take count),
      (c.advance (pos + 1) count (le_of_hasRemaining h)).back (Nat.le_add_right _ _)⟩
  else none

/-- `cbor_read_head`. -/
def readHead (pos : Nat) : Option (c.HeadAt pos) :=
  if h : pos < c.data.length then
    let ib := u8At c.data pos
    let major := (ib >>> cborMajorTypeShift).toNat
    let ai := (ib &&& cborAiMask).toNat
    if ai < cborAiUint8 then some ⟨major, ai, c.advance pos 1 h⟩
    else if ai = cborAiUint8 then c.argument pos major 1
    else if ai = cborAiUint16 then c.argument pos major 2
    else if ai = cborAiUint32 then c.argument pos major 4
    else none
  else none

/-! ### Loops over a skip -/

/-- A part of the skip: from a position to one behind it. -/
abbrev Skip := (pos : Nat) → Option (c.From (pos + 1))

variable {c}

/-- The loops over an array with its length, and over a map. -/
def skipMany (skip : c.Skip) : Nat → (pos : Nat) → pos ≤ c.data.length → Option (c.From pos)
  | 0, pos, h => some ⟨pos, Nat.le_refl pos, h⟩
  | n + 1, pos, _ =>
      (skip pos).bind fun next => (skipMany skip n next.1 next.2.2).map (·.back (Nat.le_of_succ_le next.2.1))

/-- The loops over what ends with a break byte. -/
def skipUntilBreak (skip : c.Skip) (pos : Nat) : Option (c.From (pos + 1)) :=
  if h : pos < c.data.length then
    if u8At c.data pos = breakByte then some (c.advance pos 1 h)
    else (skip pos).bind fun next => (skipUntilBreak skip next.1).map (·.back (Nat.le_succ_of_le next.2.1))
  else none
termination_by c.data.length - pos
decreasing_by
  have := next.2.1
  omega

/-- A key and its value. -/
def skipPair (skip : c.Skip) : c.Skip := fun pos =>
  (skip pos).bind fun next => (skip next.1).map (·.back (Nat.le_succ_of_le next.2.1))

variable (c)

/-- A piece of a string, of the string's own major type. -/
def skipChunk (chunkMajor : Nat) : c.Skip := fun pos =>
  (c.readHead pos).bind fun head =>
    if h : head.major = chunkMajor ∧ c.hasRemaining head.next.1 head.value = true then
      some ((c.advance head.next.1 head.value (le_of_hasRemaining h.2)).back (Nat.le_add_right_of_le head.next.2.1))
    else none

/-! ### The skip -/

variable {c}

theorem HeadAt.end_le {pos : Nat} (head : c.HeadAt pos) (h : ¬c.data.length - head.next.1 < head.value) :
    head.next.1 + head.value ≤ c.data.length := by
  have := head.next.2.2
  omega

theorem HeadAt.le_end {pos : Nat} (head : c.HeadAt pos) : pos + 1 ≤ head.next.1 + head.value :=
  Nat.le_add_right_of_le head.next.2.1

theorem HeadAt.le_next {pos : Nat} (head : c.HeadAt pos) : pos + 1 ≤ head.next.1 := head.next.2.1

theorem HeadAt.le_succ_next {pos : Nat} (head : c.HeadAt pos) : pos + 1 ≤ head.next.1 + 1 :=
  Nat.le_succ_of_le head.le_next

theorem HeadAt.inside {pos : Nat} (head : c.HeadAt pos) : head.next.1 ≤ c.data.length := head.next.2.2

variable (c)

/-- What stands behind the head of a definite item. -/
def skipContent (skip : c.Skip) {pos : Nat} (head : c.HeadAt pos) : Option (c.From (pos + 1)) :=
  match head.major with
  | 0 | 1 | 7 => some head.next
  | 2 | 3 =>
      if h : c.data.length - head.next.1 < head.value then none
      else
        some ((c.advance head.next.1 head.value (head.end_le h)).back head.le_end)
  | 4 => (skipMany skip head.value head.next.1 head.inside).map (·.back head.le_next)
  | 5 => (skipMany (skipPair skip) head.value head.next.1 head.inside).map (·.back head.le_next)
  | 6 => (skip head.next.1).map (·.back head.le_succ_next)
  | _ => none

/-- What stands behind the initial byte of an indefinite item. -/
def skipIndefinite (skip : c.Skip) (major pos : Nat) : Option (c.From (pos + 1)) :=
  match major with
  | 2 | 3 => skipUntilBreak (c.skipChunk major) pos
  | 4 => skipUntilBreak skip pos
  | 5 => skipUntilBreak (skipPair skip) pos
  | _ => none

/-- `cbor_skip_depth`; so many levels are left, none beyond the deepest. -/
def skipDepth : Nat → c.Skip
  | 0, _ => none
  | levels + 1, pos =>
      if h : pos < c.data.length then
        let ib := u8At c.data pos
        if ib &&& cborAiMask = cborAiMask then
          let next := c.advance pos 1 h
          (c.skipIndefinite (skipDepth levels) (ib >>> cborMajorTypeShift).toNat next.1).map
            (·.back (Nat.le_succ_of_le next.2.1))
        else (c.readHead pos).bind fun head => c.skipContent (skipDepth levels) head
      else none

/-- `cbor_skip`: the position behind the item, or none where it fails. -/
def skip (pos : Nat) : Option Nat := (c.skipDepth (cborMaxNestDepth + 1) pos).map (·.1)

/-! ### Heads follow the grammar -/

variable {c} {pos next : Nat}

theorem initial_byte (ib : Octet) : (ib >>> cborMajorTypeShift).toNat = ib.toNat / 32 ∧
    (ib &&& cborAiMask).toNat = ib.toNat % 32 ∧ (ib &&& cborAiMask = cborAiMask ↔ ib.toNat % 32 = 31) := by
  have hall : ∀ ib : Octet, (ib >>> cborMajorTypeShift).toNat = ib.toNat / 32 ∧
      (ib &&& cborAiMask).toNat = ib.toNat % 32 ∧ (ib &&& cborAiMask = cborAiMask ↔ ib.toNat % 32 = 31) := by
    decide
  exact hall ib

theorem u8At_of_drop {data : Frame} {ib : Octet} {rest : Frame} (h : data.drop pos = ib :: rest) :
    u8At data pos = ib := by
  have hget : (data.drop pos)[0]? = some ib := by
    rw [h]
    rfl
  rw [List.getElem?_drop, Nat.add_zero] at hget
  rw [u8At, List.getD_eq_getElem?_getD, hget, Option.getD_some]

theorem drop_succ {data : Frame} {ib : Octet} {rest : Frame} (h : data.drop pos = ib :: rest) :
    data.drop (pos + 1) = rest := by
  rw [← List.drop_drop, h]
  rfl

theorem argument_eq {arg rest : Frame} (major : Nat) (hpos : pos < c.data.length)
    (hdrop : c.data.drop (pos + 1) = arg ++ rest) :
    ∃ h, c.argument pos major arg.length = some ⟨major, number 0 arg, ⟨pos + 1 + arg.length, h⟩⟩ := by
  have hlen := congrArg List.length hdrop
  rw [List.length_drop, List.length_append] at hlen
  have hspan : c.hasRemaining (pos + 1) arg.length = true := by
    rw [hasRemaining, decide_eq_true_eq]
    omega
  have hadvance : u16 (pos + 1 + arg.length) = pos + 1 + arg.length :=
    Ndef.u16_of_le ((le_of_hasRemaining hspan).trans c.length_le)
  refine ⟨⟨Nat.le_add_right _ _, le_of_hasRemaining hspan⟩, ?_⟩
  rw [argument, dif_pos hspan, hdrop, List.take_left]
  simp only [advance, From.back, hadvance]

/-- A head is read where it stands. -/
theorem readHead_eq {ib : Octet} {arg rest : Frame} (hdrop : c.data.drop pos = ib :: (arg ++ rest))
    (harg : Cbor.argLength (ib.toNat % 32) = some arg.length) :
    ∃ h, c.readHead pos =
      some ⟨ib.toNat / 32, Cbor.argValue (ib.toNat % 32) arg, ⟨pos + 1 + arg.length, h⟩⟩ := by
  have hpos : pos < c.data.length := by
    have hlen := congrArg List.length hdrop
    rw [List.length_drop, List.length_cons] at hlen
    omega
  obtain ⟨hmajor, hai, -⟩ := initial_byte ib
  have hrest := drop_succ hdrop
  rw [readHead, dif_pos hpos, u8At_of_drop hdrop]
  dsimp only
  rw [hmajor, hai]
  unfold cborAiUint8 cborAiUint16 cborAiUint32
  rw [Cbor.argLength] at harg
  by_cases hinline : ib.toNat % 32 < 24
  · rw [if_pos hinline] at harg
    have hnil : arg = [] := List.eq_nil_of_length_eq_zero (Option.some.inj harg).symm
    subst hnil
    have hadvance : u16 (pos + 1) = pos + 1 := Ndef.u16_of_le (Nat.le_trans hpos c.length_le)
    refine ⟨⟨Nat.le_refl _, hpos⟩, ?_⟩
    rw [if_pos hinline, Cbor.argValue, if_pos hinline]
    simp only [advance, hadvance]
    rfl
  rw [if_neg hinline] at harg ⊢
  obtain ⟨hinside, hread⟩ := argument_eq (ib.toNat / 32) hpos hrest
  refine ⟨hinside, ?_⟩
  rw [Cbor.argValue, if_neg hinline, ← hread]
  by_cases hbyte : ib.toNat % 32 = 24
  · rw [if_pos hbyte] at harg ⊢
    rw [← Option.some.inj harg]
  rw [if_neg hbyte] at harg ⊢
  by_cases hword : ib.toNat % 32 = 25
  · rw [if_pos hword] at harg ⊢
    rw [← Option.some.inj harg]
  rw [if_neg hword] at harg ⊢
  by_cases hlong : ib.toNat % 32 = 26
  · rw [if_pos hlong] at harg ⊢
    rw [← Option.some.inj harg]
  · rw [if_neg hlong] at harg
    cases harg

/-- A head that is read has its argument in the buffer. -/
theorem arg_of_readHead {head : c.HeadAt pos} (h : c.readHead pos = some head) :
    ∃ ib arg rest, c.data.drop pos = ib :: (arg ++ rest) ∧ Cbor.argLength (ib.toNat % 32) = some arg.length := by
  rw [readHead] at h
  split at h
  case isFalse => cases h
  rename_i hpos
  obtain ⟨ib, tail, hdrop⟩ : ∃ ib tail, c.data.drop pos = ib :: tail := ⟨_, _, List.drop_eq_getElem_cons hpos⟩
  have htail := congrArg List.length (drop_succ hdrop)
  rw [List.length_drop] at htail
  obtain ⟨hmajor, hai, -⟩ := initial_byte ib
  rw [u8At_of_drop hdrop] at h
  dsimp only at h
  rw [hmajor, hai] at h
  unfold cborAiUint8 cborAiUint16 cborAiUint32 at h
  have hargument : ∀ {major count}, c.argument pos major count = some head →
      Cbor.argLength (ib.toNat % 32) = some count →
      ∃ ib arg rest, c.data.drop pos = ib :: (arg ++ rest) ∧ Cbor.argLength (ib.toNat % 32) = some arg.length := by
    intro major count hread harg
    rw [argument] at hread
    split at hread
    case isFalse => cases hread
    rename_i hspan
    have hle := le_of_hasRemaining hspan
    refine ⟨ib, tail.take count, tail.drop count, by rw [List.take_append_drop, hdrop], ?_⟩
    rw [harg, List.length_take]
    congr 1
    omega
  by_cases hinline : ib.toNat % 32 < 24
  · exact ⟨ib, [], tail, hdrop, if_pos hinline⟩
  rw [if_neg hinline] at h
  by_cases hbyte : ib.toNat % 32 = 24
  · rw [if_pos hbyte] at h
    exact hargument h (by rw [hbyte]; rfl)
  rw [if_neg hbyte] at h
  by_cases hword : ib.toNat % 32 = 25
  · rw [if_pos hword] at h
    exact hargument h (by rw [hword]; rfl)
  rw [if_neg hword] at h
  by_cases hlong : ib.toNat % 32 = 26
  · rw [if_pos hlong] at h
    exact hargument h (by rw [hlong]; rfl)
  · rw [if_neg hlong] at h
    cases h

/-- **Heads.** -/
theorem readHead_iff {major value : Nat} :
    (∃ h, c.readHead pos = some ⟨major, value, ⟨next, h⟩⟩) ↔ Spans c.data (Cbor.heads major value) pos next := by
  constructor
  · rintro ⟨h, hread⟩
    obtain ⟨ib, arg, rest, hdrop, harg⟩ := arg_of_readHead hread
    obtain ⟨h', hread'⟩ := readHead_eq hdrop harg
    cases hread.symm.trans hread'
    have hword : ib :: arg ∈ Cbor.heads (ib.toNat / 32) (Cbor.argValue (ib.toNat % 32) arg) := .mk ib arg harg
    have hspans := Spans.of_drop hword (by omega) hdrop
    rwa [List.length_cons, Nat.add_comm arg.length, ← Nat.add_assoc] at hspans
  · intro h
    obtain ⟨w, ⟨ib, arg, harg⟩, rfl, hdrop⟩ := h.drop_eq
    obtain ⟨hinside, hread⟩ := readHead_eq hdrop harg
    rw [List.length_cons, Nat.add_comm arg.length, ← Nat.add_assoc]
    exact ⟨hinside, hread⟩

/-! ### The loops follow the languages -/

/-- A part of the skip passes over the words of a language. -/
def Skips (skip : c.Skip) (L : Language Octet) : Prop :=
  ∀ pos next, (skip pos).map (·.1) = some next ↔ Spans c.data L pos next

variable {skip : c.Skip} {L M : Language Octet}

theorem map_back {low low' : Nat} (found : Option (c.From low)) (h : low' ≤ low) :
    (found.map fun next => next.back h).map (·.1) = found.map (·.1) := by
  rw [Option.map_map]
  rfl

/-- **One part behind another.** -/
theorem Skips.bind (hskip : Skips skip L) {low : Nat} {rest : c.From (pos + 1) → Option (c.From low)}
    (hrest : ∀ mid, (rest mid).map (·.1) = some next ↔ Spans c.data M mid.1 next) :
    ((skip pos).bind rest).map (·.1) = some next ↔ Spans c.data (L * M) pos next := by
  rw [spans_mul]
  constructor
  · intro h
    cases hfirst : skip pos with
    | none =>
        rw [hfirst] at h
        cases h
    | some mid =>
        rw [hfirst, Option.bind_some] at h
        exact ⟨mid.1, (hskip pos mid.1).mp (by rw [hfirst]; rfl), (hrest mid).mp h⟩
  · rintro ⟨mid, hmid, h⟩
    obtain ⟨found, hfirst, rfl⟩ := Option.map_eq_some_iff.mp ((hskip pos mid).mpr hmid)
    rw [hfirst, Option.bind_some]
    exact (hrest found).mpr h

theorem skipMany_iff (hskip : Skips skip L) (n : Nat) {pos : Nat} (hpos : pos ≤ c.data.length) :
    (skipMany skip n pos hpos).map (·.1) = some next ↔ Spans c.data (L ^ n) pos next := by
  induction n generalizing pos with
  | zero =>
      rw [skipMany, pow_zero, spans_one, Option.map_some, Option.some.injEq]
      exact ⟨fun h => ⟨h, hpos⟩, fun h => h.1⟩
  | succ n ih =>
      rw [skipMany, pow_succ']
      apply hskip.bind
      intro mid
      rw [map_back]
      exact ih mid.2.2

theorem skipPair_skips (hskip : Skips skip L) : Skips (skipPair skip) (L * L) := by
  intro pos next
  rw [skipPair]
  apply hskip.bind
  intro mid
  rw [map_back]
  exact hskip mid.1 next

/-- **The loops up to a break byte**, over words that do not start with one. -/
theorem skipUntilBreak_skips (hskip : Skips skip L) (hstart : ∀ w ∈ L, Cbor.Starts w) :
    Skips (skipUntilBreak skip) (Cbor.broken L) := by
  intro pos next
  induction hleft : c.data.length - pos using Nat.strong_induction_on generalizing pos with
  | _ left ih =>
      rw [skipUntilBreak, Cbor.broken, spans_kstar]
      split
      · rename_i hpos
        obtain ⟨ib, rest, hdrop⟩ : ∃ ib rest, c.data.drop pos = ib :: rest := ⟨_, _, List.drop_eq_getElem_cons hpos⟩
        rw [u8At_of_drop hdrop]
        split
        · rename_i hbreak
          rw [Option.map_some, Option.some.injEq, advance_val]
          constructor
          · rintro rfl
            exact Or.inl (spans_singleton.mpr ⟨rfl, rest, by rw [hdrop, hbreak]⟩)
          · rintro (h | ⟨mid, hmid, -⟩)
            · exact (spans_singleton.mp h).1.symm
            · -- a word of the language cannot start here
              obtain ⟨w, hw, -, hword⟩ := hmid.drop_eq
              obtain ⟨first, tail, rfl, hne⟩ := hstart w hw
              rw [hdrop] at hword
              exact absurd ((List.cons.inj hword).1.symm.trans hbreak) hne
        · rename_i hne
          rw [or_iff_right, ← spans_mul]
          · apply hskip.bind
            intro mid
            rw [map_back]
            have hmid := mid.2.1
            exact ih _ (by omega) mid.1 rfl
          · intro h
            obtain ⟨-, tail, hword⟩ := spans_singleton.mp h
            rw [hdrop] at hword
            exact hne (List.cons.inj hword).1
      · rename_i hend
        refine iff_of_false (by simp) ?_
        rintro (h | ⟨mid, hmid, -⟩)
        · obtain ⟨rfl, -⟩ := spans_singleton.mp h
          exact hend h.inside
        · obtain ⟨w, hw, rfl, -⟩ := hmid.drop_eq
          obtain ⟨first, tail, rfl, -⟩ := hstart w hw
          have hinside := hmid.inside
          rw [List.length_cons] at hinside
          omega

/-- So many bytes of content, where the buffer has them. -/
theorem advance_iff {pos count : Nat} (h : pos + count ≤ c.data.length) :
    (c.advance pos count h).1 = next ↔ Spans c.data (Cbor.contents count) pos next := by
  rw [advance_val]
  constructor
  · rintro rfl
    have hword : (c.data.drop pos).take count ∈ Cbor.contents count := by
      show ((c.data.drop pos).take count).length = count
      rw [List.length_take, List.length_drop]
      omega
    have hspans := Spans.of_drop hword (by omega) (List.take_append_drop count (c.data.drop pos)).symm
    have hlen : ((c.data.drop pos).take count).length = count := hword
    rwa [hlen] at hspans
  · intro hspans
    obtain ⟨w, hw, rfl, -⟩ := hspans.drop_eq
    obtain rfl : w.length = count := hw
    rfl

theorem Spans.contents_le {pos count : Nat} (h : Spans c.data (Cbor.contents count) pos next) :
    pos + count ≤ c.data.length := by
  obtain ⟨w, hw, rfl, -⟩ := h.drop_eq
  obtain rfl : w.length = count := hw
  exact h.inside

theorem hasRemaining_iff {pos count : Nat} : c.hasRemaining pos count = true ↔ pos + count ≤ c.data.length := by
  rw [hasRemaining, decide_eq_true_eq]
  omega

/-- **Pieces of a string.** -/
theorem skipChunk_skips (major : Nat) : Skips (c.skipChunk major) (Cbor.strings major) := by
  intro pos next
  constructor
  · intro h
    rw [skipChunk] at h
    cases hread : c.readHead pos with
    | none =>
        rw [hread] at h
        cases h
    | some head =>
        rw [hread, Option.bind_some] at h
        split at h
        · rename_i hok
          obtain ⟨rfl, hspan⟩ := hok
          have hhead : Spans c.data (Cbor.heads head.major head.value) pos head.next.1 :=
            readHead_iff.mp ⟨head.next.2, hread⟩
          have hcontent := (advance_iff (le_of_hasRemaining hspan)).mp (Option.some.inj h)
          have hboth := spans_mul.mpr ⟨_, hhead, hcontent⟩
          exact hboth.mono fun w hw => ⟨head.value, hw⟩
        · cases h
  · intro h
    obtain ⟨n, hn⟩ := h.word
    obtain ⟨mid, hhead, hcontent⟩ := spans_mul.mp ⟨h.le, h.inside, hn⟩
    obtain ⟨hmid, hread⟩ := readHead_iff.mpr hhead
    have hspan := hasRemaining_iff.mpr (Spans.contents_le hcontent)
    rw [skipChunk, hread, Option.bind_some, dif_pos ⟨rfl, hspan⟩]
    exact congrArg some ((advance_iff (Spans.contents_le hcontent)).mpr hcontent)

/-! ### The skip follows the grammar -/

theorem skipContent_iff (hskip : Skips skip L) {pos : Nat} (head : c.HeadAt pos) :
    (c.skipContent skip head).map (·.1) = some next ↔
      Spans c.data (Cbor.behind L head.major head.value) head.next.1 next := by
  have hnumber : some head.next.1 = some next ↔ Spans c.data 1 head.next.1 next := by
    rw [spans_one, Option.some.injEq]
    exact ⟨fun h => ⟨h, head.next.2.2⟩, fun h => h.1⟩
  have hinside := head.next.2.2
  have hstring : Option.map (·.1) (if h : c.data.length - head.next.1 < head.value then none
        else some ((c.advance head.next.1 head.value (by omega)).back
          (Nat.le_add_right_of_le head.next.2.1) : c.From (pos + 1))) = some next ↔
      Spans c.data (Cbor.contents head.value) head.next.1 next := by
    split
    · rename_i hshort
      refine iff_of_false (by simp) fun h => ?_
      have hle := Spans.contents_le h
      omega
    · rw [Option.map_some, Option.some.injEq]
      exact advance_iff (by omega)
  rw [skipContent.eq_def, Cbor.behind.eq_def]
  obtain ⟨major, value, mid⟩ := head
  dsimp only at *
  rcases major with _ | _ | _ | _ | _ | _ | _ | _ | n
  · exact hnumber
  · exact hnumber
  · exact hstring
  · exact hstring
  · exact (map_back _ _).symm ▸ skipMany_iff hskip value hinside
  · exact (map_back _ _).symm ▸ skipMany_iff (skipPair_skips hskip) value hinside
  · exact (map_back _ _).symm ▸ hskip mid.1 next
  · exact hnumber
  · exact iff_of_false (by simp) not_spans_zero

theorem skipIndefinite_iff (hskip : Skips skip L) (hstart : ∀ w ∈ L, Cbor.Starts w) (major pos : Nat) :
    (c.skipIndefinite skip major pos).map (·.1) = some next ↔ Spans c.data (Cbor.behindOpen L major) pos next := by
  rw [skipIndefinite.eq_def, Cbor.behindOpen.eq_def]
  rcases major with _ | _ | _ | _ | _ | _ | n
  · exact iff_of_false (by simp) not_spans_zero
  · exact iff_of_false (by simp) not_spans_zero
  · exact skipUntilBreak_skips (skipChunk_skips 2) (fun w => Cbor.starts_of_strings) pos next
  · exact skipUntilBreak_skips (skipChunk_skips 3) (fun w => Cbor.starts_of_strings) pos next
  · exact skipUntilBreak_skips hskip hstart pos next
  · exact skipUntilBreak_skips (skipPair_skips hskip) (Cbor.starts_of_mul hstart) pos next
  · exact iff_of_false (by simp) not_spans_zero

theorem indefinite_eq {ib : Octet} (h : ib.toNat % 32 = 31) : Cbor.indefinite (ib.toNat / 32) = ib := by
  have hall : ∀ ib : Octet, ib.toNat % 32 = 31 → Cbor.indefinite (ib.toNat / 32) = ib := by decide
  exact hall ib h

theorem indefinite_fields {major : Nat} (h : major < 8) :
    (Cbor.indefinite major).toNat % 32 = 31 ∧ (Cbor.indefinite major).toNat / 32 = major := by
  rw [Cbor.indefinite, BitVec.toNat_ofNat]
  omega

theorem spans_items_succ {levels : Nat} : Spans c.data (Cbor.items (levels + 1)) pos next ↔
    (∃ major value, Spans c.data (Cbor.heads major value * Cbor.behind (Cbor.items levels) major value) pos next) ∨
      ∃ major, Spans c.data ({[Cbor.indefinite major]} * Cbor.behindOpen (Cbor.items levels) major) pos next := by
  constructor
  · intro h
    rcases Cbor.isItem_iff.mp h.word with ⟨major, value, hw⟩ | ⟨major, hw⟩
    · exact Or.inl ⟨major, value, h.le, h.inside, hw⟩
    · exact Or.inr ⟨major, h.le, h.inside, hw⟩
  · rintro (⟨major, value, h⟩ | ⟨major, h⟩)
    · exact ⟨h.le, h.inside, Cbor.isItem_iff.mpr (Or.inl ⟨major, value, h.word⟩)⟩
    · exact ⟨h.le, h.inside, Cbor.isItem_iff.mpr (Or.inr ⟨major, h.word⟩)⟩

/-- An item with a definite head. -/
theorem definite_iff (hskip : Skips skip L) :
    ((c.readHead pos).bind fun head => c.skipContent skip head).map (·.1) = some next ↔
      ∃ major value, Spans c.data (Cbor.heads major value * Cbor.behind L major value) pos next := by
  constructor
  · intro h
    cases hread : c.readHead pos with
    | none =>
        rw [hread] at h
        cases h
    | some head =>
        rw [hread, Option.bind_some] at h
        have hhead : Spans c.data (Cbor.heads head.major head.value) pos head.next.1 :=
          readHead_iff.mp ⟨head.next.2, hread⟩
        exact ⟨head.major, head.value, spans_mul.mpr ⟨_, hhead, (skipContent_iff hskip head).mp h⟩⟩
  · rintro ⟨major, value, h⟩
    obtain ⟨mid, hhead, hbehind⟩ := spans_mul.mp h
    obtain ⟨hmid, hread⟩ := readHead_iff.mpr hhead
    rw [hread, Option.bind_some]
    exact (skipContent_iff hskip _).mpr hbehind

theorem behindOpen_ne_zero {major : Nat} {w : List Octet} (h : w ∈ Cbor.behindOpen L major) : major < 8 := by
  by_contra hge
  rw [Cbor.behindOpen.eq_def] at h
  split at h
  case h_5 => exact Language.notMem_zero w h
  all_goals omega

/-- An initial byte says whether the item is open. -/
theorem open_iff {ib : Octet} {rest : Frame} (hdrop : c.data.drop pos = ib :: rest) :
    (∃ major, Spans c.data ({[Cbor.indefinite major]} * Cbor.behindOpen L major) pos next) ↔
      ib.toNat % 32 = 31 ∧ Spans c.data (Cbor.behindOpen L (ib.toNat / 32)) (pos + 1) next := by
  constructor
  · rintro ⟨major, h⟩
    obtain ⟨mid, hfirst, hbehind⟩ := spans_mul.mp h
    obtain ⟨rfl, tail, htail⟩ := spans_singleton.mp hfirst
    rw [hdrop] at htail
    obtain rfl := (List.cons.inj htail).1
    obtain ⟨hinfo, hmajor⟩ := indefinite_fields (behindOpen_ne_zero hbehind.word)
    rw [hmajor]
    exact ⟨hinfo, hbehind⟩
  · rintro ⟨hinfo, hbehind⟩
    refine ⟨ib.toNat / 32, spans_mul.mpr ⟨pos + 1, spans_singleton.mpr ⟨rfl, rest, ?_⟩, hbehind⟩⟩
    rw [indefinite_eq hinfo]
    exact hdrop

theorem not_definite_of_open {ib : Octet} {rest : Frame} (hdrop : c.data.drop pos = ib :: rest)
    (hinfo : ib.toNat % 32 = 31) :
    ¬∃ major value, Spans c.data (Cbor.heads major value * Cbor.behind L major value) pos next := by
  rintro ⟨major, value, h⟩
  obtain ⟨mid, hhead, -⟩ := spans_mul.mp h
  obtain ⟨w, ⟨first, arg, harg⟩, -, hword⟩ := hhead.drop_eq
  rw [hdrop] at hword
  obtain rfl := (List.cons.inj hword).1
  have hlt := Cbor.argLength_lt harg
  omega

/-- **Every level of the skip passes over the items of that level.** -/
theorem skipDepth_skips (levels : Nat) : Skips (c.skipDepth levels) (Cbor.items levels) := by
  induction levels with
  | zero =>
      intro pos next
      exact iff_of_false (by simp [skipDepth]) not_spans_zero
  | succ levels ih =>
      intro pos next
      rw [skipDepth]
      split
      · rename_i hpos
        obtain ⟨ib, rest, hdrop⟩ : ∃ ib rest, c.data.drop pos = ib :: rest := ⟨_, _, List.drop_eq_getElem_cons hpos⟩
        obtain ⟨hmajor, -, hmask⟩ := initial_byte ib
        rw [u8At_of_drop hdrop, spans_items_succ, open_iff hdrop]
        dsimp only
        split
        · rename_i hopen
          have hinfo := hmask.mp hopen
          rw [or_iff_right (not_definite_of_open hdrop hinfo), map_back, hmajor,
            skipIndefinite_iff ih (fun w => Cbor.starts_of_items), advance_val]
          exact ⟨fun h => ⟨hinfo, h⟩, fun h => h.2⟩
        · rename_i hclosed
          rw [or_iff_left fun h => hclosed (hmask.mpr h.1)]
          exact definite_iff ih
      · rename_i hend
        refine iff_of_false (by simp) fun h => ?_
        obtain ⟨w, hw, rfl, -⟩ := h.drop_eq
        obtain ⟨first, tail, rfl, -⟩ := Cbor.starts_of_items hw
        have hinside := h.inside
        rw [List.length_cons] at hinside
        omega

/-- **A skip ends behind an item of the grammar, nested down to the deepest level, and fails where none stands.** -/
theorem skip_iff (c : Buffer) (pos next : Nat) :
    c.skip pos = some next ↔ Spans c.data (Cbor.items (cborMaxNestDepth + 1)) pos next :=
  skipDepth_skips (cborMaxNestDepth + 1) pos next

end Buffer

end NeroReader.CborSkip
