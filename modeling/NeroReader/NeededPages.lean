import NeroReader.FiniteLoop
import NeroReader.TagReading

/-!
The page estimate `reader_tags_type2_needed_pages`. It walks the TLVs of what has been read so far with 16-bit
positions and does not ask whether a TLV that it passes ends inside the buffer. An extended length may therefore lead
the walk back to where it has been; the estimate returns exactly when that does not happen, and what it returns covers
the message.
-/

namespace NeroReader.Tags

open Ndef Storage
open Relation (ReflTransGen TransGen)
open FiniteLoop (Circles GoesOn)

variable {data memory : Frame} {maxPage : Nat}

/-! ### The walk -/

/-- One round of `reader_tags_type2_needed_pages`: the next position or the result. -/
def neededPagesRound (data : Frame) (maxPage tlvStart : Nat) : Nat ⊕ Nat :=
  if tlvStart < data.length then
    let pos := u16 (tlvStart + 1)
    if u8At data tlvStart = tlvNull then .inl pos
    else if u8At data tlvStart = tlvTerminator then .inr ((tlvStart + t2tPageSizeBytes) / t2tPageSizeBytes)
    else if data.length ≤ pos then .inr 0
    else
      match tlvLength data pos with
      | none => .inr 0
      | some (valueLen, pos) =>
          if u8At data tlvStart ≠ tlvMessage then .inl (u16 (pos + valueLen))
          else .inr (min ((min (pos + valueLen) type2TagDumpMax + t2tPageSizeBytes - 1) / t2tPageSizeBytes)
            (type2PagesUpTo maxPage))
  else .inr 0

theorem type2NeededPagesFrom_eq_run (fuel pos : Nat) :
    type2NeededPagesFrom data maxPage fuel pos = FiniteLoop.run (neededPagesRound data maxPage) fuel pos := by
  induction fuel generalizing pos with
  | zero => rfl
  | succ fuel ih =>
      rw [type2NeededPagesFrom, FiniteLoop.run, neededPagesRound]
      split
      swap
      · rfl
      dsimp only
      split
      · exact ih _
      split
      · rfl
      split
      · rfl
      cases tlvLength data (u16 (pos + 1)) with
      | none => rfl
      | some field =>
          dsimp only
          split
          · exact ih _
          · rfl

/-- The position behind a null byte, or behind a TLV of another type, wherever that TLV ends in 16 bits. -/
inductive TlvBehind (data : Frame) (pos : Nat) : Nat → Prop where
  | null (hin : pos < data.length) (htype : u8At data pos = tlvNull) : TlvBehind data pos (u16 (pos + 1))
  | other {valueLen valuePos : Nat} (hin : pos < data.length) (hnull : u8At data pos ≠ tlvNull)
      (hterm : u8At data pos ≠ tlvTerminator) (hother : u8At data pos ≠ tlvMessage)
      (hheader : u16 (pos + 1) < data.length) (hlength : tlvLength data (u16 (pos + 1)) = some (valueLen, valuePos)) :
      TlvBehind data pos (u16 (valuePos + valueLen))

theorem goesOn_eq : GoesOn (neededPagesRound data maxPage) = TlvBehind data := by
  funext pos next
  apply propext
  rw [GoesOn, neededPagesRound]
  constructor
  · intro h
    split at h
    swap
    · cases h
    rename_i hin
    dsimp only at h
    split at h
    · rename_i htype
      cases h
      exact .null hin htype
    rename_i hnull
    split at h
    · cases h
    rename_i hterm
    split at h
    · cases h
    rename_i hheader
    split at h
    · cases h
    rename_i valueLen valuePos hlength
    split at h
    · rename_i hother
      cases h
      exact .other hin hnull hterm hother (Nat.lt_of_not_le hheader) hlength
    · cases h
  · intro h
    cases h with
    | null hin htype => rw [if_pos hin, if_pos htype]
    | other hin hnull hterm hother hheader hlength =>
        rw [if_pos hin]
        dsimp only
        rw [if_neg hnull, if_neg hterm, if_neg (Nat.not_le_of_lt hheader), hlength]
        exact if_pos hother

theorem TlvBehind.lt {pos next : Nat} (h : TlvBehind data pos next) : next < 0x10000 := by
  cases h with
  | null => exact Nat.mod_lt _ (by decide)
  | other => exact Nat.mod_lt _ (by decide)

/-- The walk from the data area on stays among the 16-bit positions. -/
theorem reach_lt {pos : Nat} (h : ReflTransGen (TlvBehind data) type2CcPrefixBytes pos) :
    pos ∈ Finset.range 0x10000 := by
  rw [Finset.mem_range]
  cases h with
  | refl => decide
  | tail _ hlast => exact hlast.lt

/-- The walk returns within as many rounds as there are positions, or in no number of rounds. -/
theorem type2NeededPagesFrom_iff :
    (∃ pages, type2NeededPagesFrom data maxPage 0x10000 type2CcPrefixBytes = some pages) ↔
      ¬Circles (TlvBehind data) type2CcPrefixBytes := by
  rw [type2NeededPagesFrom_eq_run]
  constructor
  · intro h
    rw [← goesOn_eq]
    exact (FiniteLoop.ends_iff fun t ht => reach_lt (by rwa [goesOn_eq] at ht)).mp ⟨_, h⟩
  · intro h
    rw [← goesOn_eq] at h
    exact FiniteLoop.run_of_not_circles (Finset.card_range _).le (fun t ht => reach_lt (by rwa [goesOn_eq] at ht)) h

/-- The extended length of the TLV at this position ends it behind the last 16-bit position. -/
def Wraps (data : Frame) (pos : Nat) : Prop :=
  ∃ valueLen valuePos, tlvLength data (pos + 1) = some (valueLen, valuePos) ∧ 0xFFFF < valuePos + valueLen

theorem TlvBehind.forward {pos next : Nat} (hdata : data.length ≤ 0xFFFF) (h : TlvBehind data pos next) :
    pos < next ∨ Wraps data pos := by
  cases h with
  | null hin =>
      rw [u16_of_le (by omega)]
      exact .inl (Nat.lt_succ_self pos)
  | @other valueLen valuePos hin _ _ _ hheader hlength =>
      rw [u16_of_le (by omega)] at hheader hlength
      have hbounds := tlvLength_bounds hdata hheader hlength
      by_cases hwrap : 0xFFFF < valuePos + valueLen
      · exact .inr ⟨valueLen, valuePos, hlength, hwrap⟩
      · rw [u16_of_le (by omega)]
        exact .inl (by omega)

/-- **Only a wrapping TLV turns the walk back.** -/
theorem circles_wraps {start : Nat} (hdata : data.length ≤ 0xFFFF) (h : Circles (TlvBehind data) start) :
    ∃ pos, ReflTransGen (TlvBehind data) start pos ∧ Wraps data pos := by
  obtain ⟨turn, hreach, hcycle⟩ := h
  by_contra hnone
  have hforward : ∀ pos, TransGen (TlvBehind data) turn pos → turn < pos := by
    intro pos hpath
    induction hpath with
    | single hnext =>
        exact (hnext.forward hdata).resolve_right fun hwraps => hnone ⟨turn, hreach, hwraps⟩
    | @tail pos next hpath hnext ih =>
        have hlater := (hnext.forward hdata).resolve_right fun hwraps =>
          hnone ⟨pos, hreach.trans hpath.to_reflTransGen, hwraps⟩
        exact Nat.lt_trans ih hlater
  exact Nat.lt_irrefl turn (hforward turn hcycle)

/-! ### What the search finds -/

/-- From this position on the first message TLV ends here: behind null bytes and TLVs of other types that all end
inside the buffer. -/
inductive MessageEnd (data : Frame) : Nat → Nat → Prop where
  | null {pos endPos : Nat} (hin : pos < data.length) (htype : u8At data pos = tlvNull)
      (rest : MessageEnd data (pos + 1) endPos) : MessageEnd data pos endPos
  | other {pos valueLen valuePos endPos : Nat} (hheader : pos + 1 < data.length) (hnull : u8At data pos ≠ tlvNull)
      (hterm : u8At data pos ≠ tlvTerminator) (hother : u8At data pos ≠ tlvMessage)
      (hlength : tlvLength data (pos + 1) = some (valueLen, valuePos)) (hfits : valuePos + valueLen ≤ data.length)
      (rest : MessageEnd data (valuePos + valueLen) endPos) : MessageEnd data pos endPos
  | message {pos valueLen valuePos : Nat} (hheader : pos + 1 < data.length) (htype : u8At data pos = tlvMessage)
      (hlength : tlvLength data (pos + 1) = some (valueLen, valuePos)) (hfits : valuePos + valueLen ≤ data.length) :
      MessageEnd data pos (valuePos + valueLen)

/-- One step of the search: the TLV it stops at is the message, or lies in front of it. -/
theorem messageEnd_of_next (hdata : data.length ≤ 0xFFFF) {fuel pos next : Nat} {tlv : NdefTlv}
    (h : tlvNextFrom data fuel pos = ⟨.ok, tlv, next⟩) :
    (tlv.type = tlvMessage → MessageEnd data pos (tlv.valueOffset + tlv.valueLen)) ∧
      (tlv.type ≠ tlvMessage → ∀ endPos, MessageEnd data next endPos → MessageEnd data pos endPos) := by
  induction fuel generalizing pos with
  | zero => cases h
  | succ fuel ih =>
      rw [tlvNextFrom] at h
      split at h
      swap
      · cases h
      rename_i hin
      rw [u16_of_le (by omega)] at h
      dsimp only at h
      split at h
      · rename_i htype
        obtain ⟨hmessage, hother⟩ := ih h
        refine ⟨fun hm => .null hin htype (hmessage hm), fun hm endPos hrest => ?_⟩
        exact .null hin htype (hother hm endPos hrest)
      rename_i hnull
      split at h
      · cases h
      rename_i hterm
      split at h
      · cases h
      rename_i hheader
      split at h
      · cases h
      rename_i valueLen valuePos hlength
      split at h
      · cases h
      rename_i hfits
      rw [u16_of_le (by omega)] at h
      obtain ⟨rfl, rfl⟩ := (NextTlv.mk.injEq ..).mp h |>.2
      refine ⟨fun hm => ?_, fun hm endPos hrest => ?_⟩
      · exact .message (Nat.lt_of_not_le hheader) hm hlength (Nat.le_of_not_lt hfits)
      · exact .other (Nat.lt_of_not_le hheader) hnull hterm hm hlength (Nat.le_of_not_lt hfits) hrest

theorem messageEnd_of_find (hdata : data.length ≤ 0xFFFF) {fuel pos : Nat} {seen tlv : NdefTlv}
    (h : findMessageTlvFrom data fuel seen pos = (.ok, tlv)) :
    MessageEnd data pos (tlv.valueOffset + tlv.valueLen) := by
  induction fuel generalizing seen pos with
  | zero => cases h
  | succ fuel ih =>
      rw [findMessageTlvFrom] at h
      split at h
      swap
      · cases h
      rename_i hin
      dsimp only at h
      generalize hnext : tlvNext data pos = found at h
      rw [tlvNext, if_neg (by omega)] at hnext
      split at h
      · rename_i hstatus
        exact absurd (congrArg Prod.fst h) hstatus
      rename_i hstatus
      obtain ⟨status, seen', next⟩ := found
      cases not_not.mp hstatus
      obtain ⟨hmessage, hother⟩ := messageEnd_of_next hdata hnext
      dsimp only at h
      split at h
      · rename_i htype
        cases h
        exact hmessage htype
      · rename_i htype
        exact hother htype _ (ih h)

/-! ### What the estimate covers -/

theorem u8At_of_part (h : data <+: memory) {i : Nat} (hi : i < data.length) : u8At data i = u8At memory i := by
  obtain ⟨rest, rfl⟩ := h
  rw [u8At, u8At, List.getD_eq_getElem?_getD, List.getD_eq_getElem?_getD, List.getElem?_append_left hi]

theorem tlvLength_of_part (h : data <+: memory) {pos : Nat} {field : Nat × Nat} (hpos : pos < data.length)
    (hfield : tlvLength data pos = some field) : tlvLength memory pos = some field := by
  rw [tlvLength, u8At_of_part h hpos] at hfield
  rw [tlvLength]
  split at hfield
  · rename_i hlong
    rw [if_pos hlong]
    split at hfield
    · rename_i hspan
      have hfits : pos + 3 ≤ data.length := of_decide_eq_true hspan
      have hroom : spanOk pos tlvExtendedLenFieldBytes memory.length = true :=
        decide_eq_true (Nat.le_trans hfits h.length_le)
      rw [u8At_of_part h (by omega), u8At_of_part h (by omega)] at hfield
      rw [if_pos hroom]
      exact hfield
    · cases hfield
  · rename_i hshort
    rw [if_neg hshort]
    exact hfield

/-- The pages of a tag's memory that the reader may dump, from the capability container on. -/
def dumpable (memory : Frame) (maxPage : Nat) : Frame :=
  memory.take (min (t2tPageSizeBytes * (maxPage + 1 - type2CcPage)) type2TagDumpMax)

theorem dumpable_length_le (memory : Frame) (maxPage : Nat) :
    (dumpable memory maxPage).length ≤ 4 * (maxPage - 2) ∧ (dumpable memory maxPage).length ≤ 912 := by
  rw [dumpable, List.length_take, t2tPageSizeBytes, type2CcPage, type2TagDumpMax]
  omega

/-- Two prefixes of one memory have the same bytes and the same TLV headers where both reach. -/
theorem u8At_of_parts {first second : Frame} (hfirst : first <+: memory) (hsecond : second <+: memory) {i : Nat}
    (hi : i < first.length) (hj : i < second.length) : u8At first i = u8At second i := by
  rw [u8At_of_part hfirst hi, u8At_of_part hsecond hj]

theorem tlvLength_of_parts {first second : Frame} (hfirst : first <+: memory) (hsecond : second <+: memory) {i : Nat}
    (hi : i < first.length) (hj : i < second.length) {field field' : Nat × Nat} (h : tlvLength first i = some field)
    (h' : tlvLength second i = some field') : field = field' := by
  have hmemory := tlvLength_of_part hfirst hi h
  rw [tlvLength_of_part hsecond hj h'] at hmemory
  exact (Option.some.inj hmemory).symm

/-- A round of the estimate that comes to a result above zero has read the byte it stands at. -/
theorem neededPages_inside {fuel pos pages : Nat} (h : type2NeededPagesFrom data maxPage fuel pos = some pages)
    (hpages : 0 < pages) : pos < data.length := by
  by_contra hout
  cases fuel with
  | zero => cases h
  | succ fuel =>
      rw [type2NeededPagesFrom, if_neg hout] at h
      cases h
      exact Nat.lt_irrefl 0 hpages

/-- Behind a byte that is no null and no terminator, such a round has read a whole header. -/
theorem neededPages_header (hdata : data.length ≤ 0xFFFF) {fuel pos pages : Nat}
    (h : type2NeededPagesFrom data maxPage (fuel + 1) pos = some pages) (hpages : 0 < pages)
    (hnull : u8At data pos ≠ tlvNull) (hterm : u8At data pos ≠ tlvTerminator) :
    pos + 1 < data.length ∧ ∃ valueLen valuePos, tlvLength data (pos + 1) = some (valueLen, valuePos) ∧
      (if u8At data pos ≠ tlvMessage then type2NeededPagesFrom data maxPage fuel (u16 (valuePos + valueLen))
        else some (min ((min (valuePos + valueLen) type2TagDumpMax + t2tPageSizeBytes - 1) / t2tPageSizeBytes)
          (type2PagesUpTo maxPage))) = some pages := by
  have hin := neededPages_inside h hpages
  rw [type2NeededPagesFrom, if_pos hin, u16_of_le (by omega)] at h
  dsimp only at h
  rw [if_neg hnull, if_neg hterm] at h
  split at h
  · cases h
    exact absurd hpages (Nat.lt_irrefl 0)
  rename_i hheader
  cases hlength : tlvLength data (pos + 1) with
  | none =>
      rw [hlength] at h
      cases h
      exact absurd hpages (Nat.lt_irrefl 0)
  | some field =>
      rw [hlength] at h
      exact ⟨Nat.lt_of_not_le hheader, field.1, field.2, rfl, h⟩

/-- A walk over the same bytes covers the message. -/
theorem covers_messageEnd (hpart : data <+: memory) (hdata : data.length ≤ 0xFFFF) (hmax : maxPage ≤ 0xFFFF)
    {pos endPos : Nat} (h : MessageEnd (dumpable memory maxPage) pos endPos) {fuel pages : Nat}
    (hwalk : type2NeededPagesFrom data maxPage fuel pos = some pages) (hpages : 0 < pages) :
    endPos ≤ t2tPageSizeBytes * pages := by
  obtain ⟨hroom, hcap⟩ := dumpable_length_le memory maxPage
  have hdump : dumpable memory maxPage <+: memory := List.take_prefix _ _
  induction h generalizing fuel with
  | @null pos endPos hin htype _ ih =>
      have hread := neededPages_inside hwalk hpages
      cases fuel with
      | zero => cases hwalk
      | succ fuel =>
          rw [type2NeededPagesFrom, if_pos hread, u16_of_le (by omega), u8At_of_parts hpart hdump hread hin,
            if_pos htype] at hwalk
          exact ih hwalk
  | @other pos valueLen valuePos endPos hheader hnull hterm hother hlength hfits _ ih =>
      have hread := neededPages_inside hwalk hpages
      have hbyte := u8At_of_parts hpart hdump hread (show pos < _ by omega)
      cases fuel with
      | zero => cases hwalk
      | succ fuel =>
          obtain ⟨hreadHeader, valueLen', valuePos', hlength', hgo⟩ :=
            neededPages_header hdata hwalk hpages (by rwa [hbyte]) (by rwa [hbyte])
          cases tlvLength_of_parts hpart hdump hreadHeader hheader hlength' hlength
          rw [hbyte, if_pos hother, u16_of_le (by omega)] at hgo
          exact ih hgo
  | @message pos valueLen valuePos hheader htype hlength hfits =>
      have hread := neededPages_inside hwalk hpages
      have hbyte := u8At_of_parts hpart hdump hread (show pos < _ by omega)
      cases fuel with
      | zero => cases hwalk
      | succ fuel =>
          have hnotNull : u8At data pos ≠ tlvNull := by
            rw [hbyte, htype]
            decide
          have hnotTerm : u8At data pos ≠ tlvTerminator := by
            rw [hbyte, htype]
            decide
          obtain ⟨hreadHeader, valueLen', valuePos', hlength', hstop⟩ :=
            neededPages_header hdata hwalk hpages hnotNull hnotTerm
          cases tlvLength_of_parts hpart hdump hreadHeader hheader hlength' hlength
          rw [hbyte, if_neg (not_not.mpr htype), type2PagesUpTo_eq (by rw [type2CcPage]; omega) hmax, t2tPageSizeBytes,
            type2TagDumpMax, type2CcPage] at hstop
          have hpageCount := Option.some.inj hstop
          rw [t2tPageSizeBytes]
          omega

/-! ### The estimate -/

/-- The estimate returns; and a count above zero, made from the first bytes of a memory, covers the message that the
search finds in the part of the memory the reader may dump. -/
structure Estimates (data : Frame) (maxPage : Nat) : Prop where
  returns : ∃ pages, type2NeededPages data maxPage = some pages
  covers : ∀ pages memory tlv, type2NeededPages data maxPage = some pages → 0 < pages → data <+: memory →
    findMessageTlv (dumpable memory maxPage) type2CcPrefixBytes = (.ok, tlv) →
    tlv.valueOffset + tlv.valueLen ≤ t2tPageSizeBytes * pages

theorem covers_message (hdata : data.length ≤ 0xFFFF) (hmax : maxPage ≤ 0xFFFF) {pages : Nat} {tlv : NdefTlv}
    (h : type2NeededPages data maxPage = some pages) (hpages : 0 < pages) (hpart : data <+: memory)
    (hfind : findMessageTlv (dumpable memory maxPage) type2CcPrefixBytes = (.ok, tlv)) :
    tlv.valueOffset + tlv.valueLen ≤ t2tPageSizeBytes * pages := by
  have hcap := (dumpable_length_le memory maxPage).2
  rw [findMessageTlv] at hfind
  split at hfind
  · cases hfind
  rw [type2NeededPages] at h
  split at h
  · cases h
    exact absurd hpages (Nat.lt_irrefl 0)
  · exact covers_messageEnd hpart hdata hmax (messageEnd_of_find (by omega) hfind) h hpages

/-- A walk that comes to an end does its work. -/
theorem estimates_of_not_circles (hdata : data.length ≤ 0xFFFF) (hmax : maxPage ≤ 0xFFFF)
    (h : type2CcPrefixBytes < data.length → u8At data 0 = forumCcMagic →
      ¬Circles (TlvBehind data) type2CcPrefixBytes) : Estimates data maxPage := by
  refine ⟨?_, fun pages memory tlv hp hpos hpart hfind => covers_message hdata hmax hp hpos hpart hfind⟩
  rw [type2NeededPages]
  split
  · exact ⟨0, rfl⟩
  · rename_i hguard
    obtain ⟨hlong, hmagic⟩ := not_or.mp hguard
    exact type2NeededPagesFrom_iff.mpr (h (Nat.lt_of_not_le hlong) (not_not.mp hmagic))

/-- So does every walk whose TLVs all end below 10000h. -/
theorem estimates_of_not_wraps (hdata : data.length ≤ 0xFFFF) (hmax : maxPage ≤ 0xFFFF)
    (h : ∀ pos, ReflTransGen (TlvBehind data) type2CcPrefixBytes pos → ¬Wraps data pos) : Estimates data maxPage := by
  refine estimates_of_not_circles hdata hmax fun _ _ hcircles => ?_
  obtain ⟨pos, hreach, hwraps⟩ := circles_wraps hdata hcircles
  exact h pos hreach hwraps

/-- **The page estimate.** It does its work on the buffers whose TLVs do not lead its walk round in a circle. -/
theorem estimates_iff (hdata : data.length ≤ 0xFFFF) (hmax : maxPage ≤ 0xFFFF) : Estimates data maxPage ↔
    (type2CcPrefixBytes < data.length → u8At data 0 = forumCcMagic →
      ¬Circles (TlvBehind data) type2CcPrefixBytes) := by
  refine ⟨?_, estimates_of_not_circles hdata hmax⟩
  rintro ⟨⟨pages, hreturns⟩, -⟩ hlong hmagic
  rw [type2NeededPages, if_neg (not_or.mpr ⟨Nat.not_le_of_lt hlong, not_not.mpr hmagic⟩)] at hreturns
  exact type2NeededPagesFrom_iff.mp ⟨pages, hreturns⟩

theorem estimates_messageFirst :
    Estimates [0xE1, 0x10, 0x06, 0x00, 0x03, 0x1B, 0xD1, 0x01, 0x17, 0x55, 0x04, 0x61, 0x62, 0x63, 0x64, 0x65] 15 := by
  refine (estimates_iff (by decide) (by decide)).mpr fun _ _ hcircles => ?_
  obtain ⟨pos, hreach, hcycle⟩ := hcircles
  have hstuck : ∀ next, ¬TlvBehind [0xE1, 0x10, 0x06, 0x00, 0x03, 0x1B, 0xD1, 0x01, 0x17, 0x55, 0x04, 0x61, 0x62, 0x63,
      0x64, 0x65] type2CcPrefixBytes next := by
    intro next hnext
    cases hnext with
    | null _ htype => exact absurd htype (by decide)
    | other _ _ _ hother => exact hother (by decide)
  rcases hreach.cases_head with rfl | ⟨next, hnext, -⟩
  · obtain ⟨next, hnext, -⟩ := TransGen.head'_iff.mp hcycle
    exact hstuck next hnext
  · exact hstuck next hnext

/-- The first READ of a tag whose first TLV is foreign and has the extended length FFFCh: the end of the TLV, in 16
bits, is its start. -/
def turningRead : Frame := [0xE1, 0x10, 0x06, 0x00, 0x01, 0xFF, 0xFF, 0xFC, 0, 0, 0, 0, 0, 0, 0, 0]

theorem turningRead_behind : TlvBehind turningRead type2CcPrefixBytes type2CcPrefixBytes :=
  have hend : u16 (8 + 0xFFFC) = type2CcPrefixBytes := rfl
  hend ▸ .other (by decide) (by decide) (by decide) (by decide) (by decide) rfl

theorem turningRead_stays :
    (∀ fuel, type2NeededPagesFrom turningRead 15 fuel type2CcPrefixBytes = none) ∧ ¬Estimates turningRead 15 := by
  have hcycle : TransGen (GoesOn (neededPagesRound turningRead 15)) type2CcPrefixBytes type2CcPrefixBytes := by
    rw [goesOn_eq]
    exact .single turningRead_behind
  have hnone : ∀ fuel, type2NeededPagesFrom turningRead 15 fuel type2CcPrefixBytes = none := by
    intro fuel
    rw [type2NeededPagesFrom_eq_run]
    exact FiniteLoop.run_of_cycle hcycle fuel
  refine ⟨hnone, ?_⟩
  rintro ⟨⟨pages, hreturns⟩, -⟩
  rw [type2NeededPages, if_neg (by decide), hnone] at hreturns
  cases hreturns

end NeroReader.Tags
