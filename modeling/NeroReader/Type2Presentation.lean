import NeroReader.TagReading

/-!
Which Type 2 tags the interactive reader presents in full. A tag is a memory with the commands it
supports; the message stands in its data area behind null bytes and foreign TLVs. The READ loop takes a
byte `0xFE` inside a TLV for the terminator, and the NTAG21x path has no further read when its single
FAST_READ is not made.
-/

namespace NeroReader.Tags

open Ndef Storage

/-- A tag that answers every READ, and FAST_READs if it supports them. -/
def Type2Tag.holding (memory : Nat → Byte) (family : Type2Family) (maxUserPage : Nat) (fast : Bool) : Type2Tag where
  family := family
  maxUserPage := maxUserPage
  read page := some (bytesAt memory (4 * page) t2tReadRespBytes)
  fastRead first last := if fast then some (bytesAt memory (4 * first) (4 * (last + 1 - first))) else none

section Type2

variable {memory : Nat → Byte} {family : Type2Family} {maxUserPage maxPage : Nat} {fast : Bool}

theorem ntagFastReadFrom_holding {first last : Nat} :
    ∀ fuel page, first ≤ page → page ≤ last + 1 → last + 1 ≤ fuel + page →
      ntagFastReadFrom (.holding memory family maxUserPage true) last fuel page
        (bytesAt memory (4 * first) (4 * (page - first))) =
        (bytesAt memory (4 * first) (4 * (last + 1 - first)), true) := by
  intro fuel
  induction fuel with
  | zero =>
      intro page _ hpage hfuel
      rw [ntagFastReadFrom, show page = last + 1 by omega]
  | succ fuel ih =>
      intro page hfirst hpage hfuel
      rw [ntagFastReadFrom]
      by_cases hdone : last < page
      · rw [if_pos hdone, show page = last + 1 by omega]
      rw [if_neg hdone]
      generalize hcount : min (last - page + 1) (fastReadRespBytesMax / t2tPageSizeBytes) = count
      have hpos : 0 < count ∧ count ≤ last - page + 1 := by
        simp only [fastReadRespBytesMax, t2tPageSizeBytes] at hcount
        omega
      have hanswer : (Type2Tag.holding memory family maxUserPage true).fastRead page (page + count - 1) =
          some (bytesAt memory (4 * page) (count * t2tPageSizeBytes)) := by
        show some (bytesAt memory (4 * page) (4 * (page + count - 1 + 1 - page))) = _
        rw [show 4 * (page + count - 1 + 1 - page) = count * t2tPageSizeBytes by
          rw [t2tPageSizeBytes]
          omega]
      have hcopied : bytesAt memory (4 * first) (4 * (page - first)) ++
          (bytesAt memory (4 * page) (count * t2tPageSizeBytes)).take (count * t2tPageSizeBytes) =
          bytesAt memory (4 * first) (4 * (page + count - first)) := by
        rw [List.take_of_length_le (bytesAt_length _ _ _).le,
          show 4 * page = 4 * first + 4 * (page - first) by omega, bytesAt_append]
        congr 1
        rw [t2tPageSizeBytes]
        omega
      simp only [hanswer, bytesAt_length, Nat.lt_irrefl, if_false, hcopied]
      exact ih (page + count) (by omega) (by omega) (by omega)

theorem ntagFastRead_supported {first last : Nat} (h : first ≤ last) :
    ntagFastRead (.holding memory family maxUserPage true) first last =
      (bytesAt memory (4 * first) (4 * (last + 1 - first)), true) := by
  rw [ntagFastRead, ← ntagFastReadFrom_holding (last - first + 1) first (Nat.le_refl first) (Nat.le_succ_of_le h)
    (by omega), Nat.sub_self, Nat.mul_zero, bytesAt_zero]

theorem ntagFastRead_unsupported {first last : Nat} (h : first ≤ last) :
    ntagFastRead (.holding memory family maxUserPage false) first last = ([], false) := by
  rw [ntagFastRead, ntagFastReadFrom, if_neg (Nat.not_lt.mpr h)]
  rfl

/-- The dump behind `k` READs of the loop. -/
def dumpLen (maxPage k : Nat) : Nat := min (16 * k) (4 * (maxPage - 2))

theorem copyPages_holding {count n : Nat} (hcount : count ≤ 4) (hroom : n + 4 * count ≤ type2TagDumpMax) :
    copyPages (bytesAt memory (12 + n) t2tReadRespBytes) count (bytesAt memory 12 n) =
      bytesAt memory 12 (n + 4 * count) := by
  rw [copyPages]
  induction count with
  | zero => rfl
  | succ count ih =>
      have hroom' : (bytesAt memory 12 (n + 4 * count)).length + t2tPageSizeBytes ≤ type2TagDumpMax := by
        rw [bytesAt_length, t2tPageSizeBytes]
        omega
      have hpage : ((bytesAt memory (12 + n) t2tReadRespBytes).drop (count * t2tPageSizeBytes)).takeD
          t2tPageSizeBytes 0 = bytesAt memory (12 + (n + 4 * count)) 4 := by
        rw [bytesAt_drop, List.takeD_eq_take _ (by
          rw [bytesAt_length, t2tReadRespBytes, t2tPageSizeBytes]
          omega), bytesAt_take _ _ (by
          rw [t2tReadRespBytes, t2tPageSizeBytes]
          omega), t2tPageSizeBytes, show 12 + n + count * 4 = 12 + (n + 4 * count) by omega]
      rw [List.range_succ, List.foldl_append, ih (by omega) (by omega), List.foldl_cons, List.foldl_nil,
        if_pos hroom', hpage, bytesAt_append]
      rfl

/-- One READ of the loop. -/
theorem readPagesFrom_succ {fuel k : Nat} (hpage : 3 + 4 * k ≤ maxPage) (hmax : maxPage ≤ ntag216LastPage) :
    readPagesFrom (.holding memory family maxUserPage fast) maxPage (fuel + 1) (3 + 4 * k)
        (bytesAt memory 12 (dumpLen maxPage k)) =
      if type2TlvComplete (bytesAt memory 12 (dumpLen maxPage (k + 1))) then
        bytesAt memory 12 (dumpLen maxPage (k + 1))
      else
        readPagesFrom (.holding memory family maxUserPage fast) maxPage fuel (3 + 4 * (k + 1))
          (bytesAt memory 12 (dumpLen maxPage (k + 1))) := by
  rw [ntag216LastPage] at hmax
  have hsize : dumpLen maxPage k = 16 * k := by
    rw [dumpLen]
    omega
  have hanswer : (Type2Tag.holding memory family maxUserPage fast).read (3 + 4 * k) =
      some (bytesAt memory (12 + dumpLen maxPage k) t2tReadRespBytes) := by
    show some (bytesAt memory (4 * (3 + 4 * k)) t2tReadRespBytes) = _
    rw [hsize, show 4 * (3 + 4 * k) = 12 + 16 * k by omega]
  rw [readPagesFrom, if_neg (Nat.not_lt.mpr hpage)]
  simp only [hanswer, bytesAt_length]
  rw [if_neg (by decide)]
  generalize hcount :
    (if maxPage < 3 + 4 * k + t2tReadRespPages - 1 then maxPage - (3 + 4 * k) + 1 else t2tReadRespPages) = count
  have hnext : count ≤ 4 ∧ dumpLen maxPage k + 4 * count = dumpLen maxPage (k + 1) := by
    rw [t2tReadRespPages] at hcount
    simp only [dumpLen]
    split at hcount <;> omega
  have hroom : dumpLen maxPage k + 4 * count ≤ type2TagDumpMax := by
    rw [hnext.2, dumpLen, type2TagDumpMax]
    omega
  rw [copyPages_holding hnext.1 hroom, hnext.2]
  rfl

variable (family maxUserPage fast) in
/-- The loop ends behind the first READ whose dump is complete. -/
theorem readPagesFrom_first {n : Nat} (hmax : maxPage ≤ ntag216LastPage) (hpages : 3 + 4 * (n - 1) ≤ maxPage)
    (hstop : type2TlvComplete (bytesAt memory 12 (dumpLen maxPage n)) = true) :
    ∀ fuel k, k < n → n ≤ fuel + k →
      (∀ j, k < j → j < n → ¬ type2TlvComplete (bytesAt memory 12 (dumpLen maxPage j)) = true) →
      readPagesFrom (.holding memory family maxUserPage fast) maxPage fuel (3 + 4 * k)
        (bytesAt memory 12 (dumpLen maxPage k)) = bytesAt memory 12 (dumpLen maxPage n) := by
  intro fuel
  induction fuel with
  | zero => omega
  | succ fuel ih =>
      intro k hk hfuel hbefore
      rw [readPagesFrom_succ (by omega) hmax]
      by_cases hlast : k + 1 = n
      · rw [hlast, if_pos hstop]
      · rw [if_neg (hbefore (k + 1) (by omega) (by omega))]
        exact ih (k + 1) (by omega) (by omega) fun j hj => hbefore j (by omega)

theorem type2TlvComplete_iff {limit n : Nat} {before field m : Frame} (hmagic : memory 12 = forumCcMagic)
    (h : Holds memory 16 limit before field m) (hn : n ≤ 0xFFFF) (hlong : 4 < n) :
    type2TlvComplete (bytesAt memory 12 n) = true ↔
      (before ++ (tlvMessage :: field ++ m)).length ≤ n - 4 ∨ tlvTerminator ∈ bytesAt memory 16 (n - 4) := by
  have hguard :
      ¬ ((bytesAt memory 12 n).length ≤ type2CcPrefixBytes ∨ u8At (bytesAt memory 12 n) 0 ≠ forumCcMagic) := by
    rw [bytesAt_length, u8At_bytesAt memory 12 (by omega), not_or, not_ne_iff]
    exact ⟨Nat.not_le.mpr hlong, hmagic⟩
  have hfinds := finds_iff 12 4 h hn (Nat.le_of_lt hlong)
  rw [type2TlvComplete, if_neg hguard, type2CcPrefixBytes, bytesAt_drop]
  by_cases hok : (findMessageTlv (bytesAt memory 12 n) 4).1 = .ok
  · rw [if_pos hok]
    exact iff_of_true rfl (Or.inl (hfinds.mp hok))
  · rw [if_neg hok, decide_eq_true_eq, ← hfinds]
    exact ⟨Or.inr, fun hor => hor.resolve_left hok⟩

/-- What the reader prints from a dump of a tag with a valid capability container. -/
theorem parseType2Tlv_head {limit n : Nat} {before field m : Frame} (hmagic : memory 12 = forumCcMagic)
    (h : Holds memory 16 limit before field m) (hn : n ≤ 0xFFFF) (hlong : 4 ≤ n) :
    (parseType2Tlv (bytesAt memory 12 n)).head? = some m ↔
      (before ++ (tlvMessage :: field ++ m)).length ≤ n - 4 := by
  have hguard :
      ¬ ((bytesAt memory 12 n).length < type2CcPrefixBytes ∨ u8At (bytesAt memory 12 n) 0 ≠ forumCcMagic) := by
    rw [bytesAt_length, u8At_bytesAt memory 12 (by omega), not_or, not_ne_iff]
    exact ⟨Nat.not_lt.mpr hlong, hmagic⟩
  rw [parseType2Tlv, if_neg hguard]
  exact presents_iff 12 4 h hn hlong

/-! ### One READ and one FAST_READ -/

theorem tlvLength_bytesAt {base len pos n : Nat} {field : Frame} (hfield : Tlv.LengthField field n)
    (hbytes : bytesAt memory (base + pos) field.length = field) (hlen : len ≤ 0xFFFF) (hpos : pos < len) :
    tlvLength (bytesAt memory base len) pos =
      if pos + field.length ≤ len then some (n, pos + field.length) else none := by
  rw [tlvLength, u8At_bytesAt memory base hpos]
  cases hfield with
  | @short length hshort =>
      have hfirst : memory (base + pos) = length := (bytesAt_eq_cons hbytes).1
      rw [hfirst, if_neg (show ¬ length = tlvExtendedLen from hshort), List.length_singleton,
        if_pos (show pos + 1 ≤ len from hpos), u16_of_le (by omega)]
  | long hi lo =>
      obtain ⟨hfirst, hrest⟩ := bytesAt_eq_cons hbytes
      obtain ⟨hhi, hrest⟩ := bytesAt_eq_cons hrest
      have hlo : memory (base + pos + 1 + 1) = lo := (bytesAt_eq_cons hrest).1
      rw [hfirst, if_pos (show Tlv.longForm = tlvExtendedLen from rfl)]
      show (if spanOk pos 3 (bytesAt memory base len).length = true then _ else _) = if pos + 3 ≤ len then _ else _
      rw [bytesAt_length]
      by_cases hspan : pos + 3 ≤ len
      · rw [if_pos (show spanOk pos 3 len = true from decide_eq_true hspan), if_pos hspan,
          u8At_bytesAt memory base (show pos + 1 < len by omega),
          u8At_bytesAt memory base (show pos + 2 < len by omega),
          show memory (base + (pos + 1)) = hi from hhi, show memory (base + (pos + 2)) = lo from hlo,
          Storage.bigEndian_toNat, tlvExtendedLenFieldBytes, u16_of_le (by omega)]
        rfl
      · rw [if_neg (show ¬ spanOk pos 3 len = true by
          rw [spanOk, decide_eq_true_eq]
          exact hspan), if_neg hspan]

/-- The page count that the first READ leads to, for a message whose header ends at `headerEnd`: it covers
the message when the header is among the bytes of that READ, and is zero when it is not. -/
theorem type2NeededPagesFrom_message {before field m : Frame} {headerEnd : Nat}
    (hforeign : Tlv.Foreign tlvMessage before) (hfield : Tlv.LengthField field m.length)
    (hfits : headerEnd + m.length ≤ type2TagDumpMax) :
    ∀ fuel pos, before.length < fuel →
      bytesAt memory (12 + pos) (before ++ (tlvMessage :: field ++ m)).length = before ++ (tlvMessage :: field ++ m) →
      headerEnd = pos + (before.length + 1 + field.length) →
      type2NeededPagesFrom (bytesAt memory 12 t2tReadRespBytes) maxPage fuel pos =
        some (if headerEnd ≤ t2tReadRespBytes then
          min ((headerEnd + m.length + t2tPageSizeBytes - 1) / t2tPageSizeBytes) (type2PagesUpTo maxPage) else 0) := by
  have hcap : type2TagDumpMax = 912 := rfl
  have hnonempty := hfield.length_pos
  induction hforeign with
  | nil =>
      intro fuel pos hfuel hbytes hend
      obtain ⟨fuel, rfl⟩ := Nat.exists_eq_succ_of_ne_zero (Nat.ne_of_gt hfuel)
      obtain ⟨htype, hbehind⟩ := bytesAt_eq_cons hbytes
      have hbytesField := (bytesAt_eq_append hbehind).1
      rw [List.length_nil] at hend
      rw [type2NeededPagesFrom, bytesAt_length]
      by_cases hin : pos < t2tReadRespBytes
      swap
      · rw [if_neg hin, if_neg (by omega)]
      rw [if_pos hin, u16_of_le (by omega), u8At_bytesAt memory 12 hin, htype, if_neg (by decide), if_neg (by decide)]
      by_cases hlast : t2tReadRespBytes ≤ pos + 1
      · rw [if_pos hlast, if_neg (by omega)]
      have hlength : tlvLength (bytesAt memory 12 t2tReadRespBytes) (pos + 1) =
          if pos + 1 + field.length ≤ t2tReadRespBytes then some (m.length, pos + 1 + field.length) else none :=
        tlvLength_bytesAt hfield hbytesField (by decide) (Nat.lt_of_not_le hlast)
      rw [if_neg hlast, hlength, show pos + 1 + field.length = headerEnd by omega]
      by_cases hheader : headerEnd ≤ t2tReadRespBytes
      · rw [if_pos hheader, if_pos hheader]
        simp only [ne_eq, not_true_eq_false, if_false, Nat.min_eq_left hfits]
      · rw [if_neg hheader, if_neg hheader]
  | @null stream _ ih =>
      intro fuel pos hfuel hbytes hend
      obtain ⟨fuel, rfl⟩ := Nat.exists_eq_succ_of_ne_zero (Nat.ne_of_gt (Nat.zero_lt_of_lt hfuel))
      obtain ⟨htype, hbehind⟩ := bytesAt_eq_cons hbytes
      rw [List.length_cons] at hfuel hend
      rw [type2NeededPagesFrom, bytesAt_length]
      by_cases hin : pos < t2tReadRespBytes
      swap
      · rw [if_neg hin, if_neg (by omega)]
      rw [if_pos hin, u16_of_le (by omega), u8At_bytesAt memory 12 hin, htype, if_pos (by rfl)]
      exact ih fuel (pos + 1) (by omega) hbehind (by omega)
  | @block type own content stream hnull hterm hwanted hown _ ih =>
      intro fuel pos hfuel hbytes hend
      obtain ⟨fuel, rfl⟩ := Nat.exists_eq_succ_of_ne_zero (Nat.ne_of_gt (Nat.zero_lt_of_lt hfuel))
      rw [List.cons_append, List.cons_append, List.cons_append] at hbytes
      obtain ⟨htype, hbehind⟩ := bytesAt_eq_cons hbytes
      rw [List.append_assoc, List.append_assoc] at hbehind
      obtain ⟨hbytesField, hbehind⟩ := bytesAt_eq_append hbehind
      have hrest := (bytesAt_eq_append hbehind).2
      simp only [List.cons_append, List.length_cons, List.length_append] at hfuel hend
      rw [type2NeededPagesFrom, bytesAt_length]
      by_cases hin : pos < t2tReadRespBytes
      swap
      · rw [if_neg hin, if_neg (by omega)]
      rw [if_pos hin, u16_of_le (by omega), u8At_bytesAt memory 12 hin, htype,
        if_neg (show ¬ type = tlvNull from hnull), if_neg (show ¬ type = tlvTerminator from hterm)]
      by_cases hlast : t2tReadRespBytes ≤ pos + 1
      · rw [if_pos hlast, if_neg (by omega)]
      have hlength : tlvLength (bytesAt memory 12 t2tReadRespBytes) (pos + 1) =
          if pos + 1 + own.length ≤ t2tReadRespBytes then some (content.length, pos + 1 + own.length) else none :=
        tlvLength_bytesAt hown hbytesField (by decide) (Nat.lt_of_not_le hlast)
      rw [if_neg hlast, hlength]
      by_cases hheader : pos + 1 + own.length ≤ t2tReadRespBytes
      swap
      · rw [if_neg hheader, if_neg (by omega)]
      rw [if_pos hheader]
      simp only [ne_eq, hwanted, not_false_eq_true, if_true]
      rw [u16_of_le (by omega)]
      exact ih fuel (pos + 1 + own.length + content.length) (by omega)
        (by
          rwa [show 12 + (pos + 1 + own.length + content.length) = 12 + pos + 1 + own.length + content.length by omega])
        (by omega)

variable (family maxUserPage maxPage fast) in
/-- The dump of the NTAG21x path. -/
theorem ntagFirstDump_holding {limit : Nat} {before field m : Frame} (hmagic : memory 12 = forumCcMagic)
    (h : Holds memory 16 limit before field m) (hmax : 3 ≤ maxPage) (hword : maxPage ≤ 0xFFFF)
    (hpages : 4 + (before ++ (tlvMessage :: field ++ m)).length ≤ 4 * (maxPage - 2))
    (hroom : 4 + (before ++ (tlvMessage :: field ++ m)).length ≤ 908) :
    ∃ n, ntagFirstDump (.holding memory family maxUserPage fast) maxPage = some (bytesAt memory 12 n) ∧
      16 ≤ n ∧ n ≤ type2TagDumpMax ∧
      ((before ++ (tlvMessage :: field ++ m)).length ≤ n - 4 ↔
        (before ++ (tlvMessage :: field ++ m)).length ≤ 12 ∨
          fast = true ∧ (before ++ tlvMessage :: field).length ≤ 12) := by
  have hcap : type2TagDumpMax = 912 := rfl
  have hpageSize : t2tPageSizeBytes = 4 := rfl
  have hlengths : (before ++ (tlvMessage :: field ++ m)).length =
      (before ++ tlvMessage :: field).length + m.length := by
    simp only [List.length_append, List.length_cons]
    omega
  have hheader : (before ++ tlvMessage :: field).length = before.length + 1 + field.length := by
    simp only [List.length_append, List.length_cons]
    omega
  have hread : (Type2Tag.holding memory family maxUserPage fast).read type2CcPage =
      some (bytesAt memory 12 t2tReadRespBytes) := rfl
  have hneeded : type2NeededPages (bytesAt memory 12 t2tReadRespBytes) maxPage =
      some (if 4 + (before ++ tlvMessage :: field).length ≤ t2tReadRespBytes then
        min ((4 + (before ++ tlvMessage :: field).length + m.length + t2tPageSizeBytes - 1) / t2tPageSizeBytes)
          (type2PagesUpTo maxPage) else 0) := by
    have hguard : ¬ ((bytesAt memory 12 t2tReadRespBytes).length ≤ type2CcPrefixBytes ∨
        u8At (bytesAt memory 12 t2tReadRespBytes) 0 ≠ forumCcMagic) := by
      rw [bytesAt_length, u8At_bytesAt memory 12 (by decide), not_or, not_ne_iff]
      exact ⟨by decide, hmagic⟩
    rw [type2NeededPages, if_neg hguard]
    exact type2NeededPagesFrom_message h.foreign h.lengthField (by omega) _ _ (by omega) h.bytes
      (by rw [hheader, type2CcPrefixBytes])
  unfold ntagFirstDump
  simp only [hread, bytesAt_length, Nat.lt_irrefl, if_false, List.take_of_length_le (bytesAt_length _ _ _).le, hneeded,
    Option.map_some]
  generalize hpagesEq : (if 4 + (before ++ tlvMessage :: field).length ≤ t2tReadRespBytes then
        min ((4 + (before ++ tlvMessage :: field).length + m.length + t2tPageSizeBytes - 1) / t2tPageSizeBytes)
          (type2PagesUpTo maxPage) else 0) = pages
  have hpagesCases : pages = (if (before ++ tlvMessage :: field).length ≤ 12 then
      (4 + (before ++ (tlvMessage :: field ++ m)).length + 3) / 4 else 0) := by
    rw [← hpagesEq, hpageSize, type2PagesUpTo_eq hmax hword, type2CcPage, t2tReadRespBytes]
    by_cases hin : (before ++ tlvMessage :: field).length ≤ 12
    · rw [if_pos hin, if_pos (by omega), Nat.min_eq_left (by omega), hlengths]
      congr 1
      omega
    · rw [if_neg hin, if_neg (by omega)]
  clear hpagesEq
  by_cases hmore : t2tReadRespPages < pages ∧ pages * t2tPageSizeBytes ≤ type2TagDumpMax
  · have hin : (before ++ tlvMessage :: field).length ≤ 12 := by
      by_contra hout
      rw [if_neg hout] at hpagesCases
      omega
    rw [if_pos hin] at hpagesCases
    rw [if_pos hmore]
    have hfour : 4 < pages := hmore.1
    cases fast with
    | true =>
        refine ⟨pages * 4, ?_, by omega, by omega, ?_⟩
        · rw [ntagFastRead_supported (by rw [type2CcPage]; omega), if_pos (by rfl), type2CcPage,
            show 4 * (3 + pages - 1 + 1 - 3) = pages * 4 by omega]
        · exact iff_of_true (by omega) (Or.inr ⟨rfl, hin⟩)
    | false =>
        refine ⟨16, ?_, by omega, by omega, ?_⟩
        · rw [ntagFastRead_unsupported (by rw [type2CcPage]; omega), if_neg (by decide)]
          rw [show storeAt (bytesAt memory 12 t2tReadRespBytes) 0 [] = bytesAt memory 12 t2tReadRespBytes by
            simp [storeAt]]
          exact congrArg some (List.take_of_length_le (bytesAt_length _ _ _).le)
        · simp
  · rw [if_neg hmore]
    refine ⟨16, rfl, by omega, by omega, ?_⟩
    have hshort : (before ++ tlvMessage :: field).length ≤ 12 → (before ++ (tlvMessage :: field ++ m)).length ≤ 12 := by
      intro hin
      rw [if_pos hin] at hpagesCases
      by_contra hlong
      refine hmore ⟨?_, ?_⟩
      · rw [t2tReadRespPages]
        omega
      · rw [hpageSize]
        omega
    constructor
    · exact Or.inl
    · rintro (hcovers | ⟨-, hin⟩)
      · exact hcovers
      · exact hshort hin

/-! ### Whole Type 2 reads -/

/-- How much of the data area the reader's page and buffer limits leave to it. -/
def type2ReadLimit (tag : Type2Tag) : Nat :=
  min (getType2Info tag).dataAreaSizeBytes.toNat
    (min (t2tPageSizeBytes * (type2MaxReadPage (getType2Info tag) tag.maxUserPage - type2CcPage))
      (type2TagDumpMax - type2CcPrefixBytes))

variable (family maxUserPage fast) in
theorem getType2Info_holding (h : Type2Readable memory) :
    ∃ write, getType2Info (.holding memory family maxUserPage fast) =
      ⟨true, true, write, (memory 14).zeroExtend 16 * 8⟩ := by
  obtain ⟨write, hinfo⟩ := type2ApplyCc_readable h
  refine ⟨write, ?_⟩
  show type2ApplyCc ((bytesAt memory (4 * type2CcPage) t2tReadRespBytes).take t2tPageSizeBytes) = _
  rw [show (bytesAt memory (4 * type2CcPage) t2tReadRespBytes).take t2tPageSizeBytes = bytesAt memory 12 4 from
    bytesAt_take memory 12 (by decide), hinfo]

variable (family maxUserPage fast) in
theorem type2MaxReadPage_holding (h : Type2Readable memory) :
    type2MaxReadPage (getType2Info (.holding memory family maxUserPage fast)) maxUserPage =
      min (3 + 2 * (memory 14).toNat) ntag216LastPage := by
  obtain ⟨write, hinfo⟩ := getType2Info_holding family maxUserPage fast h
  have hb := (memory 14).isLt
  rw [hinfo, type2MaxReadPage, if_pos ⟨rfl, dataAreaSize_ne_zero h.size⟩, dataAreaSize_toNat, type2CcPage,
    t2tPageSizeBytes, u16_of_le (by omega)]
  show (if ntag216LastPage < _ then ntag216LastPage else _) = _
  split <;> omega

variable (family maxUserPage fast) in
theorem type2ReadLimit_holding (h : Type2Readable memory) :
    type2ReadLimit (.holding memory family maxUserPage fast) = min (8 * (memory 14).toNat) 888 := by
  obtain ⟨write, hinfo⟩ := getType2Info_holding family maxUserPage fast h
  have hpage := type2MaxReadPage_holding family maxUserPage fast h
  show min _ (min (4 * (type2MaxReadPage (getType2Info _) maxUserPage - 3)) (912 - 4)) = _
  rw [hpage, hinfo, dataAreaSize_toNat, ntag216LastPage]
  omega

variable (family maxUserPage maxPage fast) in
/-- The READ loop presents the message unless a byte `0xFE` comes with a READ before the last one needed. -/
theorem readPages_presents_iff {limit : Nat} {before field m : Frame} (hmagic : memory 12 = forumCcMagic)
    (h : Holds memory 16 limit before field m) (hmin : 5 ≤ maxPage) (hmax : maxPage ≤ ntag216LastPage)
    (hpages : 4 + (before ++ (tlvMessage :: field ++ m)).length ≤ 4 * (maxPage - 2)) :
    ∃ n, readPagesFrom (.holding memory family maxUserPage fast) maxPage (maxPage + 1) type2CcPage [] =
        bytesAt memory 12 n ∧ 8 ≤ n ∧ n ≤ 0xFFFF ∧
      ((before ++ (tlvMessage :: field ++ m)).length ≤ n - 4 ↔
        tlvTerminator ∉ bytesAt memory 16 (16 * (((before ++ (tlvMessage :: field ++ m)).length + 3) / 16) - 4)) := by
  have hnonempty : 0 < (before ++ (tlvMessage :: field ++ m)).length := by
    simp only [List.length_append, List.length_cons]
    omega
  generalize hstop : (before ++ (tlvMessage :: field ++ m)).length = stop at *
  have hlast : ntag216LastPage = 225 := rfl
  have hcomplete : ∀ k, 0 < k → (type2TlvComplete (bytesAt memory 12 (dumpLen maxPage k)) = true ↔
      stop ≤ dumpLen maxPage k - 4 ∨ tlvTerminator ∈ bytesAt memory 16 (dumpLen maxPage k - 4)) := by
    intro k hk
    rw [← hstop]
    refine type2TlvComplete_iff hmagic h ?_ ?_
    · rw [dumpLen]
      omega
    · rw [dumpLen]
      omega
  have hneed : stop ≤ dumpLen maxPage ((stop + 3) / 16 + 1) - 4 := by
    rw [dumpLen]
    omega
  have hends := (hcomplete ((stop + 3) / 16 + 1) (Nat.succ_pos _)).mpr (Or.inl hneed)
  obtain ⟨n, hpos, hle, hfirst, hbefore⟩ :=
    exists_first (P := fun k => type2TlvComplete (bytesAt memory 12 (dumpLen maxPage k)) = true) (Nat.succ_pos _) hends
  have hrun := readPagesFrom_first family maxUserPage fast hmax (by omega) hfirst
    (maxPage + 1) 0 hpos (by omega) fun j hj hjn => hbefore j hj hjn
  refine ⟨dumpLen maxPage n, hrun, by rw [dumpLen]; omega, by rw [dumpLen]; omega, ?_⟩
  have hmono : Monotone fun k => dumpLen maxPage k - 4 := by
    intro i j hij
    simp only [dumpLen]
    omega
  have hprior : dumpLen maxPage ((stop + 3) / 16) - 4 = 16 * ((stop + 3) / 16) - 4 := by
    rw [dumpLen]
    omega
  rw [← hprior]
  exact first_stop_covers_iff (fun k => dumpLen maxPage k - 4) hmono (by rw [dumpLen]; rfl) hcomplete hneed
    hpos hfirst hbefore (by
      rw [hprior]
      omega)

/-- **When a Type 2 read presents the message.** -/
theorem readNtagTag_presents_iff {before field m : Frame} (hopen : Type2Readable memory)
    (h : Holds memory 16 (type2ReadLimit (.holding memory family maxUserPage fast)) before field m) :
    (readNtagTag (.holding memory family maxUserPage fast)).bind List.head? = some m ↔
      if family = .ntag21x then
        (before ++ (tlvMessage :: field ++ m)).length ≤ 12 ∨
          fast = true ∧ (before ++ tlvMessage :: field).length ≤ 12
      else tlvTerminator ∉
        bytesAt memory 16 (16 * (((before ++ (tlvMessage :: field ++ m)).length + 3) / 16) - 4) := by
  have hfits := h.fits
  rw [type2ReadLimit_holding family maxUserPage fast hopen] at hfits
  obtain ⟨write, hinfo⟩ := getType2Info_holding family maxUserPage fast hopen
  have hpage := type2MaxReadPage_holding family maxUserPage fast hopen
  have hsize : (memory 14).toNat ≠ 0 := fun hzero => hopen.size (BitVec.eq_of_toNat_eq hzero)
  generalize hmaxPage : min (3 + 2 * (memory 14).toNat) ntag216LastPage = maxPage at hpage
  rw [ntag216LastPage] at hmaxPage
  have hdump : ∀ {n : Nat}, 8 ≤ n →
      (if t2tMinNdefDumpBytes ≤ (bytesAt memory 12 n).length then parseType2Tlv (bytesAt memory 12 n) else []) =
        parseType2Tlv (bytesAt memory 12 n) := by
    intro n hn
    rw [bytesAt_length, if_pos (show t2tMinNdefDumpBytes ≤ n from hn)]
  have hread : readNtagTag (.holding memory family maxUserPage fast) =
      (if family = .ntag21x then ntagFirstDump (.holding memory family maxUserPage fast) maxPage else some []).map
        fun first =>
          let dump := if first.length = 0 then
            readPagesFrom (.holding memory family maxUserPage fast) maxPage (maxPage + 1) type2CcPage [] else first
          if t2tMinNdefDumpBytes ≤ dump.length then parseType2Tlv dump else [] := by
    have hguard : (family = .ntag21x ∧ maxPage ≤ 255) ↔ family = .ntag21x := and_iff_left (by omega)
    rw [readNtagTag]
    simp only [hpage, show (Type2Tag.holding memory family maxUserPage fast).maxUserPage = maxUserPage from rfl,
      show (Type2Tag.holding memory family maxUserPage fast).family = family from rfl, hguard]
    rw [hinfo]
    simp only [Bool.true_eq_false, false_or, dataAreaSize_ne_zero hopen.size, if_false]
  rw [hread]
  by_cases hfamily : family = .ntag21x
  · rw [if_pos hfamily, if_pos hfamily]
    obtain ⟨n, hfirst, hlow, hhigh, hiff⟩ :=
      ntagFirstDump_holding family maxUserPage maxPage fast hopen.magic h (by omega) (by omega) (by omega)
      (by omega)
    rw [type2TagDumpMax] at hhigh
    rw [← hiff, ← parseType2Tlv_head hopen.magic h (by omega) (by omega), hfirst]
    have hne : ¬ (bytesAt memory 12 n).length = 0 := by
      rw [bytesAt_length]
      omega
    simp only [Option.map_some, Option.bind_some, hne, if_false]
    rw [hdump (by omega)]
  · rw [if_neg hfamily, if_neg hfamily]
    obtain ⟨n, hloop, hlow, hhigh, hiff⟩ :=
      readPages_presents_iff family maxUserPage maxPage fast hopen.magic h (by omega)
        (by rw [ntag216LastPage]; omega) (by omega)
    rw [← hiff, ← parseType2Tlv_head hopen.magic h hhigh (by omega)]
    simp only [Option.map_some, List.length_nil, if_true, hloop, Option.bind_some]
    rw [hdump hlow]

end Type2

end NeroReader.Tags
