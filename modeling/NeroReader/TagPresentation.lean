import NeroReader.Type2Presentation

/-!
Which Type 5 tags the interactive reader presents in full, and both readers together. The Type 5 reader
fills its buffer from block 0 in chunks of 31 blocks, and takes a byte `0xFE` in a chunk for the
terminator as the Type 2 loop does.
-/

namespace NeroReader.Tags

open Ndef Storage

/-- A tag that answers every read of one block, and of several if it supports that. -/
def Type5Tag.holding (memory : Nat → Byte) (multiple : Bool) : Type5Tag where
  readBlock block := some (bytesAt memory (4 * block) t5UserBlockSize)
  readMultiple block count := if multiple then some (bytesAt memory (4 * block) (4 * count)) else none

section Type5

variable {memory : Nat → Byte} {multiple : Bool}

theorem type5ReadBinaryFrom_holding {first blocks : Nat} :
    ∀ fuel disabled k, k ≤ blocks → blocks ≤ fuel + k →
      (type5ReadBinaryFrom (.holding memory multiple) (4 * blocks) fuel disabled (first + k)
        (bytesAt memory (4 * first) (4 * k))).1 = bytesAt memory (4 * first) (4 * blocks) := by
  intro fuel
  induction fuel with
  | zero =>
      intro disabled k hk hfuel
      rw [type5ReadBinaryFrom, show k = blocks by omega]
  | succ fuel ih =>
      intro disabled k hk hfuel
      rw [type5ReadBinaryFrom, bytesAt_length]
      by_cases hmore : 4 * k < 4 * blocks
      swap
      · rw [if_neg hmore, show k = blocks by omega]
      have hsingle : ∀ flag, (type5ReadBinaryFrom (.holding memory multiple) (4 * blocks) fuel flag (first + k + 1)
          (bytesAt memory (4 * first) (4 * k) ++ (bytesAt memory (4 * (first + k)) t5UserBlockSize).take
            (min (4 * blocks - 4 * k) t5UserBlockSize))).1 = bytesAt memory (4 * first) (4 * blocks) := by
        intro flag
        rw [t5UserBlockSize, Nat.min_eq_right (by omega), List.take_of_length_le (bytesAt_length _ _ _).le,
          show 4 * (first + k) = 4 * first + 4 * k by omega, bytesAt_append]
        exact ih flag (k + 1) (by omega) (by omega)
      have hblock : ((Type5Tag.holding memory multiple).readBlock (first + k)).filter
          (fun rx => decide (min (4 * blocks - 4 * k) t5UserBlockSize ≤ rx.length)) =
          some (bytesAt memory (4 * (first + k)) t5UserBlockSize) := by
        show (some (bytesAt memory (4 * (first + k)) t5UserBlockSize)).filter _ = _
        rw [Option.filter_some_pos]
        rw [bytesAt_length, decide_eq_true_eq]
        exact Nat.min_le_right _ _
      rw [if_pos hmore]
      generalize hcount : min ((4 * blocks - 4 * k) / t5UserBlockSize) readMultipleBlocksMax = count
      have hcountBounds : 0 < count ∧ count ≤ blocks - k := by
        rw [t5UserBlockSize, readMultipleBlocksMax] at hcount
        omega
      simp only [hcount]
      by_cases hseveral : (decide (1 < (4 * blocks - 4 * k) / t5UserBlockSize) && !disabled) = true
      swap
      · rw [if_neg hseveral, hblock]
        exact hsingle _
      rw [if_pos hseveral]
      cases multiple with
      | false =>
          rw [show ((Type5Tag.holding memory false).readMultiple (first + k) count).filter
            (fun rx => decide (count * t5UserBlockSize ≤ rx.length)) = none from rfl, hblock]
          exact hsingle _
      | true =>
          have hanswer : ((Type5Tag.holding memory true).readMultiple (first + k) count).filter
              (fun rx => decide (count * t5UserBlockSize ≤ rx.length)) =
              some (bytesAt memory (4 * (first + k)) (4 * count)) := by
            show (some (bytesAt memory (4 * (first + k)) (4 * count))).filter _ = _
            rw [Option.filter_some_pos]
            rw [bytesAt_length, decide_eq_true_eq, t5UserBlockSize, Nat.mul_comm]
          have hcopied : bytesAt memory (4 * first) (4 * k) ++
              (bytesAt memory (4 * (first + k)) (4 * count)).take (count * t5UserBlockSize) =
              bytesAt memory (4 * first) (4 * (k + count)) := by
            rw [t5UserBlockSize, Nat.mul_comm count 4, List.take_of_length_le (bytesAt_length _ _ _).le,
              show 4 * (first + k) = 4 * first + 4 * k by omega, bytesAt_append, Nat.mul_add]
          rw [hanswer]
          simp only [hcopied, Nat.add_assoc]
          exact ih disabled (k + count) (by omega) (by omega)

/-- Reading whole blocks brings the memory's bytes, whichever commands the tag supports. -/
theorem type5ReadBinary_holding (disabled : Bool) (block blocks : Nat) :
    (type5ReadBinary (.holding memory multiple) disabled block (4 * blocks)).1 =
      bytesAt memory (4 * block) (4 * blocks) :=
  type5ReadBinaryFrom_holding (4 * blocks) disabled 0 (Nat.zero_le _) (by omega)

/-- The stop test of `read_type5_tlv_area`. -/
def type5Complete (total : Frame) (start : Nat) : Bool :=
  decide (start < total.length) &&
    (decide ((findMessageTlv total start).1 = .ok) || decide (tlvTerminator ∈ total.drop start))

/-- The buffer behind `k` chunks. -/
def areaLen (blocksNeeded k : Nat) : Nat := 4 * min (31 * k) blocksNeeded

variable (memory multiple) in
theorem readType5TlvAreaFrom_succ (start fuel : Nat) {blocksNeeded k : Nat} (hk : 31 * k < blocksNeeded)
    (hroom : 4 * blocksNeeded ≤ ndefBufMax) (disabled : Bool) :
    ∃ disabled', readType5TlvAreaFrom (.holding memory multiple) start blocksNeeded (fuel + 1) disabled (31 * k)
        (bytesAt memory 0 (areaLen blocksNeeded k)) =
      if type5Complete (bytesAt memory 0 (areaLen blocksNeeded (k + 1))) start then
        some (bytesAt memory 0 (areaLen blocksNeeded (k + 1)))
      else
        readType5TlvAreaFrom (.holding memory multiple) start blocksNeeded fuel disabled'
          (min (31 * (k + 1)) blocksNeeded)
          (bytesAt memory 0 (areaLen blocksNeeded (k + 1))) := by
  have hsize : areaLen blocksNeeded k = 4 * (31 * k) := by
    rw [areaLen, Nat.min_eq_left (Nat.le_of_lt hk)]
  have hblocks : min (blocksNeeded - 31 * k) readMultipleBlocksMax = min (31 * (k + 1)) blocksNeeded - 31 * k := by
    rw [readMultipleBlocksMax]
    omega
  rw [readType5TlvAreaFrom, if_pos hk, hblocks]
  generalize hcount : min (31 * (k + 1)) blocksNeeded - 31 * k = count
  have hlast : min (31 * (k + 1)) blocksNeeded = 31 * k + count := by omega
  have hgot : (type5ReadBinary (.holding memory multiple) disabled (31 * k) (4 * count)).1 =
      bytesAt memory (4 * (31 * k)) (4 * count) := type5ReadBinary_holding disabled (31 * k) count
  have hnext : areaLen blocksNeeded k + 4 * count = areaLen blocksNeeded (k + 1) := by
    rw [hsize, areaLen, hlast, Nat.mul_add]
  have htotal : bytesAt memory 0 (areaLen blocksNeeded k) ++ bytesAt memory (4 * (31 * k)) (4 * count) =
      bytesAt memory 0 (areaLen blocksNeeded (k + 1)) := by
    rw [← hnext, ← bytesAt_append, hsize, Nat.zero_add]
  have hspan : spanOk (areaLen blocksNeeded k) (4 * count) ndefBufMax = true := by
    rw [spanOk, decide_eq_true_eq, hnext, areaLen]
    omega
  refine ⟨(type5ReadBinary (.holding memory multiple) disabled (31 * k) (4 * count)).2, ?_⟩
  simp only [t5UserBlockSize, Nat.mul_comm count 4, hgot, bytesAt_length, Nat.lt_irrefl, if_false, hspan,
    Bool.true_eq_false, htotal, hlast]
  rw [type5Complete, bytesAt_length]
  by_cases hstart : start < areaLen blocksNeeded (k + 1)
  · rw [if_pos hstart, decide_eq_true hstart, Bool.true_and]
    by_cases hok : (findMessageTlv (bytesAt memory 0 (areaLen blocksNeeded (k + 1))) start).1 = .ok
    · rw [if_pos hok, decide_eq_true hok]
      rfl
    · rw [if_neg hok, decide_eq_false hok, Bool.false_or]
      by_cases hterm : tlvTerminator ∈ (bytesAt memory 0 (areaLen blocksNeeded (k + 1))).drop start
      · rw [if_pos hterm, decide_eq_true hterm]
        rfl
      · rw [if_neg hterm, decide_eq_false hterm]
        rfl
  · rw [if_neg hstart, decide_eq_false hstart]
    rfl

/-- The loop ends behind the first chunk whose buffer passes the stop test. -/
theorem readType5TlvAreaFrom_first {start blocksNeeded n : Nat} (hn : 31 * (n - 1) < blocksNeeded)
    (hroom : 4 * blocksNeeded ≤ ndefBufMax)
    (hstop : type5Complete (bytesAt memory 0 (areaLen blocksNeeded n)) start = true) :
    ∀ fuel disabled k, k < n → n ≤ fuel + k →
      (∀ j, k < j → j < n → ¬ type5Complete (bytesAt memory 0 (areaLen blocksNeeded j)) start = true) →
      readType5TlvAreaFrom (.holding memory multiple) start blocksNeeded fuel disabled (31 * k)
        (bytesAt memory 0 (areaLen blocksNeeded k)) = some (bytesAt memory 0 (areaLen blocksNeeded n)) := by
  intro fuel
  induction fuel with
  | zero => omega
  | succ fuel ih =>
      intro disabled k hk hfuel hbefore
      obtain ⟨disabled', hstep⟩ :=
        readType5TlvAreaFrom_succ memory multiple start fuel (show 31 * k < blocksNeeded by omega) hroom disabled
      rw [hstep]
      by_cases hlast : k + 1 = n
      · rw [hlast, if_pos hstop]
      · rw [if_neg (hbefore (k + 1) (by omega) (by omega)), Nat.min_eq_left (by omega)]
        exact ih disabled' (k + 1) (by omega) (by omega) fun j hj => hbefore j (by omega)

theorem type5Complete_iff {start limit n : Nat} {before field m : Frame} (h : Holds memory start limit before field m)
    (hn : n ≤ 0xFFFF) :
    type5Complete (bytesAt memory 0 n) start = true ↔
      (before ++ (tlvMessage :: field ++ m)).length ≤ n - start ∨ tlvTerminator ∈ bytesAt memory start (n - start) := by
  have hnonempty : 0 < (before ++ (tlvMessage :: field ++ m)).length := by
    simp only [List.length_append, List.length_cons]
    omega
  rw [type5Complete, bytesAt_length, bytesAt_drop, Nat.zero_add]
  by_cases hstart : start < n
  · rw [decide_eq_true hstart, Bool.true_and, Bool.or_eq_true, decide_eq_true_eq, decide_eq_true_eq,
      finds_iff 0 start (by rwa [Nat.zero_add]) hn (Nat.le_of_lt hstart)]
  · rw [decide_eq_false hstart, Bool.false_and, Nat.sub_eq_zero_of_le (Nat.le_of_not_lt hstart), bytesAt_zero]
    exact iff_of_false Bool.false_ne_true (not_or.mpr ⟨Nat.not_le.mpr hnonempty, List.not_mem_nil⟩)

/-- A description that declares a data area open to reading. -/
structure Type5Readable (type5 : Type5Info) : Prop where
  valid : type5.ccValid = true
  access : type5.readAccessOpen = true
  size : type5.dataAreaSizeBytes ≠ 0

/-- Container and data area end within 16 bits; the reader refuses any other. -/
def Type5InRange (type5 : Type5Info) : Prop :=
  (type5CcByteLen type5).toNat + type5.dataAreaSizeBytes.toNat ≤ 0xFFFF

instance (type5 : Type5Info) : Decidable (Type5InRange type5) := inferInstanceAs (Decidable (_ ≤ _))

/-- An area out of range is not read. -/
theorem readType5Tag_out_of_range (tag : Type5Tag) {type5 : Type5Info} (disabled : Bool) (h : ¬ Type5InRange type5) :
    readType5Tag tag type5 disabled = [] := by
  have hnone : readType5TlvArea tag type5 disabled = none := by
    rw [readType5TlvArea]
    split
    · rfl
    · exact if_pos (Nat.lt_of_not_le h)
  rw [readType5Tag, hnone]

/-- How much of the data area the reader's buffer leaves to it. -/
def type5ReadLimit (type5 : Type5Info) : Nat :=
  min type5.dataAreaSizeBytes.toNat (ndefBufMax - (type5CcByteLen type5).toNat)

/-- **When a Type 5 read presents the message.** -/
theorem readType5Tag_presents_iff {type5 : Type5Info} {before field m : Frame} (disabled : Bool)
    (hopen : Type5Readable type5)
    (h : Holds memory (type5CcByteLen type5).toNat (type5ReadLimit type5) before field m) :
    (readType5Tag (.holding memory multiple) type5 disabled).head? = some m ↔
      Type5InRange type5 ∧ tlvTerminator ∉ bytesAt memory (type5CcByteLen type5).toNat
        (124 * (((type5CcByteLen type5).toNat + (before ++ (tlvMessage :: field ++ m)).length - 1) / 124) -
          (type5CcByteLen type5).toNat) := by
  by_cases hrange : Type5InRange type5
  swap
  · rw [readType5Tag_out_of_range _ _ hrange, List.head?_nil]
    exact iff_of_false (Option.some_ne_none m).symm fun hreads => hrange hreads.1
  rw [and_iff_right hrange]
  rw [Type5InRange] at hrange
  have hfits := h.fits
  rw [type5ReadLimit, ndefBufMax] at hfits
  have hnonempty : 0 < (before ++ (tlvMessage :: field ++ m)).length := by
    simp only [List.length_append, List.length_cons]
    omega
  unfold readType5Tag readType5TlvArea
  simp only [hopen.valid, hopen.access, hopen.size, Bool.true_eq_false, or_self, if_false, Nat.not_lt.mpr hrange]
  generalize (type5CcByteLen type5).toNat = start at *
  generalize hblocks :
    (min (start + type5.dataAreaSizeBytes.toNat) ndefBufMax + (t5UserBlockSize - 1)) / t5UserBlockSize =
    blocksNeeded
  rw [ndefBufMax, t5UserBlockSize] at hblocks
  have hpresents : ∀ {n}, n ≤ 0xFFFF → start ≤ n → ((parseNdefTlvArea (bytesAt memory 0 n) start).head? = some m ↔
      (before ++ (tlvMessage :: field ++ m)).length ≤ n - start) := fun hn hstart =>
    presents_iff 0 start (by rwa [Nat.zero_add]) hn hstart
  have hcomplete : ∀ k, 0 < k → (type5Complete (bytesAt memory 0 (areaLen blocksNeeded k)) start = true ↔
      (before ++ (tlvMessage :: field ++ m)).length ≤ areaLen blocksNeeded k - start ∨
        tlvTerminator ∈ bytesAt memory start (areaLen blocksNeeded k - start)) := by
    intro k _
    refine type5Complete_iff h ?_
    rw [areaLen]
    omega
  generalize hstop : (before ++ (tlvMessage :: field ++ m)).length = stop at *
  have hneed : stop ≤ areaLen blocksNeeded ((start + stop - 1) / 124 + 1) - start := by
    rw [areaLen]
    omega
  have hends := (hcomplete ((start + stop - 1) / 124 + 1) (Nat.succ_pos _)).mpr (Or.inl hneed)
  obtain ⟨n, hpos, hle, hfirst, hbefore⟩ :=
    exists_first (P := fun k => type5Complete (bytesAt memory 0 (areaLen blocksNeeded k)) start = true) (Nat.succ_pos _)
      hends
  have hrun : readType5TlvAreaFrom (.holding memory multiple) start blocksNeeded blocksNeeded disabled 0 [] =
      some (bytesAt memory 0 (areaLen blocksNeeded n)) :=
    readType5TlvAreaFrom_first (by omega) (by rw [ndefBufMax]; omega) hfirst blocksNeeded disabled 0 hpos (by omega)
      fun j hj hjn => hbefore j hj hjn
  have hmono : Monotone fun k => areaLen blocksNeeded k - start := by
    intro i j hij
    simp only [areaLen]
    omega
  have hprior : areaLen blocksNeeded ((start + stop - 1) / 124) - start = 124 * ((start + stop - 1) / 124) - start := by
    rw [areaLen]
    omega
  rw [← hprior, ← first_stop_covers_iff (fun k => areaLen blocksNeeded k - start) hmono
    (by rw [areaLen]; exact Nat.zero_sub start) hcomplete hneed hpos hfirst hbefore (by
      rw [hprior]
      omega), hrun]
  simp only [bytesAt_length]
  by_cases hshort : start ≤ areaLen blocksNeeded n
  · rw [if_pos hshort]
    exact hpresents (by rw [areaLen]; omega) hshort
  · rw [if_neg hshort]
    simp only [List.head?_nil, false_iff, reduceCtorEq]
    omega

end Type5

/-- **Interactive reading.** A tag whose data area holds a message within the reader's limits is presented
in full, first of all messages there, exactly when no byte `0xFE` comes with a read before the last one
needed; on an NTAG21x, exactly when the first READ brings the message, or the message's header on a tag
that supports FAST_READ. On a Type 5 tag, container and area have to end within 16 bits besides. -/
theorem interactive_read_presents (memory : Nat → Byte) :
    (∀ family maxUserPage fast before field m, Type2Readable memory →
      Holds memory 16 (type2ReadLimit (.holding memory family maxUserPage fast)) before field m →
      ((readNtagTag (.holding memory family maxUserPage fast)).bind List.head? = some m ↔
        if family = .ntag21x then
          (before ++ (tlvMessage :: field ++ m)).length ≤ 12 ∨
            fast = true ∧ (before ++ tlvMessage :: field).length ≤ 12
        else tlvTerminator ∉
          bytesAt memory 16 (16 * (((before ++ (tlvMessage :: field ++ m)).length + 3) / 16) - 4))) ∧
    (∀ multiple type5 disabled before field m, Type5Readable type5 →
      Holds memory (type5CcByteLen type5).toNat (type5ReadLimit type5) before field m →
      ((readType5Tag (.holding memory multiple) type5 disabled).head? = some m ↔
        Type5InRange type5 ∧ tlvTerminator ∉ bytesAt memory (type5CcByteLen type5).toNat
          (124 * (((type5CcByteLen type5).toNat + (before ++ (tlvMessage :: field ++ m)).length - 1) / 124) -
            (type5CcByteLen type5).toNat))) :=
  ⟨fun _ _ _ _ _ _ hopen h => readNtagTag_presents_iff hopen h,
    fun _ _ disabled _ _ _ hopen h => readType5Tag_presents_iff disabled hopen h⟩

/-- A 48-byte data area with a proprietary TLV whose value starts with `0xFE`, and a one-byte message. -/
def proprietaryFirst : Nat → Byte :=
  memoryOf 12 ([0xE1, 0x10, 0x06, 0x00] ++ [0xFD, 0x0A, 0xFE, 0, 0, 0, 0, 0, 0, 0, 0, 0] ++ [0x03, 0x01, 0xD0])

/-- A 256-byte Type 5 data area with such a TLV, a chunk long. -/
def proprietaryChunk : Nat → Byte :=
  memoryOf 0 ([0xE1, 0x40, 0x20, 0x00] ++ [0xFD, 0x78, 0xFE] ++ List.replicate 119 0 ++ [0x03, 0x01, 0xD0])

def proprietaryChunkInfo : Type5Info :=
  { type5ApplyCc [0xE1, 0x40, 0x20, 0x00] with blockSize := 4, blockCount := 65 }

theorem proprietaryFirst_readable : Type2Readable proprietaryFirst :=
  ⟨by decide, by decide, by decide⟩

theorem proprietaryFirst_holds {limit : Nat} (h : 15 ≤ limit) :
    Holds proprietaryFirst 16 limit [0xFD, 0x0A, 0xFE, 0, 0, 0, 0, 0, 0, 0, 0, 0] [0x01] [0xD0] where
  foreign := .short (by decide) (by decide) (by decide) (by decide) (by decide)
  lengthField := .short (n := 1) (by decide)
  bytes := by decide
  fits := h

theorem proprietaryChunk_readable : Type5Readable proprietaryChunkInfo :=
  ⟨by decide, by decide, by decide⟩

theorem proprietaryChunk_holds :
    Holds proprietaryChunk (type5CcByteLen proprietaryChunkInfo).toNat (type5ReadLimit proprietaryChunkInfo)
      ([0xFD, 0x78, 0xFE] ++ List.replicate 119 0) [0x01] [0xD0] where
  foreign := .short (by decide) (by decide) (by decide) (by decide) (by decide)
  lengthField := .short (n := 1) (by decide)
  bytes := by decide +kernel
  fits := by decide +kernel

/-- Tags whose message is not presented: the READ loop and the Type 5 loop stop at a value byte `0xFE`,
and the NTAG21x path stops behind its first READ. -/
theorem interactive_read_stops_early :
    (Type2Readable proprietaryFirst ∧
      Holds proprietaryFirst 16 (type2ReadLimit (.holding proprietaryFirst .unknown 0 false))
        [0xFD, 0x0A, 0xFE, 0, 0, 0, 0, 0, 0, 0, 0, 0] [0x01] [0xD0] ∧
      (readNtagTag (.holding proprietaryFirst .unknown 0 false)).bind List.head? ≠ some [0xD0]) ∧
    (Holds proprietaryFirst 16 (type2ReadLimit (.holding proprietaryFirst .ntag21x 39 true))
        [0xFD, 0x0A, 0xFE, 0, 0, 0, 0, 0, 0, 0, 0, 0] [0x01] [0xD0] ∧
      (readNtagTag (.holding proprietaryFirst .ntag21x 39 true)).bind List.head? ≠ some [0xD0]) ∧
    (Type5Readable proprietaryChunkInfo ∧
      Holds proprietaryChunk (type5CcByteLen proprietaryChunkInfo).toNat (type5ReadLimit proprietaryChunkInfo)
        ([0xFD, 0x78, 0xFE] ++ List.replicate 119 0) [0x01] [0xD0] ∧
      (readType5Tag (.holding proprietaryChunk true) proprietaryChunkInfo false).head? ≠ some [0xD0]) :=
  ⟨⟨proprietaryFirst_readable, proprietaryFirst_holds (by decide), by decide⟩,
    ⟨proprietaryFirst_holds (by decide), by decide⟩,
    ⟨proprietaryChunk_readable, proprietaryChunk_holds, by decide +kernel⟩⟩

/-- A Type 2 tag and a Type 5 tag with the message at the front of the area. -/
theorem interactive_read_presents_front :
    (readNtagTag (.holding (memoryOf 12 [0xE1, 0x10, 0x06, 0x00, 0x03, 0x01, 0xD0]) .unknown 0 false)).bind
        List.head? = some [0xD0] ∧
      (readType5Tag (.holding (memoryOf 0 [0xE1, 0x40, 0x20, 0x00, 0x03, 0x01, 0xD0]) false) proprietaryChunkInfo
        false).head? = some [0xD0] := by
  refine ⟨((interactive_read_presents (memoryOf 12 [0xE1, 0x10, 0x06, 0x00, 0x03, 0x01, 0xD0])).1 .unknown 0 false []
      [0x01] [0xD0] ⟨by decide, by decide, by decide⟩
      ⟨.nil, .short (n := 1) (by decide), by decide, by decide⟩).mpr (by decide),
    ((interactive_read_presents (memoryOf 0 [0xE1, 0x40, 0x20, 0x00, 0x03, 0x01, 0xD0])).2 false proprietaryChunkInfo
      false [] [0x01] [0xD0] proprietaryChunk_readable
      ⟨.nil, .short (n := 1) (by decide), by decide, by decide⟩).mpr ⟨by decide, by decide⟩⟩

end NeroReader.Tags
