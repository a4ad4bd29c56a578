import NeroReader.Type5Write

/-!
The capability container of a Type 5 tag as its memory holds it. Its first block tells whether it has a second; the
bytes that begin with it declare what it declares, and it stays while its own bytes do.
-/

namespace NeroReader.HostStorage

open Storage Ndef
open FileUpdate (File Has)

/-- The capability container on the tag. -/
def containerOf (memory : File Byte) : Type5Cc := type5ApplyCc (bytesAt memory 0 8)

/-- The length that the container on the tag declares. -/
def ccLenOf (s : File Byte) : Nat := if s 2 = 0 then t5tCcLenExtended else t5tCcLenShort

/-- The bytes begin with the container on the tag. -/
def IsContainer (s : File Byte) (cc : Frame) : Prop := cc.take (ccLenOf s) = bytesAt s 0 (ccLenOf s)

theorem ccLenOf_cases (s : File Byte) : ccLenOf s = 4 ∨ ccLenOf s = 8 := by
  rw [ccLenOf]
  split
  · exact Or.inr rfl
  · exact Or.inl rfl

theorem declaredCcLen_bytesAt (s : File Byte) {n : Nat} (h : 4 ≤ n) :
    type5DeclaredCcLen (bytesAt s 0 n) = ccLenOf s := by
  rw [type5DeclaredCcLen, bytesAt_length, if_neg (show ¬ n < t5tCcLenShort by rw [t5tCcLenShort]; omega),
    u8At_bytesAt s 0 (show 2 < n by omega), ccLenOf]

theorem isContainer_bytesAt (s : File Byte) {n : Nat} (h : ccLenOf s ≤ n) : IsContainer s (bytesAt s 0 n) :=
  bytesAt_take s 0 h

/-- What was read first and the second block are an extended container. -/
theorem isContainer_two {s : File Byte} (hlen : ccLenOf s = 8) {firstBlock secondBlock : Frame}
    (hfirst : firstBlock = bytesAt s 0 firstBlock.length) (hwhole : 4 ∣ firstBlock.length)
    (hpos : 4 ≤ firstBlock.length)
    (hsecond : secondBlock = bytesAt s 4 4) : IsContainer s (firstBlock ++ secondBlock) := by
  rw [IsContainer, hlen]
  rcases Nat.lt_or_ge firstBlock.length 8 with hlt | hge
  · have hfour : firstBlock.length = 4 := by omega
    rw [hfour] at hfirst
    rw [hfirst, hsecond]
    exact (List.take_of_length_le (Nat.le_refl 8)).trans (bytesAt_append s 0 4 4).symm
  · rw [List.take_append_of_le_length hge, hfirst, bytesAt_take s 0 hge]

/-- A short container is its first four bytes. -/
theorem type5ApplyCc_take {c : Frame} (hlen : 4 ≤ c.length) (hmlen : u8At c 2 ≠ 0) :
    type5ApplyCc c = type5ApplyCc (c.take 4) := by
  have hat : ∀ i < 4, u8At (c.take 4) i = u8At c i := fun i hi => u8At_take c hi
  have htake : (c.take 4).length = 4 := List.length_take_of_le hlen
  rw [type5ApplyCc, type5ApplyCc, htake]
  simp only [hat 0 (by decide), hat 1 (by decide), hat 2 (by decide), hmlen, t5tCcLenShort, Nat.not_lt.mpr hlen,
    false_and, ne_eq, not_false_eq_true, if_true, if_false, List.take_take, Nat.min_self, Nat.lt_irrefl]

theorem IsContainer.spec {s : File Byte} {cc : Frame} (h : IsContainer s cc) :
    type5ApplyCc (cc.take t5tCcLenExtended) = containerOf s ∧ type5DeclaredCcLen cc = ccLenOf s ∧
      t5tCcLenShort ≤ cc.length ∧ u8At cc 2 = s 2 := by
  have hcases := ccLenOf_cases s
  have hlen : ccLenOf s ≤ cc.length := by
    have htaken := congrArg List.length h
    rw [List.length_take, bytesAt_length] at htaken
    omega
  have hmlen : u8At cc 2 = s 2 := by
    have hat := congrArg (fun bytes => u8At bytes 2) h
    simp only [u8At_bytesAt s 0 (show 2 < ccLenOf s by omega)] at hat
    rwa [u8At_take cc (by omega)] at hat
  refine ⟨?_, ?_, ?_, hmlen⟩
  · rw [containerOf]
    rcases hcases with hfour | height
    · have hne : s 2 ≠ 0 := by
        intro hzero
        rw [ccLenOf, if_pos hzero] at hfour
        nomatch hfour
      have hcc : type5ApplyCc (cc.take t5tCcLenExtended) = type5ApplyCc ((cc.take t5tCcLenExtended).take 4) := by
        refine type5ApplyCc_take (by rw [List.length_take, t5tCcLenExtended]; omega) ?_
        rwa [u8At_take cc (by decide), hmlen]
      have hmemory : type5ApplyCc (bytesAt s 0 8) = type5ApplyCc ((bytesAt s 0 8).take 4) := by
        refine type5ApplyCc_take (by rw [bytesAt_length]; decide) ?_
        rwa [u8At_bytesAt s 0 (by decide)]
      rw [IsContainer, hfour] at h
      rw [hcc, hmemory, List.take_take, bytesAt_take s 0 (by decide)]
      exact congrArg type5ApplyCc h
    · rw [IsContainer, height] at h
      exact congrArg type5ApplyCc h
  · rw [type5DeclaredCcLen, hmlen, if_neg (show ¬ cc.length < t5tCcLenShort by rw [t5tCcLenShort]; omega), ccLenOf]
  · rw [t5tCcLenShort]
    omega

/-! ### What a container declares -/

/-- The area of a container in units of eight bytes. -/
def sizeUnits (cc : Frame) : Word :=
  if u8At cc 2 ≠ 0 then (u8At cc 2).zeroExtend 16 else bigEndian (u8At cc 6) (u8At cc 7)

theorem type5ApplyCc_valid {cc : Frame} (h : (type5ApplyCc cc).ccValid = true) :
    (type5ApplyCc cc).ccLen = BitVec.ofNat 8 (if u8At cc 2 ≠ 0 then t5tCcLenShort else t5tCcLenExtended) ∧
      (type5ApplyCc cc).dataAreaSizeBytes = sizeUnits cc * 8 ∧
      (type5ApplyCc cc).cc =
        (cc.take (if u8At cc 2 ≠ 0 then t5tCcLenShort else t5tCcLenExtended) ++ List.replicate 8 0).take 8 := by
  have hcleared : clearedCc.ccValid = false := rfl
  rw [type5ApplyCc] at h ⊢
  by_cases hshort : cc.length < t5tCcLenShort
  · rw [if_pos hshort, hcleared] at h
    nomatch h
  rw [if_neg hshort] at h ⊢
  by_cases hmagic : u8At cc 0 ≠ forumCcMagic ∧ u8At cc 0 ≠ t5tCcMagic8Byte
  · rw [if_pos hmagic, hcleared] at h
    nomatch h
  rw [if_neg hmagic] at h ⊢
  by_cases hcut : u8At cc 2 = 0 ∧ cc.length < t5tCcLenExtended
  · rw [if_pos hcut, hcleared] at h
    nomatch h
  rw [if_neg hcut] at h ⊢
  by_cases hsize : sizeUnits cc = 0 ∨ 0xFFFF / 8 < (sizeUnits cc).toNat
  · rw [sizeUnits] at hsize
    rw [if_pos hsize, hcleared] at h
    nomatch h
  · rw [sizeUnits] at hsize
    rw [if_neg hsize]
    exact ⟨rfl, rfl, rfl⟩

/-- The form of a valid container, and the area of a short one. -/
theorem containerOf_valid {s : File Byte} (h : (containerOf s).ccValid = true) :
    (containerOf s).ccLen.toNat = ccLenOf s ∧
    (s 2 ≠ 0 → (containerOf s).dataAreaSizeBytes.toNat = 8 * (s 2).toNat) := by
  have hmlen : u8At (bytesAt s 0 8) 2 = s 2 := u8At_bytesAt s 0 (by decide)
  obtain ⟨hlen, harea, -⟩ := type5ApplyCc_valid h
  rw [containerOf, hlen, harea, sizeUnits, hmlen, ccLenOf]
  refine ⟨?_, fun hne => ?_⟩
  · by_cases hzero : s 2 = 0
    · rw [if_neg (not_not.mpr hzero), if_pos hzero]
      rfl
    · rw [if_pos hzero, if_neg hzero]
      rfl
  · have hlt := (s 2).isLt
    rw [if_pos hne, BitVec.toNat_mul, BitVec.toNat_setWidth, show (8 : BitVec 16).toNat = 8 by rfl]
    omega

/-- A container that defers its size has the largest MLEN. -/
theorem mlen_of_overflow {s : File Byte} (h : ccSignalsMlenOverflow (containerOf s) = true) :
    s 2 = mlenOverflow := by
  rw [ccSignalsMlenOverflow, Bool.and_eq_true, Bool.and_eq_true, Bool.and_eq_true, beq_iff_eq, beq_iff_eq] at h
  obtain ⟨⟨⟨hvalid, -⟩, hmlen⟩, -⟩ := h
  obtain ⟨-, -, hcc⟩ := type5ApplyCc_valid hvalid
  have hlen : 2 < (if u8At (bytesAt s 0 8) 2 ≠ 0 then t5tCcLenShort else t5tCcLenExtended) := by
    split <;> decide
  have htake :
      2 < ((bytesAt s 0 8).take (if u8At (bytesAt s 0 8) 2 ≠ 0 then t5tCcLenShort else t5tCcLenExtended)).length := by
    rw [List.length_take, bytesAt_length]
    omega
  rw [containerOf, hcc, u8At_take _ (by decide), u8At_append_left _ _ htake, u8At_take _ hlen,
    u8At_bytesAt s 0 (by decide)] at hmlen
  exact hmlen

/-- The container stays when its bytes do. -/
theorem containerOf_congr {s t : File Byte} (h : ∀ i < ccLenOf s, t i = s i) :
    containerOf t = containerOf s := by
  have hcases := ccLenOf_cases s
  have hbytes : bytesAt t 0 (ccLenOf s) = bytesAt s 0 (ccLenOf s) := by
    refine List.map_congr_left fun i hi => ?_
    have hlt := List.mem_range.mp hi
    rw [h (0 + i) (by omega)]
  have hlen : ccLenOf t = ccLenOf s := by
    rw [ccLenOf, ccLenOf, h 2 (by omega)]
  have hcontainer : IsContainer s (bytesAt t 0 8) := by
    rw [IsContainer, bytesAt_take t 0 (by omega)]
    exact hbytes
  have hspec := hcontainer.spec.1
  rwa [t5tCcLenExtended, bytesAt_take t 0 (Nat.le_refl 8)] at hspec

/-- A short container that was written. -/
theorem containerOf_written {t : File Byte} {mlen : Byte} (hmlen : mlen ≠ 0)
    (h : Has t 0 [forumCcMagic, t5tCcVerAccess, mlen, sw2Success]) :
    (containerOf t).ccValid = true ∧ ccLenOf t = 4 ∧ t 2 = mlen := by
  have h0 : t 0 = forumCcMagic := h 0 (show 0 < 4 by decide)
  have h2 : t 2 = mlen := h 2 (show 2 < 4 by decide)
  have hne : t 2 ≠ 0 := by rwa [h2]
  have hlen : ccLenOf t = 4 := if_neg hne
  refine ⟨?_, hlen, h2⟩
  have hlt := mlen.isLt
  have hpos : mlen.toNat ≠ 0 := fun hzero => hmlen (BitVec.eq_of_toNat_eq hzero)
  have hsize : ¬ (mlen.zeroExtend 16 = 0 ∨ 0xFFFF / 8 < (mlen.zeroExtend 16).toNat) := by
    rw [BitVec.toNat_setWidth]
    rintro (hzero | hbig)
    · have hnat := congrArg BitVec.toNat hzero
      rw [BitVec.toNat_setWidth, show (0 : BitVec 16).toNat = 0 by rfl] at hnat
      omega
    · omega
  rw [containerOf, type5ApplyCc, if_neg (by rw [bytesAt_length]; decide), u8At_bytesAt t 0 (by decide),
    u8At_bytesAt t 0 (show 2 < 8 by decide), if_neg (fun hmagic => hmagic.1 h0), if_neg (fun hzero => hne hzero.1)]
  simp only [Nat.zero_add, h2, ne_eq, hmlen, not_false_eq_true, if_true]
  rw [if_neg hsize]

end NeroReader.HostStorage
