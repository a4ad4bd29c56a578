import NeroReader.Dialogue
import NeroReader.FileUpdate
import NeroReader.HostStorage
import NeroReader.StorageUpdate

/-!
The host's writer of storage images. It writes as many units at a time as an APDU carries and, where that fails,
the first of them alone; the last unit is filled up with zeros. How one write reaches the tag is a parameter.
-/

namespace NeroReader.HostStorage

open Storage Ndef
open FileUpdate (File Has AgreeOutside patch)

def shortLcMax : Nat := 255
def storageWriteUnitAlignment : Nat := 4
def storageWriteApduDataMax : Nat := shortLcMax - shortLcMax % storageWriteUnitAlignment

/-- The units an image takes. -/
def storageUnits (byteLen unitSize : Nat) : Nat := u16 ((byteLen + unitSize - 1) / unitSize)

/-- An image with the geometry it is written in, behind the checks of the writer. -/
structure Image where
  bytes : Frame
  unitSize : Byte
  firstUnit : Word
  size_pos : 0 < unitSize.toNat
  length_le : bytes.length ≤ 0xFFFF
  range : firstUnit.toNat + storageUnits bytes.length unitSize.toNat ≤ 0x10000

namespace Image

variable (im : Image)

def units : Nat := storageUnits im.bytes.length im.unitSize.toNat

def maxUnitsPerApdu : Nat := max 1 (storageWriteApduDataMax / im.unitSize.toNat)

/-- How many units the next write is tried with. -/
def chunkUnits (unitIndex : Nat) : Nat := min (u16 (im.units - unitIndex)) im.maxUnitsPerApdu

/-- `make_chunk`. -/
def makeChunk (unitIndex chunkUnitCount : Nat) : Frame :=
  let off := unitIndex * im.unitSize.toNat
  let size := chunkUnitCount * im.unitSize.toNat
  let chunkLen := min (u16 size) (u16 (im.bytes.length - off))
  (im.bytes.drop off).take chunkLen ++ List.replicate (size - chunkLen) 0

/-- The image, zero-padded to whole units. -/
def padded : Frame := im.bytes ++ List.replicate (im.units * im.unitSize.toNat - im.bytes.length) 0

variable {im}

theorem units_eq : im.units = (im.bytes.length + im.unitSize.toNat - 1) / im.unitSize.toNat := by
  have hlen := im.length_le
  obtain ⟨d, hd⟩ := Nat.exists_eq_succ_of_ne_zero (Nat.ne_of_gt im.size_pos)
  apply u16_of_le
  apply Nat.div_le_of_le_mul
  rw [hd, Nat.succ_eq_add_one, Nat.add_mul]
  omega

theorem length_le_units : im.bytes.length ≤ im.units * im.unitSize.toNat := by
  have hpos := im.size_pos
  have hdiv := Nat.lt_div_mul_add hpos (a := im.bytes.length + im.unitSize.toNat - 1)
  rw [units_eq]
  omega

theorem units_lt_length {k : Nat} (h : k < im.units) : k * im.unitSize.toNat < im.bytes.length := by
  have hpos := im.size_pos
  rw [units_eq, Nat.lt_div_iff_mul_lt hpos] at h
  omega

theorem length_padded : im.padded.length = im.units * im.unitSize.toNat := by
  have hle := im.length_le_units
  rw [padded, List.length_append, List.length_replicate]
  omega

theorem units_le : im.units ≤ 0xFFFF := by
  have hlt : im.units < 0x10000 := Nat.mod_lt _ (by decide)
  omega

theorem chunkUnits_spec {k : Nat} (h : k < im.units) :
    1 ≤ im.chunkUnits k ∧ im.chunkUnits k ≤ im.maxUnitsPerApdu ∧ k + im.chunkUnits k ≤ im.units := by
  have hunits := im.units_le
  have hmax : 1 ≤ im.maxUnitsPerApdu := Nat.le_max_left _ _
  rw [chunkUnits, u16_of_le (by omega)]
  omega

theorem maxUnits_size : im.maxUnitsPerApdu * im.unitSize.toNat ≤ 255 := by
  have hbyte := im.unitSize.isLt
  have hdiv := Nat.div_mul_le_self storageWriteApduDataMax im.unitSize.toNat
  have hdata : storageWriteApduDataMax ≤ 255 := by decide
  rw [maxUnitsPerApdu]
  rcases Nat.le_total 1 (storageWriteApduDataMax / im.unitSize.toNat) with hone | hone
  · rw [Nat.max_eq_right hone]
    omega
  · rw [Nat.max_eq_left hone, Nat.one_mul]
    omega

/-- **A chunk is its stretch of the padded image.** -/
theorem makeChunk_eq {k n : Nat} (hpos : 1 ≤ n) (hmax : n ≤ im.maxUnitsPerApdu) (hend : k + n ≤ im.units) :
    im.makeChunk k n = (im.padded.drop (k * im.unitSize.toNat)).take (n * im.unitSize.toNat) := by
  have hlen := im.length_le
  have hsize : n * im.unitSize.toNat ≤ 255 := (Nat.mul_le_mul_right _ hmax).trans im.maxUnits_size
  have hoff := units_lt_length (show k < im.units by omega)
  have hunits := im.length_le_units
  have hroom : k * im.unitSize.toNat + n * im.unitSize.toNat ≤ im.units * im.unitSize.toNat := by
    rw [← Nat.add_mul]
    exact Nat.mul_le_mul_right _ hend
  have hfront : (im.bytes.drop (k * im.unitSize.toNat)).take
      (min (n * im.unitSize.toNat) (im.bytes.length - k * im.unitSize.toNat)) =
        (im.bytes.drop (k * im.unitSize.toNat)).take (n * im.unitSize.toNat) := by
    rw [← List.length_drop, ← List.take_eq_take_min]
  rw [makeChunk, padded, u16_of_le (by omega), u16_of_le (by omega), hfront,
    List.drop_append_of_le_length (by omega), List.take_append, List.length_drop, List.take_replicate]
  congr 2
  omega

theorem length_makeChunk {k n : Nat} (hpos : 1 ≤ n) (hmax : n ≤ im.maxUnitsPerApdu) (hend : k + n ≤ im.units) :
    (im.makeChunk k n).length = n * im.unitSize.toNat := by
  have hroom : (k + n) * im.unitSize.toNat ≤ im.units * im.unitSize.toNat := Nat.mul_le_mul_right _ hend
  rw [makeChunk_eq hpos hmax hend, List.length_take, List.length_drop, length_padded]
  rw [Nat.add_mul] at hroom
  omega

end Image

/-! ### The loop -/

section Loop

variable {Req Ans : Type} (writeUnit : Word → Frame → Dialogue Req Ans (Except String Unit))

/-- The loop of `StorageWriteUnitsWithIo`. -/
def writeUnitsFrom (im : Image) (unitIndex : Nat) : Dialogue Req Ans (Except String Unit) :=
  if unitIndex < im.units then
    let unit := im.firstUnit + BitVec.ofNat 16 unitIndex
    (if 1 < im.chunkUnits unitIndex then writeUnit unit (im.makeChunk unitIndex (im.chunkUnits unitIndex))
      else pure (.error "")) >>= fun bulk =>
        match bulk with
        | .ok _ => writeUnitsFrom im (u16 (unitIndex + im.chunkUnits unitIndex))
        | .error _ =>
            writeUnit unit (im.makeChunk unitIndex 1) >>= fun single =>
              match single with
              | .ok _ => writeUnitsFrom im (u16 (unitIndex + 1))
              | .error err => pure (.error err)
  else pure (.ok ())
termination_by im.units - unitIndex
decreasing_by
  · rename_i hindex
    have hunits := im.units_le
    obtain ⟨hone, -, hend⟩ := Image.chunkUnits_spec hindex
    rw [u16_of_le (by omega)]
    omega
  · have hunits := im.units_le
    rw [u16_of_le (by omega)]
    omega

/-- `StorageWriteUnitsWithIo`. -/
def storageWriteUnitsWithIo (firstUnit : Word) (unitSize : Byte) (bytes : Frame) :
    Dialogue Req Ans (Except String Unit) :=
  if hsize : unitSize.toNat = 0 then pure (.error "invalid storage write geometry")
  else if hlen : 0xFFFF < bytes.length then pure (.error "storage write image exceeds addressable unit range")
  else if hrange : storageUnits bytes.length unitSize.toNat ≠ 0 ∧
      0x10000 < firstUnit.toNat + storageUnits bytes.length unitSize.toNat then
    pure (.error "storage write crosses addressable unit range")
  else
    writeUnitsFrom writeUnit ⟨bytes, unitSize, firstUnit, Nat.pos_of_ne_zero hsize, Nat.le_of_not_lt hlen, by
      have hword := firstUnit.isLt
      omega⟩ 0

/-- Behind the checks the writer is its loop over an image. -/
theorem storageWriteUnitsWithIo_eq {firstUnit : Word} {unitSize : Byte} {bytes : Frame} (hsize : 1 ≤ unitSize.toNat)
    (hlen : bytes.length ≤ 0xFFFF) (hrange : firstUnit.toNat + storageUnits bytes.length unitSize.toNat ≤ 0x10000) :
    ∃ im : Image, im.firstUnit = firstUnit ∧ im.unitSize = unitSize ∧ im.bytes = bytes ∧
      storageWriteUnitsWithIo writeUnit firstUnit unitSize bytes = writeUnitsFrom writeUnit im 0 := by
  rw [storageWriteUnitsWithIo, dif_neg (Nat.ne_of_gt hsize), dif_neg (Nat.not_lt.mpr hlen),
    dif_neg (fun h => Nat.not_lt.mpr hrange h.2)]
  exact ⟨_, rfl, rfl, rfl, rfl⟩

end Loop

/-! ### What is stored -/

namespace Image

variable (im : Image)

/-- Where a unit of the image stands in the memory of the tag. -/
def place (unitIndex : Nat) : Nat := (im.firstUnit.toNat + unitIndex) * im.unitSize.toNat

/-- A chunk of the image, at its unit. -/
def Part (unit : Word) (chunk : Frame) : Prop :=
  ∃ k n, 1 ≤ n ∧ n ≤ im.maxUnitsPerApdu ∧ k + n ≤ im.units ∧ unit.toNat = im.firstUnit.toNat + k ∧
    chunk = im.makeChunk k n

theorem place_add (k n : Nat) : im.place (k + n) = im.place k + n * im.unitSize.toNat := by
  rw [place, place, ← Nat.add_assoc, Nat.add_mul]

theorem place_mono {k n : Nat} (h : k ≤ n) : im.place k ≤ im.place n := by
  obtain ⟨d, rfl⟩ := Nat.exists_eq_add_of_le h
  rw [place_add]
  exact Nat.le_add_right _ _

theorem length_take_padded {k : Nat} (hk : k ≤ im.units) :
    (im.padded.take (k * im.unitSize.toNat)).length = k * im.unitSize.toNat := by
  apply List.length_take_of_le
  rw [length_padded]
  exact Nat.mul_le_mul_right _ hk

variable {im}

theorem toNat_unit {k : Nat} (h : k < im.units) :
    (im.firstUnit + BitVec.ofNat 16 k).toNat = im.firstUnit.toNat + k := by
  have hrange : im.firstUnit.toNat + im.units ≤ 0x10000 := im.range
  rw [BitVec.toNat_add, BitVec.toNat_ofNat]
  omega

theorem part_makeChunk {k n : Nat} (hpos : 1 ≤ n) (hmax : n ≤ im.maxUnitsPerApdu) (hend : k + n ≤ im.units) :
    im.Part (im.firstUnit + BitVec.ofNat 16 k) (im.makeChunk k n) :=
  ⟨k, n, hpos, hmax, hend, toNat_unit (by omega), rfl⟩

end Image

section Run

variable {Req Ans S : Type} (memory : S → File Byte) (failed : Word → Frame → S → Prop)

/-- What the write of a chunk comes to: nothing changes elsewhere; a success has stored the chunk. -/
def Wrote (unitSize : Nat) (s : S) (unit : Word) (chunk : Frame) (result : Except String Unit) (t : S) : Prop :=
  AgreeOutside (memory s) (memory t) (unit.toNat * unitSize) (unit.toNat * unitSize + chunk.length) ∧
    match result with
    | .ok _ => Has (memory t) (unit.toNat * unitSize) chunk
    | .error _ => failed unit chunk t

/-- What the write of an image comes to: nothing changes elsewhere; a success has stored the padded image, and
a failure is behind the failed write of a single unit. -/
def Image.Stored (im : Image) (s : S) (result : Except String Unit) (t : S) : Prop :=
  AgreeOutside (memory s) (memory t) (im.place 0) (im.place im.units) ∧
    match result with
    | .ok _ => Has (memory t) (im.place 0) im.padded
    | .error _ => ∃ unit chunk, im.Part unit chunk ∧ chunk.length = im.unitSize.toNat ∧ failed unit chunk t

/-- The image is stored up to a unit. -/
def Image.StoredTo (im : Image) (s : S) (k : Nat) (t : S) : Prop :=
  AgreeOutside (memory s) (memory t) (im.place 0) (im.place im.units) ∧
    Has (memory t) (im.place 0) (im.padded.take (k * im.unitSize.toNat))

variable {memory failed} {im : Image} {s t u : S}

theorem Image.storedTo_zero (memory : S → File Byte) (im : Image) (s : S) : im.StoredTo memory s 0 s := by
  refine ⟨AgreeOutside.refl _ _ _, ?_⟩
  rw [Nat.zero_mul, List.take_zero]
  exact fun i hi => absurd hi (Nat.not_lt_zero i)

/-- A write of the next units leaves what is stored in front of them. -/
theorem Image.StoredTo.write {k n : Nat} {result : Except String Unit} (h : im.StoredTo memory s k t) (hpos : 1 ≤ n)
    (hmax : n ≤ im.maxUnitsPerApdu) (hend : k + n ≤ im.units)
    (hwrote : Wrote memory failed im.unitSize.toNat t (im.firstUnit + BitVec.ofNat 16 k) (im.makeChunk k n) result u) :
    im.StoredTo memory s k u ∧
      (result = .ok () → im.StoredTo memory s (k + n) u) ∧
      (∀ err, result = .error err → failed (im.firstUnit + BitVec.ofNat 16 k) (im.makeChunk k n) u) := by
  obtain ⟨hagree, hresult⟩ := hwrote
  have hlen := Image.length_makeChunk hpos hmax hend
  have hplace : (im.firstUnit + BitVec.ofNat 16 k).toNat * im.unitSize.toNat = im.place k := by
    rw [Image.toNat_unit (by omega)]
    rfl
  have htaken := im.length_take_padded (show k ≤ im.units by omega)
  have hfirst := im.place_add 0 k
  have hnext := im.place_add k n
  have hlast := im.place_mono hend
  rw [Nat.zero_add] at hfirst
  rw [hplace, hlen] at hagree
  have hout := h.1.trans (hagree.mono (show im.place 0 ≤ im.place k by omega) (show _ ≤ im.place im.units by omega))
  have hfront := h.2.of_agree hagree (by omega)
  refine ⟨⟨hout, hfront⟩, ?_, ?_⟩
  · rintro rfl
    refine ⟨hout, ?_⟩
    rw [Nat.add_mul, List.take_add, FileUpdate.has_append, htaken, ← hfirst,
      ← Image.makeChunk_eq hpos hmax hend, ← hplace]
    exact ⟨hfront, hresult⟩
  · rintro err rfl
    exact hresult

section Loop

variable {peer : S → Req → Ans → S → Prop} {keeps : S → Prop}
  {writeUnit : Word → Frame → Dialogue Req Ans (Except String Unit)}
  (hwrite : ∀ unit chunk s, keeps s → im.Part unit chunk →
    (writeUnit unit chunk).Holds peer keeps (Wrote memory failed im.unitSize.toNat s unit chunk) s)

include hwrite

/-- **The loop stores the image.** -/
theorem writeUnitsFrom_holds {k : Nat} (hk : k ≤ im.units) (hkeeps : keeps t) (hstored : im.StoredTo memory s k t) :
    (writeUnitsFrom writeUnit im k).Holds peer keeps (im.Stored memory failed s) t := by
  have hunits := im.units_le
  induction hleft : im.units - k using Nat.strong_induction_on generalizing k t with
  | _ left ih =>
      rw [writeUnitsFrom]
      split
      · rename_i hindex
        obtain ⟨hone, hmax, hend⟩ := Image.chunkUnits_spec hindex
        -- the single write, and what follows it, from any state the first `k` units are stored in
        have hsingle : ∀ u, keeps u → im.StoredTo memory s k u →
            (writeUnit (im.firstUnit + BitVec.ofNat 16 k) (im.makeChunk k 1) >>= fun single =>
              match single with
              | .ok _ => writeUnitsFrom writeUnit im (u16 (k + 1))
              | .error err => pure (.error err)).Holds peer keeps (im.Stored memory failed s) u := by
          intro u hu hustored
          have hpart := Image.part_makeChunk (Nat.le_refl 1) (hone.trans hmax) hindex
          refine Dialogue.holds_bind (hwrite _ _ u hu hpart) fun result v hv hwrote => ?_
          obtain ⟨hkept, hok, herr⟩ := hustored.write (Nat.le_refl 1) (hone.trans hmax) hindex hwrote
          cases result with
          | ok =>
              rw [u16_of_le (by omega)]
              exact ih (im.units - (k + 1)) (by omega) (by omega) hv (hok rfl) rfl
          | error err =>
              have hlen := Image.length_makeChunk (Nat.le_refl 1) (hone.trans hmax) hindex
              rw [Nat.one_mul] at hlen
              exact Dialogue.holds_pure hv ⟨hkept.1, _, _, hpart, hlen, herr err rfl⟩
        split
        · refine Dialogue.holds_bind
            (hwrite _ _ t hkeeps (Image.part_makeChunk hone hmax hend)) fun result u hu hwrote => ?_
          obtain ⟨hkept, hok, -⟩ := hstored.write hone hmax hend hwrote
          cases result with
          | ok =>
              rw [u16_of_le (by omega)]
              exact ih (im.units - (k + im.chunkUnits k)) (by omega) (by omega) hu (hok rfl) rfl
          | error err => exact hsingle u hu hkept
        · exact hsingle t hkeeps hstored
      · refine Dialogue.holds_pure hkeeps ⟨hstored.1, ?_⟩
        have hall := hstored.2
        rwa [show k = im.units by omega, List.take_of_length_le (Nat.le_of_eq Image.length_padded)] at hall

end Loop

/-- Where every write can succeed the loop can. -/
theorem writeUnitsFrom_reaches {peer : S → Req → Ans → S → Prop} {keeps : S → Prop}
    {writeUnit : Word → Frame → Dialogue Req Ans (Except String Unit)}
    (hwrite : ∀ unit chunk s, keeps s → im.Part unit chunk →
      ∃ t, keeps t ∧ Dialogue.Reaches peer (writeUnit unit chunk) s (.done (.ok ())) t)
    {k : Nat} (hk : k ≤ im.units) (hkeeps : keeps t) :
    ∃ u, keeps u ∧ Dialogue.Reaches peer (writeUnitsFrom writeUnit im k) t (.done (.ok ())) u := by
  have hunits := im.units_le
  induction hleft : im.units - k using Nat.strong_induction_on generalizing k t with
  | _ left ih =>
      rw [writeUnitsFrom]
      split
      · rename_i hindex
        obtain ⟨hone, hmax, hend⟩ := Image.chunkUnits_spec hindex
        have hnext : ∀ n u, 1 ≤ n → k + n ≤ im.units → keeps u → ∃ v, keeps v ∧
            Dialogue.Reaches peer (writeUnitsFrom writeUnit im (u16 (k + n))) u (.done (.ok ())) v := by
          intro n u hn hle hu
          rw [u16_of_le (by omega)]
          exact ih (im.units - (k + n)) (by omega) (by omega) hu rfl
        split
        · obtain ⟨u, hu, hreach⟩ := hwrite _ _ t hkeeps (Image.part_makeChunk hone hmax hend)
          obtain ⟨v, hv, hrest⟩ := hnext _ u hone hend hu
          exact ⟨v, hv, hreach.bind hrest⟩
        · obtain ⟨u, hu, hreach⟩ := hwrite _ _ t hkeeps (Image.part_makeChunk (Nat.le_refl 1) (hone.trans hmax) hindex)
          obtain ⟨v, hv, hrest⟩ := hnext 1 u (Nat.le_refl 1) hindex hu
          exact ⟨v, hv, hreach.bind hrest⟩
      · exact ⟨t, hkeeps, .here _ _⟩

/-- Two calls for each unit are enough. -/
theorem writeUnitsFrom_asksAtMost {writeUnit : Word → Frame → Dialogue Req Ans (Except String Unit)} {c : Nat}
    (hwrite : ∀ unit chunk, (writeUnit unit chunk).AsksAtMost c) (im : Image) (k : Nat) :
    (writeUnitsFrom writeUnit im k).AsksAtMost (2 * c * (im.units - k)) := by
  have hunits := im.units_le
  induction hleft : im.units - k using Nat.strong_induction_on generalizing k with
  | _ left ih =>
      rw [writeUnitsFrom]
      split
      · rename_i hindex
        obtain ⟨hone, -, hend⟩ := Image.chunkUnits_spec hindex
        have hnext : ∀ n, 1 ≤ n → k + n ≤ im.units →
            (writeUnitsFrom writeUnit im (u16 (k + n))).AsksAtMost (2 * c * (left - 1)) := by
          intro n hn hle
          rw [u16_of_le (by omega)]
          exact (ih (im.units - (k + n)) (by omega) (k + n) rfl).mono (Nat.mul_le_mul_left _ (by omega))
        have hsingle : (writeUnit (im.firstUnit + BitVec.ofNat 16 k) (im.makeChunk k 1) >>= fun single =>
            match single with
            | .ok _ => writeUnitsFrom writeUnit im (u16 (k + 1))
            | .error err => pure (.error err)).AsksAtMost (c + 2 * c * (left - 1)) := by
          refine Dialogue.asksAtMost_bind (hwrite _ _) fun result => ?_
          cases result with
          | ok => exact hnext 1 (Nat.le_refl 1) hindex
          | error err => exact Dialogue.asksAtMost_pure _ _
        have htotal : c + (c + 2 * c * (left - 1)) = 2 * c * left := by
          obtain ⟨d, rfl⟩ := Nat.exists_eq_succ_of_ne_zero (show left ≠ 0 by omega)
          rw [Nat.succ_sub_one, Nat.mul_succ]
          omega
        rw [← htotal]
        refine Dialogue.asksAtMost_bind ?_ fun bulk => ?_
        · split
          · exact hwrite _ _
          · exact Dialogue.asksAtMost_pure _ _
        · cases bulk with
          | ok => exact (hnext _ hone hend).mono (Nat.le_add_left _ _)
          | error err => exact hsingle
      · exact Dialogue.asksAtMost_pure _ _

end Run

/-! ### Every pattern of outcomes -/

/-- A tag with all the writes that were tried on it, each with its success. -/
structure Written where
  memory : File Byte
  history : List (UnitWrite × Bool)

/-- One call of the unit writer. -/
def callUnit (unit : Word) (bytes : Frame) : Dialogue UnitWrite (Except String Unit) (Except String Unit) :=
  .ask ⟨unit.toNat, bytes⟩ .done

/-- A call that succeeds has stored its bytes in its units, a failed one some of them from the front. -/
def Stores (unitSize : Nat) (s : Written) (w : UnitWrite) (answer : Except String Unit) (t : Written) : Prop :=
  match answer with
  | .ok _ => t = ⟨patch s.memory ⟨w.unit * unitSize, w.data⟩, s.history ++ [(w, true)]⟩
  | .error _ => ∃ n, t = ⟨patch s.memory ⟨w.unit * unitSize, w.data.take n⟩, s.history ++ [(w, false)]⟩

/-- The write is of whole units from `first` on, `n` at most. -/
def UnitWrite.Within (first n unitSize : Nat) (w : UnitWrite) : Prop :=
  ∃ count, 1 ≤ count ∧ first ≤ w.unit ∧ w.unit + count ≤ first + n ∧ w.data.length = count * unitSize

theorem callUnit_asksAtMost (unit : Word) (bytes : Frame) : (callUnit unit bytes).AsksAtMost 1 :=
  fun answer => Dialogue.asksAtMost_pure 0 answer

theorem callUnit_holds (im : Image) (unit : Word) (chunk : Frame) (s : Written)
    (hs : ∀ x ∈ s.history, UnitWrite.Within im.firstUnit.toNat im.units im.unitSize.toNat x.1)
    (hpart : im.Part unit chunk) :
    (callUnit unit chunk).Holds (Stores im.unitSize.toNat)
      (fun t => ∀ x ∈ t.history, UnitWrite.Within im.firstUnit.toNat im.units im.unitSize.toNat x.1)
      (Wrote Written.memory (fun unit chunk t => t.history.getLast? = some (⟨unit.toNat, chunk⟩, false))
        im.unitSize.toNat s unit chunk) s := by
  obtain ⟨k, n, hpos, hmax, hend, hunit, rfl⟩ := hpart
  have hwithin : UnitWrite.Within im.firstUnit.toNat im.units im.unitSize.toNat ⟨unit.toNat, im.makeChunk k n⟩ :=
    ⟨n, hpos, show im.firstUnit.toNat ≤ unit.toNat by omega, show unit.toNat + n ≤ _ by omega,
      Image.length_makeChunk hpos hmax hend⟩
  have hall : ∀ ok, ∀ x ∈ s.history ++ [((⟨unit.toNat, im.makeChunk k n⟩ : UnitWrite), ok)],
      UnitWrite.Within im.firstUnit.toNat im.units im.unitSize.toNat x.1 := by
    intro ok x hx
    rcases List.mem_append.mp hx with hx | hx
    · exact hs x hx
    · obtain rfl := List.mem_singleton.mp hx
      exact hwithin
  refine ⟨hs, fun answer t hstep => ?_⟩
  cases answer with
  | ok =>
      obtain rfl : t = _ := hstep
      exact ⟨hall true, FileUpdate.agreeOutside_patch _ _ (Nat.le_refl _), FileUpdate.has_patch _ _⟩
  | error err =>
      obtain ⟨stored, rfl⟩ := hstep
      refine ⟨hall false, FileUpdate.agreeOutside_patch _ _ ?_, List.getLast?_concat⟩
      exact Nat.add_le_add_left (List.length_take_le' stored _) _

/-- **Bulk writes with fallback.** The writer ends after two calls a unit at most; it addresses no unit outside the
image; when it succeeds the units hold the image, zero-padded, and nothing else has changed; and it fails only
behind the failed write of a single unit. -/
theorem storage_write_units {firstUnit : Word} {unitSize : Byte} {bytes : Frame} {n : Nat}
    (hlen : bytes.length ≤ 0xFFFF) (hsize : 1 ≤ unitSize.toNat)
    (hn : n = (bytes.length + unitSize.toNat - 1) / unitSize.toNat) (hrange : firstUnit.toNat + n ≤ 0x10000)
    {memory : File Byte} {left : Dialogue UnitWrite (Except String Unit) (Except String Unit)} {s : Written}
    (hreach : Dialogue.Reaches (Stores unitSize.toNat) (storageWriteUnitsWithIo callUnit firstUnit unitSize bytes)
      ⟨memory, []⟩ left s) :
    (storageWriteUnitsWithIo callUnit firstUnit unitSize bytes).AsksAtMost (2 * n) ∧
      (∀ x ∈ s.history, UnitWrite.Within firstUnit.toNat n unitSize.toNat x.1) ∧
      (left = .done (.ok ()) →
        Has s.memory (firstUnit.toNat * unitSize.toNat)
            (bytes ++ List.replicate (n * unitSize.toNat - bytes.length) 0) ∧
          AgreeOutside memory s.memory (firstUnit.toNat * unitSize.toNat) ((firstUnit.toNat + n) * unitSize.toNat)) ∧
      (∀ err, left = .done (.error err) →
        ∃ w, s.history.getLast? = some (w, false) ∧ w.data.length = unitSize.toNat) := by
  have hunits : storageUnits bytes.length unitSize.toNat = n := by
    rw [hn]
    apply u16_of_le
    apply Nat.div_le_of_le_mul
    obtain ⟨d, hd⟩ := Nat.exists_eq_succ_of_ne_zero (Nat.ne_of_gt hsize)
    rw [hd, Nat.succ_eq_add_one, Nat.add_mul]
    omega
  rw [← hunits] at hrange
  obtain ⟨im, rfl, rfl, rfl, hloop⟩ := storageWriteUnitsWithIo_eq callUnit hsize hlen hrange
  obtain rfl : im.units = n := hunits
  rw [hloop] at hreach ⊢
  have hbegin := Image.storedTo_zero Written.memory im ⟨memory, []⟩
  have hholds := writeUnitsFrom_holds (callUnit_holds im) (Nat.zero_le _)
    (by simp : ∀ x ∈ (⟨memory, []⟩ : Written).history, _) hbegin
  obtain ⟨hhistory, hend⟩ := hholds.reaches hreach
  refine ⟨?_, hhistory, fun hok => ?_, fun err herr => ?_⟩
  · exact writeUnitsFrom_asksAtMost callUnit_asksAtMost im 0
  · obtain ⟨hagree, hmem⟩ := hend _ hok
    exact ⟨hmem, hagree⟩
  · obtain ⟨-, unit, chunk, -, hchunk, hlast⟩ := hend _ herr
    exact ⟨_, hlast, hchunk⟩

/-- Five bytes for two units of four. -/
def fiveBytes : Image := ⟨[1, 2, 3, 4, 5], 4, 4, by decide, by decide, by decide⟩

/-- The card takes no two units at a time: the first write fails with three of its bytes stored. -/
theorem storage_write_units_five : ∃ s : Written,
    s.history = [(⟨4, [1, 2, 3, 4, 5, 0, 0, 0]⟩, false), (⟨4, [1, 2, 3, 4]⟩, true), (⟨5, [5, 0, 0, 0]⟩, true)] ∧
      Has s.memory 16 [1, 2, 3, 4, 5, 0, 0, 0] ∧ ∀ x ∈ s.history, UnitWrite.Within 4 2 4 x.1 := by
  have hend : writeUnitsFrom callUnit fiveBytes 2 = pure (.ok ()) := by rw [writeUnitsFrom, if_neg (by decide)]
  have hlast : ∀ s : Written, Dialogue.Reaches (Stores 4) (writeUnitsFrom callUnit fiveBytes 1) s (.done (.ok ()))
      ⟨patch s.memory ⟨20, [5, 0, 0, 0]⟩, s.history ++ [(⟨5, [5, 0, 0, 0]⟩, true)]⟩ := by
    intro s
    rw [writeUnitsFrom, if_pos (by decide)]
    dsimp only
    rw [if_neg (show ¬ 1 < fiveBytes.chunkUnits 1 by decide)]
    refine .ask (.ok ()) rfl ?_
    change Dialogue.Reaches _ (writeUnitsFrom callUnit fiveBytes 2) _ _ _
    rw [hend]
    exact .here _ _
  have hrun : ∃ s : Written,
      s.history = [(⟨4, [1, 2, 3, 4, 5, 0, 0, 0]⟩, false), (⟨4, [1, 2, 3, 4]⟩, true), (⟨5, [5, 0, 0, 0]⟩, true)] ∧
        Dialogue.Reaches (Stores 4) (writeUnitsFrom callUnit fiveBytes 0) ⟨fun _ => 0xFF, []⟩ (.done (.ok ())) s := by
    rw [writeUnitsFrom, if_pos (by decide)]
    dsimp only
    rw [if_pos (show 1 < fiveBytes.chunkUnits 0 by decide)]
    refine ⟨_, ?_, .ask (.error "") ⟨3, rfl⟩ (.ask (.ok ()) rfl (hlast _))⟩
    decide
  obtain ⟨s, hhistory, hs⟩ := hrun
  have hreach : Dialogue.Reaches (Stores (4 : Byte).toNat) (storageWriteUnitsWithIo callUnit 4 4 [1, 2, 3, 4, 5])
      ⟨fun _ => 0xFF, []⟩ (.done (.ok ())) s := hs
  obtain ⟨-, hwithin, hstored, -⟩ := storage_write_units (n := 2) (by decide) (by decide) rfl (by decide) hreach
  exact ⟨s, hhistory, (hstored rfl).1, hwithin⟩

end NeroReader.HostStorage
