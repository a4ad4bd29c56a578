import NeroReader.ReaderNdef
import NeroReader.Type5Container

/-!
What the reader wrote, loaded again. The writer accepts a message whose TLV fits the data area, as far as its own
buffer goes; the loader's buffer also takes the capability container. On a Type 2 tag the data area ends before
either buffer does. On a Type 5 tag a message at the limit of the writer is longer than the loader looks.
-/

namespace NeroReader.Tags

open Ndef Storage
open FileUpdate (File Has AgreeOutside)
open HostStorage (applySystemInfo_cc applySystemInfoExt_cc resolveMlenOverflow_ccValid resolveMlenOverflow_ccLen ccLenOf
  ccLenOf_cases containerOf containerOf_congr containerOf_valid)

/-! ### A message behind a container -/

section Loaded

variable {memory : File Byte} {base ccLen n dstCap : Nat} {ndef : Frame}

theorem holds_of_has (hlen : ndef.length ≤ 0xFFFF) (hstored : Has memory (base + ccLen) (messageTlv ndef)) :
    ∃ field, tlvHeader ndef.length = tlvMessage :: field ∧
      Ndef.Holds memory (base + ccLen) (tlvEnvelopeLen ndef.length) [] field ndef := by
  obtain ⟨field, hfield, hheader⟩ := tlvHeader_field hlen
  refine ⟨field, hheader, .nil, hfield, ?_, ?_⟩
  · rw [messageTlv, hheader, FileUpdate.has_append] at hstored
    exact has_iff_bytesAt.mp hstored.1
  · have hcount := tlvHeader_length ndef.length
    rw [hheader, List.length_cons] at hcount
    simp only [List.nil_append, List.length_append, List.length_cons]
    omega

/-- **A loader returns the message** exactly when its bytes reach the end of the message's value. -/
theorem loadedMessage_iff (hlen : ndef.length ≤ 0xFFFF) (hstored : Has memory (base + ccLen) (messageTlv ndef))
    (hcc : 0 < ccLen) (hstart : ccLen ≤ n) (hn : n ≤ 0xFFFF) (hcap : ndef.length ≤ dstCap) :
    loadedMessage (returned (bytesAt memory base n)) ccLen dstCap = some ndef ↔
      ccLen + tlvEnvelopeLen ndef.length ≤ n + 1 := by
  obtain ⟨field, hheader, hholds⟩ := holds_of_has hlen hstored
  have hcount := tlvHeader_length ndef.length
  have hblock : ([] ++ (tlvMessage :: field ++ ndef)).length + 1 = tlvEnvelopeLen ndef.length := by
    rw [← hcount, hheader, List.nil_append, List.length_append]
  rw [returned, bytesAt_length, if_neg (by omega), loadedMessage,
    Option.filter_some_pos (by rw [bytesAt_length]; simpa using hstart)]
  dsimp only
  have hfinds := finds_iff base ccLen hholds hn hstart
  constructor
  · intro hload
    by_contra hshort
    rw [if_pos (fun hok => hshort (by have := hfinds.mp hok; omega))] at hload
    exact absurd hload (by simp)
  · intro hreach
    have hcovers : ([] ++ (tlvMessage :: field ++ ndef)).length ≤ n - ccLen := by omega
    obtain ⟨tlv, hfound, -, hspan, hvalue⟩ := findMessageTlv_ok (by rwa [bytesAt_length]) (by rwa [bytesAt_length])
      (show Tlv.find tlvMessage ((bytesAt memory base n).drop ccLen) = .value ndef by
        rw [bytesAt_drop]
        exact hholds.find hcovers)
    have hvalueLen : tlv.valueLen = ndef.length := by
      have := congrArg List.length hvalue
      rw [NdefTlv.value, List.length_take, List.length_drop] at this
      omega
    rw [hfound, if_neg (by simp), if_neg (by rw [hvalueLen]; omega), hvalue]

/-- The TLV stands at the front of its padded form. -/
theorem has_of_padded {off : Nat} {tlv : Frame} (h : Has memory off (padded tlv)) : Has memory off tlv := by
  rw [padded, FileUpdate.has_append] at h
  exact h.1

end Loaded

/-! ### Type 2 -/

/-- **An accepted Type 2 message** is written as its TLV, over pages of the data area. -/
theorem type2NdefTlv_spec {type2 : Type2Info} {ndef tlv : Frame} (h : type2NdefTlv type2 ndef = some tlv) :
    tlv = messageTlv ndef ∧ ndef.length ≤ 0xFFFF ∧ type2.ccValid = true ∧ type2.dataAreaSizeBytes ≠ 0 ∧
      tlvEnvelopeLen ndef.length ≤ type2.dataAreaSizeBytes.toNat ∧
      ∃ lastPage, readerType2LastPage type2 = some lastPage ∧
        lastPage.toNat = min (3 + (type2.dataAreaSizeBytes.toNat + 3) / 4) 225 ∧
        3 + units (tlvEnvelopeLen ndef.length) ≤ lastPage.toNat := by
  have harea := type2.dataAreaSizeBytes.isLt
  have hmax : readerType2RawReadMax = 916 := rfl
  rw [type2NdefTlv] at h
  split at h
  · exact absurd h (by simp)
  next hopen =>
    obtain ⟨hvalid, -, hne⟩ := not_or.mp hopen |>.imp_right not_or.mp
    dsimp only at h
    split at h
    · exact absurd h (by simp)
    next hok =>
      obtain ⟨hfits, hwritten, houtLen⟩ := @buildMessageTlv_ok ndef
        (List.replicate (min type2.dataAreaSizeBytes.toNat readerType2RawReadMax) 0)
        (by rw [List.length_replicate]; omega) (by simpa using hok)
      rw [List.length_replicate] at hfits
      rw [hwritten, houtLen] at h
      split at h
      swap
      · exact absurd h (by simp)
      next pagesNeeded lastPage hpages hlast =>
        split at h
        · exact absurd h (by simp)
        next hend =>
          obtain rfl := Option.some.inj h
          have hcount := ceilUnits_four_toNat hpages
          rw [BitVec.toNat_ofNat, Nat.mod_eq_of_lt (by omega)] at hcount
          have hlen := tlvHeader_length ndef.length
          have hlastPage : lastPage.toNat = min (3 + (type2.dataAreaSizeBytes.toNat + 3) / 4) 225 := by
            rw [readerType2LastPage, if_neg (not_or.mpr ⟨hvalid, hne⟩)] at hlast
            exact type2LastPage_toNat hlast
          obtain ⟨-, hend⟩ := not_or.mp hend
          rw [hlastPage, hcount, type2CcPrefixBytes] at hend
          refine ⟨rfl, by omega, by simpa using hvalid, hne, by omega, lastPage, hlast, hlastPage, ?_⟩
          rw [units, hlastPage]
          omega

/-- The tag answers for every page up to the end of its data area, and a READ brings four pages. Behind the end it
may answer what it likes. -/
structure Type2Loadable (memory : File Byte) (type2 : Type2Info) (transceive : Transceive) (family : Type2Family)
    (maxUserPage : Nat) : Prop where
  answers : Type2Answers memory (4 * (min (3 + (type2.dataAreaSizeBytes.toNat + 3) / 4) 225 + 1)) transceive
  complete : ∀ page ∈ type2.pagesToEnd,
    ∃ rx, (Type2Tag.over transceive family maxUserPage).read page = some rx ∧ t2tReadRespBytes ≤ rx.length

theorem Type2Answers.mono {memory : File Byte} {limit limit' : Nat} {transceive : Transceive}
    (h : Type2Answers memory limit transceive) (hle : limit' ≤ limit) : Type2Answers memory limit' transceive :=
  ⟨fun page rx hrx i hi hlimit => h.read page rx hrx i hi (by omega),
    fun first last rx hfirst hrx i hi hlimit => h.fastRead first last rx hfirst hrx i hi (by omega)⟩

theorem type2ApplyCc_size {cc : Frame} (h : (type2ApplyCc cc).ccValid = true) :
    (type2ApplyCc cc).dataAreaSizeBytes.toNat = 8 * (u8At cc 2).toNat := by
  rw [type2ApplyCc] at h ⊢
  split at h
  · exact absurd h (by simp)
  next hlen =>
    split at h
    · exact absurd h (by simp)
    next hmagic =>
      rw [if_neg hlen, if_neg hmagic]
      exact dataAreaSize_toNat _

/-- **Loading from a Type 2 tag** brings the message back exactly when the container opens reading. -/
theorem loadType2NdefMessage_iff {memory : File Byte} {type2 : Type2Info} {transceive : Transceive}
    {family : Type2Family}
    {maxUserPage dstCap : Nat} {ndef tlv : Frame} (fastReadAllowed : Bool)
    (hinfo : type2ApplyCc (bytesAt memory 12 4) = type2) (htlv : type2NdefTlv type2 ndef = some tlv)
    (hload : Type2Loadable memory type2 transceive family maxUserPage) (hstored : Has memory 16 tlv)
    (hpos : 0 < dstCap) (hcap : ndef.length ≤ dstCap) :
    loadType2NdefMessage (.over transceive family maxUserPage) fastReadAllowed dstCap = some ndef ↔
      type2.readAccessOpen = true := by
  obtain ⟨rfl, hlen, hvalid, hne, harea, lastPage, hlast, hlastPage, hpages⟩ := type2NdefTlv_spec htlv
  have hsize := type2.dataAreaSizeBytes.isLt
  rw [units] at hpages
  have hread (page : Nat) (hfirst : 3 ≤ page) (hend : page ≤ lastPage.toNat) :
      ∃ rx, (Type2Tag.over transceive family maxUserPage).read page = some rx ∧ t2tReadRespBytes ≤ rx.length :=
    hload.complete page ⟨hfirst, by omega, by omega⟩
  -- the container
  have hcc : type2StorageInfo ((Type2Tag.over transceive family maxUserPage).read type2CcPage) = some type2 := by
    obtain ⟨rx, hrx, hfull⟩ := hread 3 (Nat.le_refl 3) (by omega)
    rw [t2tReadRespBytes] at hfull
    have hcut := hload.answers.over_read (show 3 ≤ 0xFF by decide) hrx
    rw [type2CcPage, hrx, type2StorageInfo, Option.filter_some_pos (by rw [t2tPageSizeBytes]; simp; omega)]
    dsimp only
    rw [t2tPageSizeBytes, hcut.take (by omega) (by omega), hinfo, if_pos hvalid]
  have hrawCap : type2ReadCap type2 = some ((lastPage.toNat - 2) * 4) := by
    rw [type2ReadCap, hlast]
    dsimp only
    rw [type2CcPage, if_neg (by omega), t2tPageSizeBytes]
    congr 2
    omega
  -- the area
  generalize hrawLen : min (min (type2CcPrefixBytes + type2.dataAreaSizeBytes.toNat) readerType2RawReadMax)
    ((lastPage.toNat - 2) * 4) = rawLen
  have hmax : readerType2RawReadMax = 916 := rfl
  rw [type2CcPrefixBytes, hmax] at hrawLen
  have hunits : 3 + units rawLen ≤ lastPage.toNat + 1 := by
    rw [units]
    omega
  have hend : 3 + units rawLen ≤ 0x100 := by omega
  obtain ⟨n, hn, hle, -, hfull⟩ :=
    type2ReadBinary_bytes hend ((hload.answers.mono (by omega)).reads family maxUserPage) fastReadAllowed
  have hcovers := hfull (units rawLen) (Nat.le_refl _) fun page hfirst hend => hread page hfirst (by omega)
  rw [units] at hcovers
  rw [loadType2NdefMessage, hcc]
  dsimp only
  by_cases hopen : type2.readAccessOpen = true
  swap
  · rw [if_pos (Or.inr (Or.inr (Or.inl (by simpa using hopen))))]
    exact iff_of_false (by simp) hopen
  have hchecks :
      ¬(dstCap = 0 ∨ type2.ccValid = false ∨ type2.readAccessOpen = false ∨ type2.dataAreaSizeBytes = 0) := by
    rw [hvalid, hopen]
    simp only [Bool.true_eq_false, false_or, not_or]
    exact ⟨by omega, hne⟩
  have hword : type2CcPrefixBytes + type2.dataAreaSizeBytes.toNat ≤ 0xFFFF := by
    have hbyte := (u8At (bytesAt memory 12 4) 2).isLt
    rw [← hinfo, type2ApplyCc_size (by rw [hinfo, hvalid]), type2CcPrefixBytes]
    omega
  rw [if_neg hchecks, hrawCap]
  dsimp only
  rw [if_neg (Nat.not_lt.mpr hword), type2CcPrefixBytes, hmax, hrawLen, type2CcPage, hn]
  refine (loadedMessage_iff hlen hstored (by decide) (by omega) (by omega) hcap).trans (iff_of_true ?_ hopen)
  omega

theorem unitsFrom_pages {type2 : Type2Info} {ndef tlv : Frame} (htlv : type2NdefTlv type2 ndef = some tlv) :
    unitsFrom 4 tlv ⊆ type2.dataPages := by
  obtain ⟨rfl, -, -, -, -, lastPage, -, hlastPage, hpages⟩ := type2NdefTlv_spec htlv
  rintro u ⟨hfirst, hend⟩
  rw [messageTlv_length] at hend
  exact ⟨hfirst, by omega, by omega⟩

/-- The bytes of units that were not written are as they were. -/
theorem WroteWithin.bytesAt_eq {area : Set Nat} {s t : TagState} (h : WroteWithin area s t) {off len : Nat}
    (hout : ∀ i, off ≤ i → i < off + len → i / 4 ∉ area) : bytesAt t.memory off len = bytesAt s.memory off len := by
  refine List.map_congr_left fun i hi => h.outside _ (hout _ (Nat.le_add_right _ _) ?_)
  rw [List.mem_range] at hi
  omega

/-- **Writing a Type 2 tag** touches the data area only; a success has the accepted TLV stored. -/
theorem writes_writeType2NdefMessage (ndef : Frame) (s : TagState) :
    Writes Type2Step (type2ApplyCc (bytesAt s.memory 12 4)).dataPages (fun ok t => ok = true →
        ∃ tlv, type2NdefTlv (type2ApplyCc (bytesAt s.memory 12 4)) ndef = some tlv ∧ Has t.memory 16 tlv)
      (writeType2NdefMessage ndef) s := by
  refine (writes_readPage _ s).bind fun page3 t _ h => ?_
  obtain ⟨rfl, hcut⟩ := h
  cases hinfo : type2StorageInfo page3 with
  | none => exact writes_refused
  | some type2 =>
      have hcc : type2 = type2ApplyCc (bytesAt t.memory 12 4) := by
        rw [type2StorageInfo] at hinfo
        split at hinfo
        · exact absurd hinfo (by simp)
        next page hpage =>
          obtain ⟨rfl, hlong⟩ := Option.filter_eq_some_iff.mp hpage
          rw [decide_eq_true_eq, t2tPageSizeBytes] at hlong
          dsimp only at hinfo
          split at hinfo
          swap
          · exact absurd hinfo (by simp)
          obtain rfl := Option.some.inj hinfo
          exact congrArg type2ApplyCc ((hcut page rfl).take hlong (Nat.le_refl _))
      dsimp only
      cases htlv : type2NdefTlv type2 ndef with
      | none => exact writes_refused
      | some tlv =>
          subst hcc
          obtain ⟨rfl, -, -, -, harea, lastPage, -, hlastPage, hpages⟩ := type2NdefTlv_spec htlv
          have hcount := tlvHeader_length ndef.length
          have hsize := (type2ApplyCc (bytesAt t.memory 12 4)).dataAreaSizeBytes.isLt
          have hfirst : (BitVec.ofNat 16 type2FirstDataPage).toNat = 4 := rfl
          have hwrite := @writes_writeStorageTlvUnits Type2Step type2WriteUnit (messageTlv ndef)
            (BitVec.ofNat 16 type2FirstDataPage) writesUnit_type2 (by rw [messageTlv_length]; omega)
            (by rw [messageTlv_length]; omega) (by rw [messageTlv_length, hfirst]; omega) t
          refine Dialogue.Holds.mono hwrite (fun u hu => hu.mono (unitsFrom_pages htlv)) fun ok u _ hstored hok => ?_
          exact ⟨_, htlv, has_of_padded (hstored hok)⟩

/-! ### Type 5 -/

section Container

variable {memory : File Byte}

theorem ccPage_eq {off : Nat} {answer : Option Frame} {page : Frame}
    (hcut : ∀ rx, answer = some rx → CutFrom memory off (off + 4) rx) (h : ccPage answer = some page) :
    page = bytesAt memory off 4 := by
  obtain ⟨rx, hrx, rfl⟩ := Option.map_eq_some_iff.mp h
  obtain ⟨rfl, hlong⟩ := Option.filter_eq_some_iff.mp hrx
  rw [decide_eq_true_eq, t5tCcLenShort] at hlong
  exact (hcut rx rfl).take hlong (Nat.le_refl _)

theorem ccPage_of_cut {off : Nat} {rx : Frame} (hcut : CutFrom memory off (off + 4) rx) (hlong : 4 ≤ rx.length) :
    ccPage (some rx) = some (bytesAt memory off 4) := by
  rw [ccPage, t5tCcLenShort, Option.filter_some_pos (by simpa using hlong), Option.map_some,
    hcut.take hlong (Nat.le_refl _)]

theorem declaresTwoBlocks_iff : declaresTwoBlocks (bytesAt memory 0 4) = true ↔
    (memory 0 = forumCcMagic ∨ memory 0 = t5tCcMagic8Byte) ∧ memory 2 = 0 := by
  rw [declaresTwoBlocks, HostStorage.declaredCcLen_bytesAt memory (Nat.le_refl 4),
    u8At_bytesAt memory 0 (by decide), ccLenOf,
    Bool.and_eq_true, Bool.or_eq_true, beq_iff_eq, beq_iff_eq, beq_iff_eq, Nat.zero_add]
  refine and_congr_right fun _ => ?_
  split
  next hzero => exact iff_of_true rfl hzero
  next hne => exact iff_of_false (by decide) hne

/-- The first block alone, where it declares no second. -/
theorem short_container (h : declaresTwoBlocks (bytesAt memory 0 4) = false) :
    type5ApplyCc (bytesAt memory 0 4) = containerOf memory := by
  by_cases hmlen : memory 2 = 0
  · have hmagic : memory 0 ≠ forumCcMagic ∧ memory 0 ≠ t5tCcMagic8Byte := by
      rw [← not_or]
      intro hmagic
      rw [declaresTwoBlocks_iff.mpr ⟨hmagic, hmlen⟩] at h
      exact absurd h (by simp)
    have hcleared (n : Nat) (hn : 4 ≤ n) : type5ApplyCc (bytesAt memory 0 n) = clearedCc := by
      rw [type5ApplyCc, if_neg (by rw [bytesAt_length, t5tCcLenShort]; omega), u8At_bytesAt memory 0 (by omega),
        if_pos hmagic]
    rw [containerOf, hcleared 4 (Nat.le_refl 4), hcleared 8 (by decide)]
  · have hne : u8At (bytesAt memory 0 8) 2 ≠ 0 := by rwa [u8At_bytesAt memory 0 (by decide)]
    rw [containerOf, HostStorage.type5ApplyCc_take (by rw [bytesAt_length]; decide) hne,
      bytesAt_take memory 0 (by decide)]

/-- The first block of an extended container declares nothing without the second. -/
theorem cut_container (h : declaresTwoBlocks (bytesAt memory 0 4) = true) :
    (type5ApplyCc (bytesAt memory 0 4)).ccValid = false := by
  have hmlen : u8At (bytesAt memory 0 4) 2 = 0 := by
    rw [u8At_bytesAt memory 0 (by decide)]
    exact (declaresTwoBlocks_iff.mp h).2
  rw [type5ApplyCc, if_neg (by rw [bytesAt_length]; decide)]
  split
  · rfl
  · rw [if_pos ⟨hmlen, by rw [bytesAt_length]; decide⟩]
    rfl

/-- A reader that is answered has the container. -/
theorem readType5Cc_answered {readBlock : Word → Option Frame}
    (h : ∀ block : Word, block.toNat < ccLenOf memory / 4 → ∃ rx, readBlock block = some rx ∧ 4 ≤ rx.length ∧
      CutFrom memory (4 * block.toNat) (4 * block.toNat + 4) rx) :
    @readType5Cc Id _ readBlock = containerOf memory := by
  have hlen := ccLenOf_cases memory
  obtain ⟨rx, hrx, hlong, hcut⟩ := h 0 (by rw [show (0 : Word).toNat = 0 from rfl]; omega)
  have hpage0 : ccPage (readBlock 0) = some (bytesAt memory 0 4) := by
    rw [hrx]
    exact ccPage_of_cut hcut hlong
  have hbind : ∀ {α β : Type} (answer : Id α) (next : α → Id β), answer >>= next = next answer := fun _ _ => rfl
  have hpure : ∀ {α : Type} (info : α), (pure info : Id α) = info := fun _ => rfl
  simp only [readType5Cc, hbind, hpure, hpage0]
  split
  next htwo =>
    have height : ccLenOf memory = 8 := by rw [ccLenOf, if_pos (declaresTwoBlocks_iff.mp htwo).2]; rfl
    obtain ⟨rx', hrx', hlong', hcut'⟩ := h 1 (by rw [height, show (1 : Word).toNat = 1 from rfl]; decide)
    rw [hrx', ccPage_of_cut hcut' hlong']
    dsimp only
    rw [show 4 * (1 : Word).toNat = 0 + 4 from rfl, bytesAt_append]
    rfl
  next hone => exact short_container (by simpa using hone)

end Container

section Info

variable {uid : Frame} {systemInfo systemInfoExt : Option Frame}

theorem writes_readType5Cc {units : Set Nat} (s : TagState) :
    Writes (Type5Step uid systemInfo systemInfoExt) units
      (fun cc t => t = s ∧ (cc.ccValid = true → cc = containerOf s.memory)) (readType5Cc (readBlock uid)) s := by
  refine (writes_readBlock 0 s).bind fun answer t _ h => ?_
  obtain ⟨rfl, hcut⟩ := h
  cases hpage0 : ccPage answer with
  | none => exact writes_pure ⟨rfl, fun h => absurd h (by simp [clearedCc])⟩
  | some page0 =>
      obtain rfl := ccPage_eq hcut hpage0
      dsimp only
      split
      swap
      next hone => exact writes_pure ⟨rfl, fun _ => short_container (by simpa using hone)⟩
      next htwo =>
        refine (writes_readBlock 1 t).bind fun answer u _ h => ?_
        obtain ⟨rfl, hcut⟩ := h
        cases hpage1 : ccPage answer with
        | none =>
            refine writes_pure ⟨rfl, fun hvalid => ?_⟩
            rw [show 4 * (0 : Word).toNat = 0 from rfl, cut_container htwo] at hvalid
            exact absurd hvalid (by simp)
        | some page1 =>
            obtain rfl := ccPage_eq hcut hpage1
            refine writes_pure ⟨rfl, fun _ => ?_⟩
            rw [show 4 * (0 : Word).toNat = 0 from rfl, show 4 * (1 : Word).toNat = 0 + 4 from rfl, bytesAt_append]
            rfl

/-- What a tag is known to be once its container and its system information are read. -/
def type5InfoOf (memory : File Byte) (systemInfo systemInfoExt : Option Frame) : Type5Info :=
  @addSystemInfo Id _ { toType5Cc := containerOf memory, blockSize := 0, blockCount := 0 } systemInfo systemInfoExt

/-- The system information tells nothing of the container but the size of its area. -/
theorem addSystemInfo_cc (info : Type5Info) :
    (@addSystemInfo Id _ info systemInfo systemInfoExt : Type5Info).ccValid = info.ccValid ∧
      (@addSystemInfo Id _ info systemInfo systemInfoExt : Type5Info).ccLen = info.ccLen := by
  have hkeeps (cc : Type5Cc) (last : Type5Info) (h : last.toType5Cc = cc) :
      (HostStorage.resolveMlenOverflow last).ccValid = cc.ccValid ∧
      (HostStorage.resolveMlenOverflow last).ccLen = cc.ccLen := by
    rw [resolveMlenOverflow_ccValid, resolveMlenOverflow_ccLen, h]
    exact ⟨rfl, rfl⟩
  dsimp only [addSystemInfo, bind, pure]
  split
  next => exact ⟨rfl, rfl⟩
  next =>
    split
    swap
    next => exact hkeeps _ _ (applySystemInfo_cc _ _)
    split
    next => exact hkeeps _ _ (applySystemInfo_cc _ _)
    next => exact hkeeps _ _ ((applySystemInfoExt_cc _ _).trans (applySystemInfo_cc _ _))

theorem writes_addSystemInfo {units : Set Nat} (info : Type5Info) (s : TagState) :
    Writes (Type5Step uid systemInfo systemInfoExt) units
      (fun r t => t = s ∧ r = @addSystemInfo Id _ info systemInfo systemInfoExt)
      (addSystemInfo info (send (systemInfoCommand uid)) (send (systemInfoExtCommand uid))) s := by
  refine Writes.bind (writes_send_read fun answer t hstep => hstep.systemInfo rfl) fun answer t _ h => ?_
  obtain ⟨rfl, rfl⟩ := h
  dsimp only [addSystemInfo, bind, pure]
  cases answer.filter (HostStorage.systemInfoResponseOk HostStorage.sysInfoMinReplyLen) with
  | none => exact writes_pure ⟨rfl, rfl⟩
  | some raw =>
      dsimp only
      split
      swap
      next => exact writes_pure ⟨rfl, rfl⟩
      next =>
        refine Writes.bind (writes_send_read fun answer u hstep => hstep.systemInfoExt rfl) fun answer u _ h => ?_
        obtain ⟨rfl, rfl⟩ := h
        cases answer.filter (HostStorage.systemInfoResponseOk HostStorage.extSysInfoMinReplyLen) with
        | none => exact writes_pure ⟨rfl, rfl⟩
        | some rawExt => exact writes_pure ⟨rfl, rfl⟩

theorem writes_getType5Info {units : Set Nat} (s : TagState) :
    Writes (Type5Step uid systemInfo systemInfoExt) units
      (fun r t => t = s ∧ (r.ccValid = true → r = type5InfoOf s.memory systemInfo systemInfoExt))
      (getType5Info (readBlock uid) (send (systemInfoCommand uid)) (send (systemInfoExtCommand uid))) s := by
  refine (writes_readType5Cc s).bind fun cc t _ h => ?_
  obtain ⟨rfl, hcc⟩ := h
  refine (writes_addSystemInfo _ t).mono fun r u _ h => ?_
  obtain ⟨rfl, rfl⟩ := h
  refine ⟨rfl, fun hvalid => ?_⟩
  rw [(addSystemInfo_cc _).1] at hvalid
  rw [hcc hvalid]
  rfl

/-- The length of the container on the tag. -/
theorem type5CcByteLen_infoOf {memory : File Byte} (h : (type5InfoOf memory systemInfo systemInfoExt).ccValid = true) :
    (type5CcByteLen (type5InfoOf memory systemInfo systemInfoExt)).toNat = ccLenOf memory := by
  obtain ⟨hvalid, hlen⟩ := @addSystemInfo_cc systemInfo systemInfoExt
    { toType5Cc := containerOf memory, blockSize := 0, blockCount := 0 }
  have hcontainer := (containerOf_valid (hvalid.symm.trans h)).1
  have hcases := ccLenOf_cases memory
  have hne : (type5InfoOf memory systemInfo systemInfoExt).ccLen ≠ 0 := by
    intro hzero
    rw [← show (type5InfoOf memory systemInfo systemInfoExt).ccLen = (containerOf memory).ccLen from hlen, hzero,
      show (0 : Byte).toNat = 0 from rfl] at hcontainer
    omega
  rw [type5CcByteLen, if_neg (by rw [h]; simp), if_pos hne, BitVec.zeroExtend_eq_setWidth,
    BitVec.toNat_setWidth_of_le (by decide), ← hcontainer]
  exact congrArg BitVec.toNat hlen

end Info

/-- **An accepted Type 5 message** is written as its TLV, behind the container and over blocks of the data area. -/
theorem type5NdefTlv_spec {type5 : Type5Info} {ndef tlv : Frame} {startBlock : Word}
    (h : type5NdefTlv type5 ndef = some (tlv, startBlock)) :
    tlv = messageTlv ndef ∧ type5.ccValid = true ∧ type5.dataAreaSizeBytes ≠ 0 ∧
      tlvEnvelopeLen ndef.length ≤ min type5.dataAreaSizeBytes.toNat ndefBufMax ∧
      0 < startBlock.toNat ∧ 4 * startBlock.toNat = (type5CcByteLen type5).toNat ∧
      startBlock.toNat + units (tlvEnvelopeLen ndef.length) ≤ 0x10000 ∧
      ∀ block < startBlock.toNat + units (tlvEnvelopeLen ndef.length), block ∈ type5.blocksToEnd := by
  have harea := type5.dataAreaSizeBytes.isLt
  have hmax : ndefBufMax = 1024 := rfl
  rw [type5NdefTlv] at h
  split at h
  · exact absurd h (by simp)
  next hopen =>
    obtain ⟨hvalid, -, hne⟩ := not_or.mp hopen |>.imp_right not_or.mp
    split at h
    · exact absurd h (by simp)
    next =>
      dsimp only at h
      split at h
      · exact absurd h (by simp)
      next hok =>
        obtain ⟨hfits, hwritten, houtLen⟩ := @buildMessageTlv_ok ndef
          (List.replicate (min type5.dataAreaSizeBytes.toNat ndefBufMax) 0)
          (by rw [List.length_replicate]; omega) (by simpa using hok)
        rw [List.length_replicate] at hfits
        rw [hwritten, houtLen] at h
        split at h
        swap
        · exact absurd h (by simp)
        next first last blocksNeeded hblocks hneeded =>
          split at h
          · exact absurd h (by simp)
          next hend =>
            obtain ⟨rfl, rfl⟩ := Prod.mk.inj (Option.some.inj h)
            obtain ⟨hne', hend⟩ := not_or.mp hend
            have hcount := ceilUnits_four_toNat hneeded
            rw [BitVec.toNat_ofNat, Nat.mod_eq_of_lt (by omega)] at hcount
            rw [hcount] at hend
            have hlen := tlvHeader_length ndef.length
            obtain ⟨hfirst, hlast, hlimit⟩ := type5DataBlocks_spec hblocks
            obtain ⟨hccPos, hccWhole⟩ := type5DataBlocks_cc hblocks
            have hword := last.isLt
            rw [units]
            refine ⟨rfl, by simpa using hvalid, hne, hfits, by omega, by omega, by omega, fun block hblock => ?_⟩
            refine ⟨by omega, fun hcounted => ?_⟩
            have := hlimit hcounted
            omega

/-- The tag answers for every block up to the end of its data area. -/
structure Type5Loadable (memory : File Byte) (uid : Frame) (systemInfo systemInfoExt : Option Frame) (wide : Bool)
    (transceive : Transceive) : Prop where
  answers : Type5Answers memory uid wide transceive
  complete : ∀ block ∈ (type5InfoOf memory systemInfo systemInfoExt).blocksToEnd,
    ∃ rx, (Type5Tag.over transceive uid).readBlock block = some rx ∧ t5UserBlockSize ≤ rx.length

/-- The loader's buffer takes the container and the message, and a word counts the bytes of both. -/
def LoaderReaches (type5 : Type5Info) (ndefLen : Nat) : Prop :=
  (type5CcByteLen type5).toNat + type5.dataAreaSizeBytes.toNat ≤ 0xFFFF ∧
    (type5CcByteLen type5).toNat + tlvEnvelopeLen ndefLen ≤ ndefBufMax + 1

/-- **Loading from a Type 5 tag** brings the message back exactly when the container opens reading and the loader
reaches its end. -/
theorem loadType5NdefMessage_iff {memory : File Byte} {uid : Frame} {systemInfo systemInfoExt : Option Frame}
    {wide : Bool} {transceive : Transceive} {dstCap : Nat} {ndef tlv : Frame} {startBlock : Word} (disabled : Bool)
    (htlv : type5NdefTlv (type5InfoOf memory systemInfo systemInfoExt) ndef = some (tlv, startBlock))
    (hload : Type5Loadable memory uid systemInfo systemInfoExt wide transceive)
    (hstored : Has memory (4 * startBlock.toNat) tlv) (hpos : 0 < dstCap) (hcap : ndef.length ≤ dstCap) :
    loadType5NdefMessage (.over transceive uid) systemInfo systemInfoExt disabled dstCap = some ndef ↔
      (type5InfoOf memory systemInfo systemInfoExt).readAccessOpen = true ∧
        LoaderReaches (type5InfoOf memory systemInfo systemInfoExt) ndef.length := by
  obtain ⟨rfl, hvalid, hne, harea, hstart, hcc, hend, hblocks⟩ := type5NdefTlv_spec htlv
  have hmax : ndefBufMax = 1024 := rfl
  have hccLen := type5CcByteLen_infoOf hvalid
  have hcases := ccLenOf_cases memory
  have hsize := (type5InfoOf memory systemInfo systemInfoExt).dataAreaSizeBytes.isLt
  have hcount := tlvHeader_length ndef.length
  rw [units] at hend hblocks
  have hinfo : @getType5Info Id _ (fun block => (Type5Tag.over transceive uid).readBlock block.toNat) systemInfo
      systemInfoExt = type5InfoOf memory systemInfo systemInfoExt := by
    have hread : @readType5Cc Id _ (fun block => (Type5Tag.over transceive uid).readBlock block.toNat) =
        containerOf memory := by
      refine readType5Cc_answered fun block hblock => ?_
      obtain ⟨rx, hrx, hlong⟩ := hload.complete block.toNat (hblocks _ (by omega))
      exact ⟨rx, hrx, hlong, hload.answers.over_readBlock block.isLt hrx⟩
    change @addSystemInfo Id _ { toType5Cc := @readType5Cc Id _ _, blockSize := 0, blockCount := 0 } _ _ = _
    rw [hread]
    rfl
  rw [loadType5NdefMessage, hinfo]
  dsimp only
  have hreadable := hload.complete
  clear hinfo
  generalize type5InfoOf memory systemInfo systemInfoExt = type5 at *
  by_cases hopen : type5.readAccessOpen = true
  swap
  · rw [if_pos (Or.inr (Or.inr (Or.inl (by simpa using hopen))))]
    exact iff_of_false (by simp) fun h => hopen h.1
  have hchecks :
      ¬(dstCap = 0 ∨ type5.ccValid = false ∨ type5.readAccessOpen = false ∨ type5.dataAreaSizeBytes = 0) := by
    rw [hvalid, hopen]
    simp only [Bool.true_eq_false, false_or, not_or]
    exact ⟨by omega, hne⟩
  rw [if_neg hchecks]
  by_cases hword : (type5CcByteLen type5).toNat + type5.dataAreaSizeBytes.toNat ≤ 0xFFFF
  swap
  · rw [if_pos (Or.inr (Nat.lt_of_not_le hword))]
    exact iff_of_false (by simp) fun h => hword h.2.1
  rw [if_neg (by omega)]
  -- what the loader reads
  generalize hrawLen : min ((type5CcByteLen type5).toNat + type5.dataAreaSizeBytes.toNat) ndefBufMax = rawLen
  rw [hmax] at hrawLen harea
  have hspan : 0 + units rawLen ≤ 0x10000 := by
    rw [units]
    omega
  have hcross : ¬ CrossesOneByte 0 rawLen := by
    rw [CrossesOneByte, t5UserBlockSize]
    omega
  obtain ⟨n, hn, hle, -, hfull⟩ := type5ReadBinary_bytes hspan hload.answers.reads (Or.inr (Or.inr hcross))
  have hcovers := hfull (startBlock.toNat + (tlvEnvelopeLen ndef.length + 3) / 4)
    fun block _ hblock => hreadable block (hblocks block (by omega))
  rw [hn, Nat.mul_zero]
  refine (loadedMessage_iff (by omega) (by rwa [Nat.zero_add, ← hcc]) (by omega) (by omega) (by omega) hcap).trans ?_
  rw [LoaderReaches, hmax]
  constructor
  · intro hreach
    exact ⟨hopen, hword, by omega⟩
  · rintro ⟨-, -, hreach⟩
    omega

theorem unitsFrom_blocks {type5 : Type5Info} {ndef tlv : Frame} {startBlock : Word}
    (htlv : type5NdefTlv type5 ndef = some (tlv, startBlock)) : unitsFrom startBlock.toNat tlv ⊆ type5.dataBlocks := by
  obtain ⟨rfl, -, -, -, -, hcc, -, hblocks⟩ := type5NdefTlv_spec htlv
  rintro u ⟨hfirst, hend⟩
  rw [messageTlv_length] at hend
  have hbehind : (type5CcByteLen type5).toNat / 4 ≤ u := by omega
  exact ⟨hbehind, hblocks u hend⟩

/-- The container stays under writes behind it. -/
theorem type5InfoOf_congr {systemInfo systemInfoExt : Option Frame} {s t : TagState}
    (hvalid : (type5InfoOf s.memory systemInfo systemInfoExt).ccValid = true)
    (h : WroteWithin (type5InfoOf s.memory systemInfo systemInfoExt).dataBlocks s t) :
    type5InfoOf t.memory systemInfo systemInfoExt = type5InfoOf s.memory systemInfo systemInfoExt := by
  have hcc := type5CcByteLen_infoOf hvalid
  have hsame : containerOf t.memory = containerOf s.memory := by
    refine containerOf_congr fun i hi => h.outside i fun hmem => ?_
    have hlow : (type5CcByteLen (type5InfoOf s.memory systemInfo systemInfoExt)).toNat / 4 ≤ i / 4 := hmem.1
    have hcases := ccLenOf_cases s.memory
    omega
  rw [type5InfoOf, type5InfoOf, hsame]

/-- **Writing a Type 5 tag** touches the data area only; a success has the accepted TLV stored. -/
theorem writes_writeType5NdefMessage {uid : Frame} {systemInfo systemInfoExt : Option Frame} (ndef : Frame)
    (s : TagState) :
    Writes (Type5Step uid systemInfo systemInfoExt) (type5InfoOf s.memory systemInfo systemInfoExt).dataBlocks
      (fun ok t => ok = true → ∃ tlv startBlock,
        type5NdefTlv (type5InfoOf s.memory systemInfo systemInfoExt) ndef = some (tlv, startBlock) ∧
          Has t.memory (4 * startBlock.toNat) tlv)
      (writeType5NdefMessage uid ndef) s := by
  refine (writes_getType5Info s).bind fun type5 t _ h => ?_
  obtain ⟨rfl, hinfo⟩ := h
  cases htlv : type5NdefTlv type5 ndef with
  | none => exact writes_refused
  | some plan =>
      obtain ⟨tlv, startBlock⟩ := plan
      have hvalid := (type5NdefTlv_spec htlv).2.1
      obtain rfl := hinfo hvalid
      obtain ⟨rfl, -, -, harea, -, -, hend, -⟩ := type5NdefTlv_spec htlv
      have hcount := tlvHeader_length ndef.length
      have hsize := (type5InfoOf t.memory systemInfo systemInfoExt).dataAreaSizeBytes.isLt
      have hwrite := @writes_writeStorageTlvUnits (Type5Step uid systemInfo systemInfoExt) (type5WriteBlock uid)
        (messageTlv ndef) startBlock writesUnit_type5 (by rw [messageTlv_length]; omega)
          (by rw [messageTlv_length]; omega)
        (by rwa [messageTlv_length]) t
      refine Dialogue.Holds.mono hwrite (fun u hu => hu.mono (unitsFrom_blocks htlv)) fun ok u _ hstored hok => ?_
      exact ⟨_, _, htlv, has_of_padded (hstored hok)⟩

/-! ### A tag that answers -/

/-- A front end with a tag that answers the reads of single blocks. -/
def singleReads (memory : File Byte) : Transceive := fun cmd =>
  if cmd.take 2 = [iso15693FlagsAddressed, iso15693CmdReadSingleBlock] then
    some (0 :: bytesAt memory (4 * (u8At cmd (cmd.length - 1)).toNat) 4)
  else if cmd.take 2 = [iso15693FlagsAddressed ||| iso15693FlagProtocolExtension, iso15693CmdExtReadSingle] then
    some (0 :: bytesAt memory (4 * (bigEndian (u8At cmd (cmd.length - 1)) (u8At cmd (cmd.length - 2))).toNat) 4)
  else none

section SingleReads

variable {memory : File Byte} (uid : Frame)

theorem singleReads_block (block : Byte) :
    singleReads memory (readBlockCommand uid block) = some (0 :: bytesAt memory (4 * block.toNat) 4) := by
  have hhead : (readBlockCommand uid block).take 2 = [iso15693FlagsAddressed, iso15693CmdReadSingleBlock] := rfl
  have hlast : u8At (readBlockCommand uid block) ((readBlockCommand uid block).length - 1) = block := by
    rw [readBlockCommand, List.length_append, List.length_singleton, Nat.add_sub_cancel,
      u8At_append_right _ _ (Nat.le_refl _), Nat.sub_self]
    rfl
  rw [singleReads, if_pos hhead, hlast]

theorem singleReads_extBlock (block : Word) :
    singleReads memory (extReadBlockCommand uid block) = some (0 :: bytesAt memory (4 * block.toNat) 4) := by
  have hhead : (extReadBlockCommand uid block).take 2 =
      [iso15693FlagsAddressed ||| iso15693FlagProtocolExtension, iso15693CmdExtReadSingle] := rfl
  have hlen : (extReadBlockCommand uid block).length = 2 + uid.length + 2 := by
    simp only [extReadBlockCommand, List.length_append, List.length_cons, List.length_nil, List.length_reverse]
  have htail (i : Nat) : u8At (extReadBlockCommand uid block) (2 + uid.length + i) =
      u8At [block.setWidth 8, (block >>> 8).setWidth 8] i := by
    rw [extReadBlockCommand, u8At_append_right _ _ (by simp; omega)]
    congr 1
    simp only [List.length_append, List.length_cons, List.length_nil, List.length_reverse]
    omega
  have hword : bigEndian ((block >>> 8).setWidth 8) (block.setWidth 8) = block := by
    apply BitVec.eq_of_toNat_eq
    have hlt := block.isLt
    rw [bigEndian_toNat, BitVec.toNat_setWidth, BitVec.toNat_setWidth, BitVec.toNat_ushiftRight,
      Nat.shiftRight_eq_div_pow]
    omega
  rw [singleReads, if_neg (by rw [hhead]; decide), if_pos hhead, hlen,
    show 2 + uid.length + 2 - 1 = 2 + uid.length + 1 by omega,
      show 2 + uid.length + 2 - 2 = 2 + uid.length + 0 by omega,
    htail, htail]
  exact congrArg (fun w : Word => some (0 :: bytesAt memory (4 * w.toNat) 4)) hword

theorem dataCutFrom_bytesAt (off : Nat) : DataCutFrom memory off (off + 4) (some (0 :: bytesAt memory off 4)) := by
  intro flags data h _ i hi _
  obtain ⟨-, rfl⟩ := List.cons.inj (Option.some.inj h)
  rw [bytesAt_length] at hi
  exact u8At_bytesAt memory off hi

theorem singleReads_answers : Type5Answers memory uid false (singleReads memory) := by
  refine ⟨fun block => ?_, fun block => ?_, fun firstBlock countField flags data h => ?_,
    fun firstBlock countField flags data h => ?_⟩
  · rw [singleReads_block]
    exact dataCutFrom_bytesAt _
  · rw [singleReads_extBlock]
    exact dataCutFrom_bytesAt _
  · exact absurd h (by simp [singleReads, readMultipleCommand, iso15693FlagsAddressed, iso15693FlagProtocolExtension,
      iso15693CmdReadSingleBlock, iso15693CmdReadMultiple])
  · exact absurd h (by simp [singleReads, extReadMultipleCommand, iso15693FlagsAddressed, iso15693FlagProtocolExtension,
      iso15693CmdExtReadSingle, iso15693CmdExtReadMultiple])

theorem answerData_bytesAt (off : Nat) : answerData (some (0 :: bytesAt memory off 4)) (iso15693MinStatusRx - 1)
    t5UserBlockSize = some (bytesAt memory off 4) := by
  rw [answerData, Option.bind_some, if_neg, List.drop_succ_cons, List.drop_zero, List.take_of_length_le]
  · rw [bytesAt_length, t5UserBlockSize]
  · rw [List.length_cons, bytesAt_length, u8At_cons_zero]
    decide

theorem singleReads_userRead (block : Word) :
    userRead (singleReads memory) uid block = some (bytesAt memory (4 * block.toNat) 4) := by
  have hext : iso15693ExtReadBlock (singleReads memory) uid block = some (bytesAt memory (4 * block.toNat) 4) := by
    rw [iso15693ExtReadBlock, singleReads_extBlock, answerData_bytesAt]
  rw [userRead]
  split
  next hshort =>
    have hbyte : (block.setWidth 8).toNat = block.toNat := toNat_lowByte hshort
    rw [iso15693ReadBlock, singleReads_block, answerData_bytesAt, hbyte]
  next => exact hext

/-! ### Its runs -/

/-- The heads of the commands tell them apart. -/
inductive HeadOf : Frame → Frame → Prop where
  | read (block : Byte) : HeadOf [iso15693FlagsAddressed, iso15693CmdReadSingleBlock] (readBlockCommand uid block)
  | extRead (block : Word) :
      HeadOf [iso15693FlagsAddressed ||| iso15693FlagProtocolExtension, iso15693CmdExtReadSingle]
        (extReadBlockCommand uid block)
  | write (block : Byte) (data : Frame) :
      HeadOf [iso15693FlagsAddressed, iso15693CmdWriteSingleBlock] (writeBlockCommand uid block data)
  | extWrite (block : Word) (data : Frame) :
      HeadOf [iso15693FlagsAddressed ||| iso15693FlagProtocolExtension, iso15693CmdExtWriteSingle]
        (extWriteBlockCommand uid block data)
  | systemInfo : HeadOf [iso15693FlagsAddressed, iso15693CmdGetSysInfo] (systemInfoCommand uid)
  | systemInfoExt :
      HeadOf [iso15693FlagsAddressed ||| iso15693FlagProtocolExtension, iso15693CmdExtGetSysInfo]
        (systemInfoExtCommand uid)

variable {uid} in
theorem HeadOf.ne {head head' cmd cmd' : Frame} (h : HeadOf uid head cmd) (h' : HeadOf uid head' cmd')
    (hne : head ≠ head') : Request.command cmd ≠ .command cmd' := by
  intro heq
  have htake : ∀ {head cmd}, HeadOf uid head cmd → cmd.take 2 = head := by
    intro head cmd h
    cases h <;> rfl
  rw [Request.command.injEq] at heq
  exact hne (by rw [← htake h, ← htake h', heq])

variable {uid} {s : TagState}

theorem steps_read (block : Byte) :
    Type5Step uid none none s (.command (readBlockCommand uid block))
      (singleReads s.memory (readBlockCommand uid block)) s := by
  have hhead : HeadOf uid _ _ := .read block
  refine ⟨fun other h => ⟨rfl, ?_⟩, fun other h => absurd h (hhead.ne (.extRead other) (by decide)),
    fun other data _ h => absurd h (hhead.ne (.write other data) (by decide)),
    fun other data _ h => absurd h (hhead.ne (.extWrite other data) (by decide)),
    fun h => absurd h (hhead.ne .systemInfo (by decide)), fun h => absurd h (hhead.ne .systemInfoExt (by decide))⟩
  rw [Request.command.inj h]
  exact (singleReads_answers uid).readBlock other

theorem steps_extRead (block : Word) :
    Type5Step uid none none s (.command (extReadBlockCommand uid block))
      (singleReads s.memory (extReadBlockCommand uid block)) s := by
  have hhead : HeadOf uid _ _ := .extRead block
  refine ⟨fun other h => absurd h (hhead.ne (.read other) (by decide)), fun other h => ⟨rfl, ?_⟩,
    fun other data _ h => absurd h (hhead.ne (.write other data) (by decide)),
    fun other data _ h => absurd h (hhead.ne (.extWrite other data) (by decide)),
    fun h => absurd h (hhead.ne .systemInfo (by decide)), fun h => absurd h (hhead.ne .systemInfoExt (by decide))⟩
  rw [Request.command.inj h]
  exact (singleReads_answers uid).extReadBlock other

/-- The tag with a block written. -/
def TagState.write (s : TagState) (block : Nat) (data : Frame) : TagState :=
  ⟨FileUpdate.patch s.memory ⟨4 * block, data⟩, s.written ++ [block]⟩

theorem steps_write (block : Byte) {data : Frame} (hdata : data.length = 4) :
    Type5Step uid none none s (.command (writeBlockCommand uid block data)) (some [0]) (s.write block.toNat data) := by
  have hhead : HeadOf uid _ _ := .write block data
  refine ⟨fun other h => absurd h (hhead.ne (.read other) (by decide)),
    fun other h => absurd h (hhead.ne (.extRead other) (by decide)), fun other data' _ h => ?_,
    fun other data' _ h => absurd h (hhead.ne (.extWrite other data') (by decide)),
    fun h => absurd h (hhead.ne .systemInfo (by decide)), fun h => absurd h (hhead.ne .systemInfoExt (by decide))⟩
  have hbytes := Request.command.inj h
  simp only [writeBlockCommand, List.append_assoc, List.append_cancel_left_eq, List.singleton_append,
    List.cons.injEq] at hbytes
  obtain ⟨rfl, rfl⟩ := hbytes
  exact ⟨rfl, FileUpdate.agreeOutside_patch _ _ (by rw [hdata])⟩

theorem steps_extWrite (block : Word) {data : Frame} (hdata : data.length = 4) :
    Type5Step uid none none s (.command (extWriteBlockCommand uid block data)) (some [0])
      (s.write block.toNat data) := by
  have hhead : HeadOf uid _ _ := .extWrite block data
  refine ⟨fun other h => absurd h (hhead.ne (.read other) (by decide)),
    fun other h => absurd h (hhead.ne (.extRead other) (by decide)),
    fun other data' _ h => absurd h (hhead.ne (.write other data') (by decide)), fun other data' _ h => ?_,
    fun h => absurd h (hhead.ne .systemInfo (by decide)), fun h => absurd h (hhead.ne .systemInfoExt (by decide))⟩
  have hbytes := Request.command.inj h
  simp only [extWriteBlockCommand, List.append_assoc, List.append_cancel_left_eq, List.cons_append, List.nil_append,
    List.cons.injEq] at hbytes
  obtain ⟨-, -, hlow, hhigh, rfl⟩ := hbytes
  obtain rfl : block = other := by
    apply BitVec.eq_of_toNat_eq
    have hlow' := congrArg BitVec.toNat hlow
    have hhigh' := congrArg BitVec.toNat hhigh
    have hblock := block.isLt
    have hother := other.isLt
    simp only [BitVec.toNat_setWidth, BitVec.toNat_ushiftRight, Nat.shiftRight_eq_div_pow] at hlow' hhigh'
    omega
  exact ⟨rfl, FileUpdate.agreeOutside_patch _ _ (by rw [hdata])⟩

theorem reaches_send {cmd : Frame} {answer : Option Frame} {t : TagState}
    {peer : TagState → Request → Option Frame → TagState → Prop} (h : peer s (.command cmd) answer t) :
    Dialogue.Reaches peer (send cmd) s (.done answer) t := .ask answer h (.here _ t)

theorem readBlock_reaches (block : Word) :
    Dialogue.Reaches (Type5Step uid none none) (readBlock uid block) s
      (.done (some (bytesAt s.memory (4 * block.toNat) 4))) s := by
  have hext : Dialogue.Reaches (Type5Step uid none none) (send (extReadBlockCommand uid block) >>= fun answer =>
      pure (answerData answer (iso15693MinStatusRx - 1) t5UserBlockSize)) s
      (.done (some (bytesAt s.memory (4 * block.toNat) 4))) s := by
    refine (reaches_send (steps_extRead block)).bind ?_
    rw [singleReads_extBlock, answerData_bytesAt]
    exact .here _ s
  rw [readBlock]
  split
  next hshort =>
    have hbyte : (block.setWidth 8).toNat = block.toNat := toNat_lowByte hshort
    refine Dialogue.Reaches.bind ((reaches_send (steps_read (block.setWidth 8))).bind (.here _ s)) ?_
    rw [singleReads_block, answerData_bytesAt, hbyte]
    exact .here _ s
  next => exact Dialogue.Reaches.bind (.here _ s) hext

theorem sendWrite_reaches {cmd data : Frame} {t : TagState} {peer : TagState → Request → Option Frame → TagState → Prop}
    (hdata : data.length = 4) (h : peer s (.command cmd) (some [0]) t) :
    Dialogue.Reaches peer (sendWrite cmd data) s (.done true) t := by
  rw [sendWrite, if_neg (by rw [hdata]; decide)]
  exact (reaches_send h).bind (.here _ t)

theorem userWrite_reaches (block : Word) {data : Frame} (hdata : data.length = 4) :
    Dialogue.Reaches (Type5Step uid none none) (userWrite uid block data) s (.done true)
      (s.write block.toNat data) := by
  rw [userWrite]
  split
  next hshort =>
    have hbyte : (block.setWidth 8).toNat = block.toNat := toNat_lowByte hshort
    rw [← hbyte]
    exact (sendWrite_reaches hdata (steps_write (block.setWidth 8) hdata)).bind (.here _ _)
  next => exact Dialogue.Reaches.bind (.here _ s) (sendWrite_reaches hdata (steps_extWrite block hdata))

theorem type5WriteBlock_reaches (block : Word) {data : Frame} (hdata : data.length = 4) :
    Dialogue.Reaches (Type5Step uid none none) (type5WriteBlock uid block data) s (.done true)
      (s.write block.toNat data) := by
  rw [type5WriteBlock, if_neg (by rw [hdata]; decide)]
  refine (userWrite_reaches block hdata).bind ((readBlock_reaches block).bind ?_)
  have hstored : bytesAt (s.write block.toNat data).memory (4 * block.toNat) data.length = data :=
    has_iff_bytesAt.mp (FileUpdate.has_patch s.memory ⟨4 * block.toNat, data⟩)
  rw [hdata] at hstored
  rw [hstored, verifies, List.take_length, beq_self_eq_true, decide_eq_true (Nat.le_refl _)]
  exact .here _ _

theorem steps_systemInfo : Type5Step uid none none s (.command (systemInfoCommand uid)) none s := by
  have hhead : HeadOf uid _ _ := .systemInfo
  exact ⟨fun other h => absurd h (hhead.ne (.read other) (by decide)),
    fun other h => absurd h (hhead.ne (.extRead other) (by decide)),
    fun other data _ h => absurd h (hhead.ne (.write other data) (by decide)),
    fun other data _ h => absurd h (hhead.ne (.extWrite other data) (by decide)),
    fun _ => ⟨rfl, rfl⟩, fun h => absurd h (hhead.ne .systemInfoExt (by decide))⟩

end SingleReads

/-! ### A tag with an extended container -/

/-- An extended container that opens reading and writing, and declares 1024 bytes. -/
def extendedContainer : File Byte := memoryOf 0 [forumCcMagic, 0x40, 0, 0, 0, 0, 0, 0x80]

theorem extendedContainer_info : type5InfoOf extendedContainer none none =
    { cc := [forumCcMagic, 0x40, 0, 0, 0, 0, 0, 0x80], ccLen := 8, ccValid := true, mappingMajor := 1,
      mappingMinor := 0, dataAreaSizeBytes := 1024, access := 0, readAccessOpen := true, writeAccessOpen := true,
      blockSize := 0, blockCount := 0 } := by
  decide

theorem extendedContainer_read (uid : Frame) :
    Dialogue.Reaches (Type5Step uid none none)
      (getType5Info (readBlock uid) (send (systemInfoCommand uid)) (send (systemInfoExtCommand uid)))
      ⟨extendedContainer, []⟩ (.done (type5InfoOf extendedContainer none none)) ⟨extendedContainer, []⟩ := by
  refine Dialogue.Reaches.bind ((readBlock_reaches 0).bind ((readBlock_reaches 1).bind (.here _ _))) ?_
  exact (reaches_send steps_systemInfo).bind (.here _ _)

theorem extendedContainer_tlv {ndef : Frame} (hfits : tlvEnvelopeLen ndef.length ≤ 1024) :
    type5NdefTlv (type5InfoOf extendedContainer none none) ndef = some (messageTlv ndef, 2) := by
  have hlen := tlvHeader_length ndef.length
  have hout : (List.replicate (min (1024 : Word).toNat ndefBufMax) (0 : Byte)).length = 1024 := by
    rw [List.length_replicate]
    rfl
  have hbuilt := @buildMessageTlv_of_fits ndef (List.replicate (min (1024 : Word).toNat ndefBufMax) 0)
    (by rw [hout]; decide) (by rw [hout]; exact hfits)
  have hok : (buildMessageTlv ndef (List.replicate (min (1024 : Word).toNat ndefBufMax) 0)).ok = true := by rw [hbuilt]
  obtain ⟨-, hwritten, houtLen⟩ := buildMessageTlv_ok (by rw [hout]; decide) hok
  have hword : (BitVec.ofNat 16 (tlvEnvelopeLen ndef.length)).toNat = tlvEnvelopeLen ndef.length := by
    rw [BitVec.toNat_ofNat, Nat.mod_eq_of_lt (by omega)]
  have hblocks : type5DataBlocks (type5CcByteLen (type5InfoOf extendedContainer none none)) 1024
      (type5InfoOf extendedContainer none none).unitSize 0 = some (2, 257) := by
    rw [extendedContainer_info]
    decide
  have hunits : (BitVec.ofNat 16 ((tlvEnvelopeLen ndef.length + 3) / 4)).toNat =
      (tlvEnvelopeLen ndef.length + 3) / 4 := by
    rw [BitVec.toNat_ofNat, Nat.mod_eq_of_lt (by omega)]
  have hne : BitVec.ofNat 16 ((tlvEnvelopeLen ndef.length + 3) / 4) ≠ 0 := by
    intro hzero
    rw [hzero, show (0 : Word).toNat = 0 from rfl] at hunits
    omega
  rw [extendedContainer_info] at hblocks ⊢
  rw [type5NdefTlv, if_neg (by decide), if_neg (by decide)]
  dsimp only
  rw [if_neg (by rw [hok]; decide), hwritten, houtLen, hblocks, type5BlockSize, ceilUnits_four, hword]
  dsimp only
  rw [if_neg]
  rw [hunits, show (257 : Word).toNat = 257 from rfl, show (2 : Word).toNat = 2 from rfl]
  rintro (hzero | hend)
  · exact hne hzero
  · omega

/-- Every message that fits is written to it. -/
theorem extendedContainer_reaches (uid : Frame) {ndef : Frame} (hfits : tlvEnvelopeLen ndef.length ≤ 1024) :
    ∃ t, Dialogue.Reaches (Type5Step uid none none) (writeType5NdefMessage uid ndef) ⟨extendedContainer, []⟩
      (.done true) t := by
  have hlen := messageTlv_length ndef
  have hcount := tlvHeader_length ndef.length
  have hwrite : ∀ unit data s, data.length = 4 →
      ∃ t, Dialogue.Reaches (Type5Step uid none none) (type5WriteBlock uid unit data) s (.done true) t :=
    fun unit data s hdata => ⟨_, type5WriteBlock_reaches unit hdata⟩
  obtain ⟨t, ht⟩ := @writeStorageTlvUnits_reaches (Type5Step uid none none) (type5WriteBlock uid) (messageTlv ndef) 2
    hwrite (by omega) (by omega) ⟨extendedContainer, []⟩
  refine ⟨t, (extendedContainer_read uid).bind ?_⟩
  rw [extendedContainer_tlv hfits]
  exact ht

/-- The loader on a tag that answers every read of a block. -/
theorem singleReads_loadable (memory : File Byte) (uid : Frame) (systemInfo systemInfoExt : Option Frame) :
    Type5Loadable memory uid systemInfo systemInfoExt false (singleReads memory) := by
  refine ⟨singleReads_answers uid, fun block _ => ⟨_, singleReads_userRead uid _, ?_⟩⟩
  rw [bytesAt_length]
  exact Nat.le_refl 4

/-! ### A Type 2 tag that does what it is told -/

/-- A tag that tells a version, takes every write and answers every READ with four pages. -/
def obedient (told : Option Frame) (s : TagState) : Request → Option Frame × TagState
  | .activate => (some [], s)
  | .command [cmd] => (if cmd = ntagCmdGetVersion then told else none, s)
  | .command [cmd, page] =>
      (some (if cmd = ntagCmdRead then bytesAt s.memory (4 * page.toNat) 16 else List.replicate 32 0), s)
  | .command [_, page, a, b, c, d] => (some [t2tAckNibble], s.write page.toNat [a, b, c, d])
  | .command _ => (none, s)

theorem obedient_read (told : Option Frame) (s : TagState) (page : Byte) :
    obedient told s (.command (ntagReadCommand page)) = (some (bytesAt s.memory (4 * page.toNat) 16), s) := rfl

theorem obedient_write (told : Option Frame) (s : TagState) (page : Byte) {data : Frame} (hdata : data.length = 4) :
    obedient told s (.command (ntagWriteCommand page data)) = (some [t2tAckNibble], s.write page.toNat data) := by
  obtain ⟨a, b, c, d, rfl⟩ := List.length_eq_four.mp hdata
  rfl

theorem obedient_type2Step (told : Option Frame) (s : TagState) (request : Request) :
    Type2Step s request (obedient told s request).1 (obedient told s request).2 where
  activate := by
    rintro rfl
    rfl
  read page := by
    rintro rfl
    rw [obedient_read]
    refine ⟨rfl, fun rx hrx => ?_⟩
    obtain rfl := Option.some.inj hrx
    exact cutFrom_bytesAt _ _ _ _
  write page data hdata := by
    rintro rfl
    rw [obedient_write told s page hdata]
    exact ⟨rfl, FileUpdate.agreeOutside_patch _ _ (by rw [hdata])⟩

theorem pageReads_loadable (memory : File Byte) (type2 : Type2Info) (family : Type2Family) (maxUserPage : Nat) :
    Type2Loadable memory type2 (pageReads memory) family maxUserPage where
  answers := pageReads_answers memory _
  complete page _ := by
    refine ⟨(bytesAt memory (4 * (BitVec.ofNat 8 page).toNat) 16).take t2tReadRespBytes, rfl, ?_⟩
    rw [List.length_take, bytesAt_length]
    exact Nat.le_refl 16

/-- A container that opens reading and writing, and declares 48 bytes. -/
def smallPages : File Byte := memoryOf 12 [forumCcMagic, 0x10, 0x06, 0x00]

theorem smallPages_written :
    ((writeType2NdefMessage [0xD0, 0x00, 0x00]).run (obedient none) ⟨smallPages, []⟩).1 = true := by decide

/-! ### Write, then load -/

/-- **Write, then load.** Whatever the tag does in between, a write touches units of the data area only, and where it
reports success: a loader that the Type 2 tag answers returns the message exactly when the container opens reading; one
that the Type 5 tag answers does so exactly when, moreover, container and message fit the loader's buffer, and
container and data area a 16-bit count. -/
theorem write_load_iff (memory : File Byte) (ndef : Frame) :
    (writeType2NdefMessage ndef).Holds Type2Step
        (fun t => ∀ page ∈ t.written, page ∈ (type2ApplyCc (bytesAt memory 12 4)).dataPages)
        (fun ok t => ok = true → ∀ transceive family maxUserPage fastReadAllowed dstCap,
          Type2Loadable t.memory (type2ApplyCc (bytesAt memory 12 4)) transceive family maxUserPage →
          0 < dstCap → ndef.length ≤ dstCap →
            (loadType2NdefMessage (.over transceive family maxUserPage) fastReadAllowed dstCap = some ndef ↔
              (type2ApplyCc (bytesAt memory 12 4)).readAccessOpen = true))
        ⟨memory, []⟩ ∧
    ∀ (uid : Frame) (systemInfo systemInfoExt : Option Frame),
      (writeType5NdefMessage uid ndef).Holds (Type5Step uid systemInfo systemInfoExt)
        (fun t => ∀ block ∈ t.written, block ∈ (type5InfoOf memory systemInfo systemInfoExt).dataBlocks)
        (fun ok t => ok = true → ∀ wide transceive disabled dstCap,
          Type5Loadable t.memory uid systemInfo systemInfoExt wide transceive → 0 < dstCap → ndef.length ≤ dstCap →
            (loadType5NdefMessage (.over transceive uid) systemInfo systemInfoExt disabled dstCap = some ndef ↔
              (type5InfoOf memory systemInfo systemInfoExt).readAccessOpen = true ∧
                LoaderReaches (type5InfoOf memory systemInfo systemInfoExt) ndef.length))
        ⟨memory, []⟩ := by
  have hinside {area : Set Nat} {memory : File Byte} {t : TagState} (h : WroteWithin area ⟨memory, []⟩ t) :
      ∀ u ∈ t.written, u ∈ area := fun u hu => (h.written u hu).resolve_left (List.not_mem_nil)
  refine ⟨?_, fun uid systemInfo systemInfoExt => ?_⟩
  · refine Dialogue.Holds.mono (writes_writeType2NdefMessage ndef ⟨memory, []⟩)
      (fun t => hinside) fun ok t hwithin hdone hok => ?_
    intro transceive family maxUserPage fastReadAllowed dstCap hload hpos hcap
    obtain ⟨tlv, htlv, hstored⟩ := hdone hok
    have hcc : bytesAt t.memory 12 4 = bytesAt memory 12 4 := by
      refine hwithin.bytesAt_eq fun i hfirst hend hmem => ?_
      have hlow : 4 ≤ i / 4 := hmem.1
      omega
    exact loadType2NdefMessage_iff fastReadAllowed (congrArg type2ApplyCc hcc) htlv hload hstored hpos hcap
  · refine Dialogue.Holds.mono (writes_writeType5NdefMessage ndef ⟨memory, []⟩)
      (fun t => hinside) fun ok t hwithin hdone hok => ?_
    intro wide transceive disabled dstCap hload hpos hcap
    obtain ⟨tlv, startBlock, htlv, hstored⟩ := hdone hok
    have hinfo := type5InfoOf_congr (type5NdefTlv_spec htlv).2.1 hwithin
    rw [← hinfo] at htlv ⊢
    exact loadType5NdefMessage_iff disabled htlv hload hstored hpos hcap

theorem write_load_iff_pair :
    (∃ t, Dialogue.Reaches Type2Step (writeType2NdefMessage [0xD0, 0x00, 0x00]) ⟨smallPages, []⟩ (.done true) t ∧
      loadType2NdefMessage (.over (pageReads t.memory) .ntag21x 39) true 3 = some [0xD0, 0x00, 0x00]) ∧
    ∃ t, Dialogue.Reaches (Type5Step [] none none) (writeType5NdefMessage [] [0xD0, 0x00]) ⟨extendedContainer, []⟩
        (.done true) t ∧
      loadType5NdefMessage (.over (singleReads t.memory) []) none none false 2 = some [0xD0, 0x00] := by
  constructor
  · have hrun := Dialogue.reaches_run (obedient_type2Step none) (writeType2NdefMessage [0xD0, 0x00, 0x00])
      ⟨smallPages, []⟩
    rw [smallPages_written] at hrun
    refine ⟨_, hrun, ?_⟩
    exact (((write_load_iff smallPages [0xD0, 0x00, 0x00]).1.reaches hrun).2 true rfl rfl
      (pageReads _) .ntag21x 39 true 3
      (pageReads_loadable ..) (by decide) (by decide)).mpr (by decide)
  obtain ⟨t, ht⟩ := @extendedContainer_reaches [] [0xD0, 0x00] (by decide)
  refine ⟨t, ht, ?_⟩
  have hload := (((write_load_iff extendedContainer [0xD0, 0x00]).2 [] none none).reaches ht).2 true rfl rfl false
    (singleReads t.memory) false 2 (singleReads_loadable t.memory [] none none) (by decide) (by decide)
  rw [hload, extendedContainer_info]
  exact ⟨rfl, by decide, by decide⟩

/-- A message of 1013 bytes is accepted and written to a tag with an extended container, and not loaded again. -/
theorem long_message_not_loaded : ∃ t,
    Dialogue.Reaches (Type5Step [] none none) (writeType5NdefMessage [] (List.replicate 1013 0)) ⟨extendedContainer, []⟩
        (.done true) t ∧
      Type5Loadable t.memory [] none none false (singleReads t.memory) ∧
      loadType5NdefMessage (.over (singleReads t.memory) []) none none false 1024 ≠ some (List.replicate 1013 0) := by
  obtain ⟨t, ht⟩ := @extendedContainer_reaches [] (List.replicate 1013 0) (by rw [List.length_replicate]; decide)
  refine ⟨t, ht, singleReads_loadable t.memory [] none none, ?_⟩
  obtain ⟨hwithin, hdone⟩ :=
    Dialogue.Holds.reaches (writes_writeType5NdefMessage (List.replicate 1013 0) ⟨extendedContainer, []⟩) ht
  obtain ⟨tlv, startBlock, htlv, hstored⟩ := hdone true rfl rfl
  have hinfo := type5InfoOf_congr (type5NdefTlv_spec htlv).2.1 hwithin
  rw [← hinfo] at htlv
  intro hload
  rw [loadType5NdefMessage_iff false htlv (singleReads_loadable t.memory [] none none) hstored (by decide)
    (by rw [List.length_replicate]; decide), hinfo, extendedContainer_info, List.length_replicate] at hload
  exact absurd hload.2.2 (by decide)

end NeroReader.Tags
