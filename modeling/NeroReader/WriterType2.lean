import NeroReader.ReaderNdefRoundTrip

/-!
The firmware writer on Type 2 tags. It tells the tag's family from the version and the capability container, refuses
tags that declare themselves closed, initialises a container that is blank or too small, and writes the TLV over the
pages behind it. A tag with a valid container that answers its READs is written inside the declared area only, and a
success leaves what the reader loads.
-/

namespace NeroReader.Tags

open Ndef Storage
open FileUpdate (File Has)

def ntag215SizeId : Byte := 0x11
def ntag216SizeId : Byte := 0x13
def ntag213LastPage : Nat := 39
def ntag215LastPage : Nat := 129
def ntag213CcMlen : Byte := 0x12
def ntag215CcMlen : Byte := 0x3E
def ntag216CcMlen : Byte := 0x6D
def ntagAuth0Disabled : Byte := 0xFF
def st25tnMaxUserPage : Nat := 43
def st25tnFallbackLastPage : Nat := 19
def st25tnCcMlenDefault : Byte := 0x08
def t2tCcVersion : Byte := 0x10
def t2tAreaSizeUnitBytes : Nat := 8
def writerNdefMaxBytes : Nat := 880

/-! ### Geometry -/

/-- The family that `nfc_tag_type2_apply_version` finds. -/
def versionFamily (version : Frame) : Type2Family := if (type2ApplyVersion version).isSome then .ntag21x else .unknown

/-- `writer_type2_ntag21x_size_id`. -/
def ntag21xSizeId (version : Frame) : Byte := if (type2ApplyVersion version).isSome then u8At version 6 else 0

/-- `writer_type2_cap_last_page_from_mlen`. -/
def capLastPageFromMlen (mlen : Byte) : Nat :=
  if mlen ≤ ntag213CcMlen then ntag213LastPage
  else if mlen ≤ ntag215CcMlen then ntag215LastPage
  else ntag216LastPage

/-- `writer_type2_last_page_from_cc_mlen`. -/
def lastPageFromCcMlen (mlen : Byte) : Nat :=
  let dataBytes := u16 (mlen.toNat * t2tAreaSizeUnitBytes)
  if dataBytes = 0 then 0
  else u16 (type2CcPage + u16 ((dataBytes + t2tPageSizeBytes - 1) / t2tPageSizeBytes))

/-- The container page, where it is known and begins with the magic byte. -/
def declared (cc : Option Frame) : Option Frame := cc.filter (u8At · 0 == forumCcMagic)

/-- `writer_type2_cc_size`. -/
def writerType2CcSize (family : Type2Family) (cc : Option Frame) (version : Frame) : Byte :=
  match family with
  | .ntag21x =>
      match declared cc with
      | some page3 => u8At page3 2
      | none =>
          if ntag21xSizeId version = ntag216SizeId then ntag216CcMlen
          else if ntag21xSizeId version = ntag215SizeId then ntag215CcMlen
          else ntag213CcMlen
  | .st25tn =>
      match declared cc with
      | some page3 => u8At page3 2
      | none => st25tnCcMlenDefault
  | .unknown => ntag213CcMlen

/-- `writer_type2_max_page`. The cap of `writer_type2_physical_cap_last_page` is taken where a container is known. -/
def writerType2MaxPage (family : Type2Family) (cc : Option Frame) (version : Frame) : Nat :=
  match family with
  | .ntag21x =>
      match declared cc with
      | some page3 =>
          let ndefBytes := u16 ((u8At page3 2).toNat * t2tAreaSizeUnitBytes)
          let lastPage := u16 (type2CcPage + 1 + (ndefBytes + t2tPageSizeBytes - 1) / t2tPageSizeBytes - 1)
          min lastPage (capLastPageFromMlen (u8At page3 2))
      | none =>
          if ntag21xSizeId version = ntag216SizeId then ntag216LastPage
          else if ntag21xSizeId version = ntag215SizeId then ntag215LastPage
          else ntag213LastPage
  | .st25tn =>
      match declared cc with
      | some page3 =>
          let lastPage := lastPageFromCcMlen (u8At page3 2)
          if lastPage = 0 then st25tnFallbackLastPage else min lastPage st25tnMaxUserPage
      | none => st25tnFallbackLastPage
  | .unknown => t2tFallbackLastPage

/-! ### The exchanges -/

def getVersionCommand : Frame := [ntagCmdGetVersion]
def readSignatureCommand : Frame := [ntagCmdReadSig, 0x00]

/-- An answer that must have some length, behind which the tag is activated again where it is shorter. -/
def sendOrActivate (cmd : Frame) (cap len : Nat) : RfExchange (Option Frame) :=
  send cmd >>= fun answer =>
    let rx := answer.map (·.take cap)
    if rx.any (len ≤ ·.length) then pure rx else activateIso14443a >>= fun _ => pure rx

/-- `type2_get_version` of the writer. -/
def writerGetVersion : RfExchange (Option Frame) := sendOrActivate getVersionCommand ntagVerReplyLen ntagVerReplyLen

/-- `type2_read_signature` of the writer. -/
def writerReadSignature : RfExchange (Option Frame) :=
    sendOrActivate readSignatureCommand ntagSigReplyLen ntagSigReplyLen

/-- What the writer keeps of a tag: its UID, the version it told, and its container page. -/
structure Type2Context where
  uid : Frame
  version : Frame
  cc : Option Frame

/-- What `writer_collect_type2_info` finds out. -/
structure CollectedType2 where
  cc : Type2Info
  family : Type2Family
  maxUserPage : Nat
  passwordProtected : Bool

/-- `nfc_tag_type2_apply_family_hint`, for the ST25TN. -/
def st25tnMaxPage (cc : Type2Info) (maxUserPage : Nat) : Nat :=
  if cc.dataAreaSizeBytes ≠ 0 then
    min (u16 (type2CcPage + (cc.dataAreaSizeBytes.toNat + t2tPageSizeBytes - 1) / t2tPageSizeBytes)) st25tnMaxUserPage
  else if maxUserPage = 0 then st25tnFallbackLastPage
  else maxUserPage

/-- `nfc_tag_type2_apply_auth0`. -/
def auth0Protects (maxUserPage : Nat) (auth0 : Byte) : Bool :=
  auth0 ≠ ntagAuth0Disabled ∧ (maxUserPage = 0 ∨ auth0.toNat ≤ maxUserPage)

/-- The version part of `writer_collect_type2_info`. -/
def collectVersion (ctx : Type2Context) (family : Type2Family) : RfExchange Type2Context :=
  if ctx.version = [] ∧ family = .ntag21x then
    writerGetVersion >>= fun version => pure { ctx with version := version.getD [] }
  else pure ctx

/-- The container part of `writer_collect_type2_info`. -/
def collectCc (ctx : Type2Context) : RfExchange Type2Context :=
  readPage (BitVec.ofNat 8 type2CcPage) >>= fun page3 =>
    pure { ctx with cc := ((page3.filter (t2tPageSizeBytes ≤ ·.length)).map (·.take t2tPageSizeBytes)).or ctx.cc }

/-- The password part of `writer_collect_type2_info`. -/
def collectAuth0 (maxUserPage : Nat) : RfExchange Bool :=
  writerReadSignature >>= fun _ =>
    if maxUserPage = 0 then pure false
    else
      readPage (BitVec.ofNat 8 (maxUserPage + ntagAuth0PageOffset)) >>= fun cfg =>
        pure ((cfg.filter (t2tPageSizeBytes ≤ ·.length)).any fun cfg =>
          auth0Protects maxUserPage (u8At cfg ntagCfgAuth0ByteIndex))

/-- Whether the writer takes a tag for an ST25TN. -/
def takenForSt25tn (ctx : Type2Context) (family : Type2Family) (cc : Type2Info) : Bool :=
  family = .st25tn ∨
    versionFamily ctx.version = .unknown ∧ ctx.uid ≠ [] ∧ u8At ctx.uid 0 = mfrCodeSt ∧ cc.ccValid = true

/-- The family and the last user page that the writer finds. -/
def collectFamily (ctx : Type2Context) (family : Type2Family) (cc : Type2Info) : Type2Family × Nat :=
  let versionPage := (type2ApplyVersion ctx.version).getD 0
  if takenForSt25tn ctx family cc then (.st25tn, st25tnMaxPage cc versionPage) else
    (versionFamily ctx.version, versionPage)

/-- `writer_collect_type2_info`. -/
def collectType2Info (ctx : Type2Context) (family : Type2Family) : RfExchange (Type2Context × CollectedType2) :=
  collectVersion ctx family >>= fun ctx =>
    collectCc ctx >>= fun ctx =>
      let cc := type2ApplyCc (ctx.cc.getD [])
      let found := collectFamily ctx family cc
      (if family = .ntag21x ∨ found.1 = .ntag21x then collectAuth0 found.2 else pure false) >>= fun isProtected =>
        pure (ctx, ⟨cc, found.1, found.2, isProtected⟩)

/-- The attempts of `writer_type2_write_page`. -/
def writerWritePageFrom (page : Byte) (data : Frame) : List Nat → RfExchange Bool
  | [] => pure false
  | attempt :: attempts =>
      (if attempt ≠ 0 then activateIso14443a else pure true) >>= fun ready =>
        if ready then
          ntagWritePage page data >>= fun _ =>
            readPage page >>= fun verify =>
              if verifies (data.take t2tPageSizeBytes) verify then pure true
              else activateIso14443a >>= fun _ => writerWritePageFrom page data attempts
        else writerWritePageFrom page data attempts

/-- `writer_type2_write_page`. -/
def writerWritePage (page : Byte) (data : Frame) : RfExchange Bool :=
  writerWritePageFrom page data (List.range readerType2WriteAttempts)

/-- `writer_type2_write_unit`. -/
def writerWriteUnit (unit : Word) (data : Frame) : RfExchange Bool :=
  if data.length ≠ type2UnitSize.toNat ∨ 0xFF < unit.toNat then pure false
  else writerWritePage (unit.setWidth 8) data

/-- `writer_payload_build_tlv`, for a message that was built; empty where it does not fit. -/
def writerTlv (ndef : Frame) : Frame :=
  if ndef = [] then []
  else
    let built := buildMessageTlv ndef (List.replicate writerNdefMaxBytes 0)
    if built.ok then built.written else []

/-- The size byte for the container. -/
def ccSizeByte (ctx : Type2Context) (family : Type2Family) (total : Nat) : Byte :=
  let need := BitVec.ofNat 8 ((total + t2tAreaSizeUnitBytes - 1) / t2tAreaSizeUnitBytes)
  let size := writerType2CcSize family ctx.cc ctx.version
  if need < size then size else need

/-- A container page of the writer. -/
def ccPage3 (size : Byte) : Frame := [forumCcMagic, t2tCcVersion, size, 0x00]

/-- The container is written where it is blank, too small or not read. -/
def needsCc (readBack : Option Frame) (size : Byte) : Bool :=
  match readBack.filter (t2tPageSizeBytes ≤ ·.length) with
  | none => true
  | some page3 => u8At page3 0 ≠ forumCcMagic ∨ u8At page3 2 < size

/-- The container update of `writer_tag_write_type2_impl`. -/
def initialiseCc (size : Byte) : RfExchange Bool :=
  readPage (BitVec.ofNat 8 type2CcPage) >>= fun readBack =>
    if needsCc readBack size then ntagWritePage (BitVec.ofNat 8 type2CcPage) (ccPage3 size) else pure true

/-- `writer_tag_write_type2_impl`. -/
def writeType2Impl (ctx : Type2Context) (family : Type2Family) (ndef : Frame) : RfExchange Bool :=
  let tlv := writerTlv ndef
  if tlv = [] then pure false
  else
    collectType2Info ctx family >>= fun collected =>
      let ctx := collected.1
      let info := collected.2
      if info.cc.ccValid ∧ info.cc.writeAccessOpen = false then pure false
      else if info.passwordProtected then pure false
      else if writerType2MaxPage family ctx.cc ctx.version < type2FirstDataPage + (units tlv.length - 1) then pure false
      else
        initialiseCc (ccSizeByte ctx family tlv.length) >>= fun ready =>
          if ready then writeStorageTlvUnits writerWriteUnit tlv (BitVec.ofNat 16 type2FirstDataPage) type2UnitSize
          else pure false

/-- `ntag_try_get_version`: the version kept, and whether it is that of an NTAG21x. -/
def tryGetVersion : RfExchange (Frame × Bool) :=
  send getVersionCommand >>= fun answer =>
    match answer.filter (ntagVerReplyLen ≤ ·.length) with
    | none => pure ([], false)
    | some rx => pure (rx.take ntagVerReplyLen, (type2ApplyVersion rx).isSome)

/-- `writer_tag_write_identify_type2_family`. -/
def identifyType2Family (uid : Frame) : RfExchange (Type2Context × Type2Family) :=
  tryGetVersion >>= fun tried =>
    let ctx : Type2Context := ⟨uid, tried.1, none⟩
    if tried.2 then
      readPage (BitVec.ofNat 8 type2CcPage) >>= fun page3 =>
        let cc := (page3.filter fun rb => t2tPageSizeBytes ≤ rb.length ∧ u8At rb 0 = forumCcMagic).map
          (·.take t2tPageSizeBytes)
        pure ({ ctx with cc := cc }, .ntag21x)
    else
      activateIso14443a >>= fun active =>
        if active = true ∧ uid ≠ [] ∧ u8At uid 0 = mfrCodeSt then
          readPage (BitVec.ofNat 8 type2CcPage) >>= fun page3 =>
            match page3.filter (t2tPageSizeBytes ≤ ·.length) with
            | none => pure (ctx, .unknown)
            | some cc => pure (ctx, if u8At cc 0 = forumCcMagic then .st25tn else .unknown)
        else pure (ctx, .unknown)

/-- What `try_one_tag` does with a Type 2 tag. -/
def writeType2Ndef (uid ndef : Frame) : RfExchange Bool :=
  identifyType2Family uid >>= fun identified =>
    if identified.2 = .unknown then pure false else writeType2Impl identified.1 identified.2 ndef

/-! ### What the geometry allows -/

theorem cap_le (mlen : Byte) : capLastPageFromMlen mlen ≤ 225 := by
  rw [capLastPageFromMlen, ntag213LastPage, ntag215LastPage, ntag216LastPage]
  split_ifs <;> omega

theorem writerType2MaxPage_le (family : Type2Family) (cc : Option Frame) (version : Frame) :
    writerType2MaxPage family cc version ≤ 225 := by
  cases family with
  | ntag21x =>
      rw [writerType2MaxPage]
      cases declared cc with
      | some page3 => exact Nat.le_trans (Nat.min_le_right _ _) (cap_le _)
      | none =>
          dsimp only
          rw [ntag213LastPage, ntag215LastPage, ntag216LastPage]
          split_ifs <;> omega
  | st25tn =>
      rw [writerType2MaxPage]
      cases declared cc with
      | some page3 =>
          dsimp only
          rw [st25tnFallbackLastPage, st25tnMaxUserPage]
          split_ifs <;> omega
      | none =>
          dsimp only
          rw [st25tnFallbackLastPage]
          omega
  | unknown =>
      rw [writerType2MaxPage, t2tFallbackLastPage]
      omega

section Declared

variable {page3 : Frame}

/-- A container with an area declares its pages to the writer too. -/
theorem writerType2MaxPage_declared (hmagic : u8At page3 0 = forumCcMagic) {family : Type2Family}
    (hfamily : family ≠ .unknown) (hmlen : family = .st25tn → u8At page3 2 ≠ 0) (version : Frame) :
    writerType2MaxPage family (some page3) version ≤ 3 + 2 * (u8At page3 2).toNat := by
  have hbyte := (u8At page3 2).isLt
  have hknown : declared (some page3) = some page3 := by
    rw [declared, Option.filter_some_pos (by rw [hmagic]; rfl)]
  have hbytes : u16 ((u8At page3 2).toNat * 8) = (u8At page3 2).toNat * 8 := u16_of_le (by omega)
  cases family with
  | ntag21x =>
      rw [writerType2MaxPage, hknown]
      dsimp only
      rw [type2CcPage, t2tAreaSizeUnitBytes, t2tPageSizeBytes, hbytes, u16_of_le (by omega)]
      omega
  | st25tn =>
      have hpos : (u8At page3 2).toNat ≠ 0 := fun h => hmlen rfl (BitVec.eq_of_toNat_eq h)
      have hlast : lastPageFromCcMlen (u8At page3 2) = 3 + 2 * (u8At page3 2).toNat := by
        rw [lastPageFromCcMlen, t2tAreaSizeUnitBytes, type2CcPage, t2tPageSizeBytes, hbytes, if_neg (by omega),
          @u16_of_le (((u8At page3 2).toNat * 8 + 4 - 1) / 4) (by omega), u16_of_le (by omega)]
        omega
      rw [writerType2MaxPage, hknown]
      dsimp only
      rw [hlast, if_neg (by omega)]
      exact Nat.min_le_left _ _
  | unknown => exact absurd rfl hfamily

/-- A container that covers the TLV is not changed. -/
theorem needsCc_declared (hmagic : u8At page3 0 = forumCcMagic) {ctx : Type2Context} {family : Type2Family}
    (hcc : ctx.cc = some page3) (hfamily : family ≠ .unknown) {total : Nat}
    (htotal : total ≤ 8 * (u8At page3 2).toNat) {readBack : Frame} (hlong : 4 ≤ readBack.length)
    (hread : u8At readBack 0 = u8At page3 0 ∧ u8At readBack 2 = u8At page3 2) :
    needsCc (some readBack) (ccSizeByte ctx family total) = false := by
  have hbyte := (u8At page3 2).isLt
  have hknown : declared ctx.cc = some page3 := by
    rw [hcc, declared, Option.filter_some_pos (by rw [hmagic]; rfl)]
  have hsize : writerType2CcSize family ctx.cc ctx.version = u8At page3 2 := by
    cases family with
    | ntag21x => rw [writerType2CcSize, hknown]
    | st25tn => rw [writerType2CcSize, hknown]
    | unknown => exact absurd rfl hfamily
  have hneed : (BitVec.ofNat 8 ((total + 8 - 1) / 8)).toNat ≤ (u8At page3 2).toNat := by
    rw [BitVec.toNat_ofNat, Nat.mod_eq_of_lt (by omega)]
    omega
  have hle : ¬ u8At page3 2 < ccSizeByte ctx family total := by
    rw [ccSizeByte, hsize, t2tAreaSizeUnitBytes]
    split_ifs
    · exact BitVec.lt_irrefl _
    · exact BitVec.not_lt.mpr hneed
  rw [needsCc, Option.filter_some_pos (by rw [t2tPageSizeBytes]; exact decide_eq_true hlong)]
  dsimp only
  rw [hread.1, hread.2, hmagic, decide_eq_false (not_or.mpr ⟨fun h => h rfl, hle⟩)]

end Declared

/-! ### The tag -/

/-- A Type 2 tag that also tells its version, always the same, and its signature. -/
structure WriterType2Step (told : Option Frame) (s : TagState) (request : Request) (answer : Option Frame)
    (t : TagState) : Prop extends Type2Step s request answer t where
  version : request = .command getVersionCommand → t = s ∧ answer = told
  signature : request = .command readSignatureCommand → t = s

/-- A tag that answers each READ of these pages with a page at the least. -/
structure AnsweringType2Step (told : Option Frame) (pages : Set Byte) (s : TagState) (request : Request)
    (answer : Option Frame) (t : TagState) : Prop extends WriterType2Step told s request answer t where
  answered (page : Byte) : page ∈ pages → request = .command (ntagReadCommand page) →
    ∃ rx, answer = some rx ∧ 4 ≤ rx.length

section Exchanges

variable {told : Option Frame} {pages : Set Byte} {units : Set Nat}

theorem Writes.within {peer : TagState → Request → Option Frame → TagState → Prop} {wider : Set Nat} {α : Type}
    {post : α → TagState → Prop} {program : RfExchange α} {s : TagState} (h : Writes peer units post program s)
    (hsub : units ⊆ wider) : Writes peer wider post program s :=
  Dialogue.Holds.mono h (fun _ ht => ht.mono hsub) fun _ _ _ hpost => hpost

theorem writes_of_type2 {α : Type} {post : α → TagState → Prop} {program : RfExchange α} {s : TagState}
    (h : Writes Type2Step units post program s) : Writes (AnsweringType2Step told pages) units post program s :=
  Dialogue.Holds.of_peer h fun _ _ _ _ hstep => hstep.toType2Step

/-- A READ of a page that answers brings the page. -/
theorem writes_readPage_answered (page : Byte) (s : TagState) :
    Writes (AnsweringType2Step told pages) units (fun rx t => t = s ∧ (page ∈ pages → ∃ data, rx = some data ∧
      4 ≤ data.length ∧ data.take 4 = bytesAt s.memory (4 * page.toNat) 4)) (readPage page) s := by
  have hread : Writes (AnsweringType2Step told pages) units (fun answer t => t = s ∧ (page ∈ pages → ∃ rx,
      answer = some rx ∧ 4 ≤ rx.length ∧ CutFrom s.memory (4 * page.toNat) (4 * page.toNat + 4) rx))
      (send (ntagReadCommand page)) s := by
    refine writes_send_read fun answer t hstep => ?_
    obtain ⟨rfl, hcut⟩ := hstep.read page rfl
    refine ⟨rfl, fun hpage => ?_⟩
    obtain ⟨rx, rfl, hlong⟩ := hstep.answered page hpage rfl
    exact ⟨rx, rfl, hlong, hcut rx rfl⟩
  refine hread.bind fun answer t _ h => ?_
  obtain ⟨rfl, hanswered⟩ := h
  refine writes_pure ⟨rfl, fun hpage => ?_⟩
  obtain ⟨rx, rfl, hlong, hcut⟩ := hanswered hpage
  have hlen : 4 ≤ (rx.take t2tReadRespBytes).length := by
    rw [List.length_take, t2tReadRespBytes]
    omega
  exact ⟨_, rfl, hlen, (hcut.cut _).take hlen (Nat.le_refl _)⟩

theorem writes_activate_same (s : TagState) :
    Writes (AnsweringType2Step told pages) units (fun _ t => t = s) activateIso14443a s := by
  refine ⟨WroteWithin.refl units s, fun answer t hstep => ?_⟩
  obtain rfl := hstep.activate rfl
  exact ⟨WroteWithin.refl units t, rfl⟩

/-- A command that leaves the tag as it is, with the activation behind it. -/
theorem writes_sendOrActivate {cmd : Frame} {cap len : Nat} {post : Option Frame → Prop} {s : TagState}
    (h : ∀ answer t, AnsweringType2Step told pages s (.command cmd) answer t → t = s ∧ post (answer.map (·.take cap))) :
    Writes (AnsweringType2Step told pages) units (fun rx t => t = s ∧ post rx) (sendOrActivate cmd cap len) s := by
  refine (writes_send_read h).bind fun answer t _ h => ?_
  obtain ⟨rfl, hpost⟩ := h
  dsimp only
  split
  · exact writes_pure ⟨rfl, hpost⟩
  · exact (writes_activate_same t).bind fun _ u _ h => writes_pure ⟨h, hpost⟩

theorem writes_collectVersion (ctx : Type2Context) (family : Type2Family) (s : TagState) :
    Writes (AnsweringType2Step told pages) units (fun ctx' t => t = s ∧ ctx'.uid = ctx.uid ∧ ctx'.cc = ctx.cc ∧
      (ctx.version ≠ [] → ctx' = ctx)) (collectVersion ctx family) s := by
  rw [collectVersion]
  split
  next hmissing =>
    have hversion : Writes (AnsweringType2Step told pages) units (fun _ t => t = s ∧ True) writerGetVersion s :=
      writes_sendOrActivate fun answer t hstep => ⟨(hstep.version rfl).1, trivial⟩
    refine hversion.bind fun version t _ h => ?_
    exact writes_pure ⟨h.1, rfl, rfl, fun h => absurd hmissing.1 h⟩
  next => exact writes_pure ⟨rfl, rfl, rfl, fun _ => rfl⟩

theorem toNat_ccPage : (BitVec.ofNat 8 type2CcPage).toNat = 3 := rfl

theorem writes_collectCc (ctx : Type2Context) (s : TagState) :
    Writes (AnsweringType2Step told pages) units (fun ctx' t => t = s ∧ ctx'.uid = ctx.uid ∧
      ctx'.version = ctx.version ∧ (3 ∈ pages → ctx'.cc = some (bytesAt s.memory 12 4))) (collectCc ctx) s := by
  refine (writes_readPage_answered _ s).bind fun page3 t _ h => ?_
  obtain ⟨rfl, hanswered⟩ := h
  refine writes_pure ⟨rfl, rfl, rfl, fun hpage => ?_⟩
  obtain ⟨data, rfl, hlong, hdata⟩ := hanswered hpage
  rw [Option.filter_some_pos (by rw [t2tPageSizeBytes]; exact decide_eq_true hlong), Option.map_some, Option.some_or,
    t2tPageSizeBytes, hdata, toNat_ccPage]

/-- The first byte behind which a password protects the tag. -/
def auth0At (memory : File Byte) (maxUserPage : Nat) : Byte := u8At (bytesAt memory (4 * (maxUserPage + 2)) 4) 3

theorem writes_collectAuth0 {maxUserPage : Nat} (hbyte : maxUserPage + 2 < 256) (s : TagState) :
    Writes (AnsweringType2Step told pages) units (fun isProtected t => t = s ∧
      (maxUserPage ≠ 0 → BitVec.ofNat 8 (maxUserPage + 2) ∈ pages →
        isProtected = auth0Protects maxUserPage (auth0At s.memory maxUserPage))) (collectAuth0 maxUserPage) s := by
  have hsignature : Writes (AnsweringType2Step told pages) units (fun _ t => t = s ∧ True) writerReadSignature s :=
    writes_sendOrActivate fun answer t hstep => ⟨hstep.signature rfl, trivial⟩
  refine hsignature.bind fun _ t _ h => ?_
  obtain rfl := h.1
  split
  next hzero => exact writes_pure ⟨rfl, fun hne => absurd hzero hne⟩
  next =>
    refine (writes_readPage_answered _ t).bind fun cfg u _ h => ?_
    obtain ⟨rfl, hanswered⟩ := h
    refine writes_pure ⟨rfl, fun _ hpage => ?_⟩
    obtain ⟨data, rfl, hlong, hdata⟩ := hanswered hpage
    rw [ntagAuth0PageOffset, BitVec.toNat_ofNat, Nat.mod_eq_of_lt hbyte] at hdata
    have hlast : u8At data 3 = auth0At u.memory maxUserPage := by
      rw [auth0At, ← hdata, u8At, u8At, List.getD_eq_getElem?_getD, List.getD_eq_getElem?_getD,
        List.getElem?_take_of_lt (by omega)]
    rw [Option.filter_some_pos (by rw [t2tPageSizeBytes]; exact decide_eq_true hlong), Option.any_some,
      ntagCfgAuth0ByteIndex, hlast]

theorem type2ApplyVersion_le {version : Frame} : (type2ApplyVersion version).getD 0 ≤ 225 := by
  rw [type2ApplyVersion]
  split
  · rw [Option.getD_some, type2MaxUserPageFromSizeId]
    split_ifs <;> omega
  · exact Nat.zero_le _

theorem st25tnMaxPage_le {cc : Type2Info} {maxUserPage : Nat} (h : maxUserPage ≤ 225) :
    st25tnMaxPage cc maxUserPage ≤ 225 := by
  rw [st25tnMaxPage, st25tnMaxUserPage, st25tnFallbackLastPage]
  split_ifs <;> omega

theorem collectFamily_le (ctx : Type2Context) (family : Type2Family) (cc : Type2Info) :
    (collectFamily ctx family cc).2 ≤ 225 := by
  rw [collectFamily]
  split_ifs
  · exact st25tnMaxPage_le type2ApplyVersion_le
  · exact type2ApplyVersion_le

theorem collectFamily_ntag {ctx : Type2Context} {cc : Type2Info} {maxUserPage : Nat}
    (h : type2ApplyVersion ctx.version = some maxUserPage) : (collectFamily ctx .ntag21x cc).2 = maxUserPage := by
  have hother : takenForSt25tn ctx .ntag21x cc = false := by
    rw [takenForSt25tn, versionFamily, h]
    simp
  rw [collectFamily, hother, if_neg Bool.false_ne_true, h]
  rfl

/-- What is found out about a tag whose version is known. -/
structure Collected (ctx : Type2Context) (family : Type2Family) (memory : File Byte) (pages : Set Byte)
    (collected : Type2Context × CollectedType2) : Prop where
  cc : collected.2.cc = type2ApplyCc (collected.1.cc.getD [])
  container : 3 ∈ pages → collected.1.cc = some (bytesAt memory 12 4)
  password : family = .ntag21x → ctx.version ≠ [] → ∀ maxUserPage, type2ApplyVersion ctx.version = some maxUserPage →
    maxUserPage ≠ 0 → BitVec.ofNat 8 (maxUserPage + 2) ∈ pages →
      collected.2.passwordProtected = auth0Protects maxUserPage (auth0At memory maxUserPage)

theorem writes_collectType2Info (ctx : Type2Context) (family : Type2Family) (s : TagState) :
    Writes (AnsweringType2Step told pages) units
      (fun collected t => t = s ∧ Collected ctx family s.memory pages collected)
      (collectType2Info ctx family) s := by
  refine (writes_collectVersion ctx family s).bind fun ctx₁ t _ h => ?_
  obtain ⟨rfl, -, -, hversion⟩ := h
  refine (writes_collectCc ctx₁ t).bind fun ctx₂ u _ h => ?_
  obtain ⟨rfl, -, hsame, hcontainer⟩ := h
  dsimp only
  have hle := collectFamily_le ctx₂ family (type2ApplyCc (ctx₂.cc.getD []))
  split
  next hread =>
    refine (writes_collectAuth0 (Nat.lt_of_le_of_lt (Nat.add_le_add_right hle 2) (by decide)) u).bind
      fun isProtected v _ h => ?_
    obtain ⟨rfl, hauth0⟩ := h
    refine writes_pure ⟨rfl, rfl, hcontainer, fun hfamily hknown p hp hne hmem => ?_⟩
    have hctx : ctx₂.version = ctx.version := by rw [hsame, hversion hknown]
    have hpage : (collectFamily ctx₂ family (type2ApplyCc (ctx₂.cc.getD []))).2 = p := by
      rw [hfamily]
      exact collectFamily_ntag (hctx ▸ hp)
    rw [hpage] at hauth0
    exact hauth0 hne hmem
  next hread => exact writes_pure ⟨rfl, rfl, hcontainer, fun hfamily => absurd (.inl hfamily) hread⟩

/-- **A page write of the writer** touches its page only, and succeeds only when the page holds the data. -/
theorem writes_writerWritePageFrom (page : Byte) {data : Frame} (hdata : data.length = 4) (attempts : List Nat)
    (s : TagState) :
    Writes Type2Step {page.toNat} (fun ok t => ok = true → Has t.memory (4 * page.toNat) data)
      (writerWritePageFrom page data attempts) s := by
  induction attempts generalizing s with
  | nil => exact writes_refused
  | cons attempt attempts ih =>
      exact writes_pageAttempt hdata ih (fun t => (writes_activate t).bind fun _ u _ _ => ih u) s

theorem writesUnit_writer : WritesUnit (AnsweringType2Step told pages) writerWriteUnit := by
  intro unit data s hdata
  rw [writerWriteUnit]
  split
  · exact writes_refused
  next hfits =>
    have hbyte : (unit.setWidth 8).toNat = unit.toNat := toNat_lowByte (by omega)
    have h := writes_writerWritePageFrom (unit.setWidth 8) hdata (List.range readerType2WriteAttempts) s
    rw [hbyte] at h
    exact writes_of_type2 h

/-- The container update writes the container page at most. -/
theorem writes_initialiseCc (size : Byte) (s : TagState) :
    Writes (AnsweringType2Step told pages) {3} (fun _ _ => True) (initialiseCc size) s := by
  refine (writes_readPage_answered _ s).bind fun readBack t _ h => ?_
  obtain ⟨rfl, -⟩ := h
  split
  · have hwrite := writes_ntagWritePage (BitVec.ofNat 8 type2CcPage) (show (ccPage3 size).length = 4 from rfl) t
    rw [toNat_ccPage] at hwrite
    exact writes_of_type2 hwrite
  · exact writes_pure trivial

/-- A container that covers the TLV is left alone. -/
theorem writes_initialiseCc_covered {size : Byte} {s : TagState} (hpage : 3 ∈ pages)
    (hcovers : ∀ readBack : Frame, 4 ≤ readBack.length → readBack.take 4 = bytesAt s.memory 12 4 →
      needsCc (some readBack) size = false) :
    Writes (AnsweringType2Step told pages) units (fun _ t => t = s) (initialiseCc size) s := by
  refine (writes_readPage_answered _ s).bind fun readBack t _ h => ?_
  obtain ⟨rfl, hanswered⟩ := h
  obtain ⟨data, rfl, hlong, hdata⟩ := hanswered hpage
  rw [hcovers data hlong hdata, if_neg Bool.false_ne_true]
  exact writes_pure rfl

theorem writerTlv_spec {ndef : Frame} (h : writerTlv ndef ≠ []) :
    writerTlv ndef = messageTlv ndef ∧ ndef ≠ [] ∧ tlvEnvelopeLen ndef.length ≤ 880 := by
  have hcap : (List.replicate writerNdefMaxBytes (0 : Byte)).length = 880 := List.length_replicate
  rw [writerTlv] at h ⊢
  split at h
  · exact absurd rfl h
  next hne =>
    dsimp only at h
    split at h
    swap
    · exact absurd rfl h
    next hok =>
      obtain ⟨hfits, hwritten, -⟩ := buildMessageTlv_ok (by rw [hcap]; decide) hok
      rw [if_neg hne]
      dsimp only
      rw [if_pos hok, hwritten]
      exact ⟨rfl, hne, hcap ▸ hfits⟩

end Exchanges

/-! ### The write -/

section Write

variable {told : Option Frame} {pages : Set Byte} {ndef : Frame}

theorem writes_writerTlv (htlv : writerTlv ndef ≠ []) (s : TagState) :
    Writes (AnsweringType2Step told pages) (unitsFrom 4 (writerTlv ndef))
      (fun ok t => ok = true → Has t.memory 16 (messageTlv ndef))
      (writeStorageTlvUnits writerWriteUnit (writerTlv ndef) (BitVec.ofNat 16 type2FirstDataPage) type2UnitSize) s := by
  obtain ⟨heq, hne, hfits⟩ := writerTlv_spec htlv
  have hlen : (writerTlv ndef).length = tlvEnvelopeLen ndef.length := by rw [heq, messageTlv_length]
  have hfirst : (BitVec.ofNat 16 type2FirstDataPage).toNat = 4 := rfl
  have hwrite := @writes_writeStorageTlvUnits (AnsweringType2Step told pages) writerWriteUnit (writerTlv ndef)
    (BitVec.ofNat 16 type2FirstDataPage) writesUnit_writer (List.length_pos_iff.mpr htlv) (by omega)
    (by rw [hfirst, units]; omega) s
  refine hwrite.mono fun ok t _ hstored hok => ?_
  have hpadded := has_of_padded (hstored hok)
  rwa [heq] at hpadded

/-- The pages of a TLV that fits, and the container page. -/
def writerPages (ndef : Frame) : Set Nat := {u | u = 3 ∨ u ∈ unitsFrom 4 (writerTlv ndef) ∧ u ≤ 225}

theorem writes_writeType2Impl (ctx : Type2Context) (family : Type2Family) (s : TagState) :
    Writes (AnsweringType2Step told pages) (writerPages ndef)
      (fun ok t => ok = true → Has t.memory 16 (messageTlv ndef))
      (writeType2Impl ctx family ndef) s := by
  rw [writeType2Impl]
  dsimp only
  split
  · exact writes_refused
  next htlv =>
  refine (writes_collectType2Info ctx family s).bind fun collected t _ h => ?_
  split
  · exact writes_refused
  split
  · exact writes_refused
  split
  · exact writes_refused
  next hfits =>
  have hmax := writerType2MaxPage_le family collected.1.cc collected.1.version
  have hfirst : type2FirstDataPage = 4 := rfl
  refine Writes.bind ((writes_initialiseCc _ t).within fun _ hu => Or.inl hu) fun ready u _ _ => ?_
  split
  swap
  · exact writes_refused
  refine (writes_writerTlv htlv u).within fun w hw => Or.inr ⟨hw, ?_⟩
  have hend := hw.2
  omega

/-- A password protects the data pages of an NTAG21x, and the page that says so answers. -/
def PasswordSet (told : Option Frame) (pages : Set Byte) (memory : File Byte) : Prop :=
  ∃ version maxUserPage, told = some version ∧ type2ApplyVersion version = some maxUserPage ∧ maxUserPage ≠ 0 ∧
    BitVec.ofNat 8 (maxUserPage + 2) ∈ pages ∧ auth0Protects maxUserPage (auth0At memory maxUserPage) = true

/-- What the tag declares is known behind the identification. -/
structure Identified (told : Option Frame) (identified : Type2Context × Type2Family) : Prop where
  version : identified.2 = .ntag21x → ∃ version, told = some version ∧ identified.1.version ≠ [] ∧
    type2ApplyVersion identified.1.version = type2ApplyVersion version
  family : (∃ version maxUserPage, told = some version ∧ type2ApplyVersion version = some maxUserPage) →
    identified.2 = .ntag21x

theorem type2ApplyVersion_take {version : Frame} (h : ntagVerReplyLen ≤ version.length) :
    type2ApplyVersion (version.take ntagVerReplyLen) = type2ApplyVersion version := by
  rw [ntagVerReplyLen] at h
  have hbyte (i : Nat) (hi : i < 8) : u8At (version.take 8) i = u8At version i := by
    rw [u8At, u8At, List.getD_eq_getElem?_getD, List.getD_eq_getElem?_getD, List.getElem?_take_of_lt hi]
  rw [type2ApplyVersion, type2ApplyVersion, ntagVerReplyLen, hbyte 0 (by decide), hbyte 2 (by decide),
    hbyte 3 (by decide), hbyte 6 (by decide), hbyte 7 (by decide), List.length_take, Nat.min_eq_left h]
  simp [h]

theorem writes_identifyType2Family {units : Set Nat} (uid : Frame) (s : TagState) :
    Writes (AnsweringType2Step told pages) units (fun identified t => t = s ∧ Identified told identified)
      (identifyType2Family uid) s := by
  have hversion : Writes (AnsweringType2Step told pages) units (fun tried t => t = s ∧ (tried.2 = true → ∃ version,
      told = some version ∧ tried.1 ≠ [] ∧ type2ApplyVersion tried.1 = type2ApplyVersion version) ∧
      ((∃ version maxUserPage, told = some version ∧ type2ApplyVersion version = some maxUserPage) → tried.2 = true))
      tryGetVersion s := by
    refine Writes.bind (writes_send_read fun answer t hstep => hstep.version rfl) fun answer t _ h => ?_
    obtain ⟨rfl, rfl⟩ := h
    cases hlong : answer.filter (ntagVerReplyLen ≤ ·.length) with
    | none =>
        refine writes_pure ⟨rfl, fun h => absurd h Bool.false_ne_true, ?_⟩
        rintro ⟨version, maxUserPage, rfl, hversion⟩
        rw [type2ApplyVersion] at hversion
        split at hversion
        next h =>
          have hkeep : (some version).filter (ntagVerReplyLen ≤ ·.length) = some version :=
            Option.filter_some_pos (decide_eq_true h.1)
          exact absurd (hkeep.symm.trans hlong) (Option.some_ne_none _)
        next => exact absurd hversion.symm (Option.some_ne_none _)
    | some rx =>
        obtain ⟨rfl, hlen⟩ := Option.filter_eq_some_iff.mp hlong
        have hlen : ntagVerReplyLen ≤ rx.length := of_decide_eq_true hlen
        refine writes_pure ⟨rfl, fun _ => ⟨rx, rfl, fun hnil => ?_, type2ApplyVersion_take hlen⟩, ?_⟩
        · have hzero := congrArg List.length hnil
          rw [List.length_take, Nat.min_eq_left hlen] at hzero
          exact absurd hzero (by decide)
        · rintro ⟨version, maxUserPage, htold, hversion⟩
          rw [Option.some.inj htold, hversion]
          rfl
  refine hversion.bind fun tried t _ h => ?_
  obtain ⟨rfl, htold, hfamily⟩ := h
  dsimp only
  split
  next hntag =>
    refine (writes_readPage_answered _ t).bind fun page3 u _ h => ?_
    exact writes_pure ⟨h.1, fun _ => htold hntag, fun _ => rfl⟩
  next hother =>
    have hunknown {family : Type2Family} (hne : family ≠ .ntag21x) : Identified told (⟨uid, tried.1, none⟩, family) :=
      ⟨fun h => absurd h hne, fun h => absurd (hfamily h) hother⟩
    refine (writes_activate_same t).bind fun active u _ h => ?_
    obtain rfl := h
    split
    · refine (writes_readPage_answered _ u).bind fun page3 v _ h => ?_
      obtain ⟨rfl, -⟩ := h
      cases page3.filter (t2tPageSizeBytes ≤ ·.length) with
      | none => exact writes_pure ⟨rfl, hunknown (by decide)⟩
      | some cc => exact writes_pure ⟨rfl, hunknown (by split <;> decide)⟩
    · exact writes_pure ⟨rfl, hunknown (by decide)⟩

/-- **A write to a Type 2 tag**, whatever the tag answers and wherever it is cut off: it touches the container page and
the pages of the TLV only, none of them behind the last page of the largest tag, and a success has the TLV stored. -/
theorem writes_writeType2Ndef (uid : Frame) (s : TagState) :
    Writes (AnsweringType2Step told pages) (writerPages ndef)
      (fun ok t => ok = true → Has t.memory 16 (messageTlv ndef))
      (writeType2Ndef uid ndef) s := by
  refine (writes_identifyType2Family uid s).bind fun identified t _ _ => ?_
  split
  · exact writes_refused
  · exact writes_writeType2Impl identified.1 identified.2 t

/-- The pages that a tag's container leaves to the writer: those of its data area, where neither the container nor a
password closes them. -/
def openPages (told : Option Frame) (pages : Set Byte) (memory : File Byte) : Set Nat :=
  {u | (type2ApplyCc (bytesAt memory 12 4)).writeAccessOpen = true ∧ ¬ PasswordSet told pages memory ∧
    u ∈ (type2ApplyCc (bytesAt memory 12 4)).dataPages}

theorem type2ApplyCc_magic {cc : Frame} (h : (type2ApplyCc cc).ccValid = true) : u8At cc 0 = forumCcMagic := by
  rw [type2ApplyCc] at h
  split at h
  · exact absurd h Bool.false_ne_true
  split at h
  · exact absurd h Bool.false_ne_true
  next hmagic => exact not_not.mp hmagic

theorem type2LastPage_some {dataAreaSize : Word} (h : dataAreaSize ≠ 0) :
    ∃ lastPage, type2LastPage dataAreaSize = some lastPage := by
  have hword := dataAreaSize.isLt
  have hpos : dataAreaSize.toNat ≠ 0 := fun hzero => h (BitVec.eq_of_toNat_eq hzero)
  have hpages : (BitVec.ofNat 16 ((dataAreaSize.toNat + 3) / 4)) ≠ 0 := by
    intro hzero
    have hnat := congrArg BitVec.toNat hzero
    rw [BitVec.toNat_ofNat, Nat.mod_eq_of_lt (by omega), show (0 : Word).toNat = 0 from rfl] at hnat
    omega
  rw [type2LastPage, if_neg h, type2UnitSize, ceilUnits_four]
  dsimp only
  rw [if_neg hpages]
  exact ⟨_, rfl⟩

/-- A message that the declared area takes is accepted by the reader's own writer too. -/
theorem type2NdefTlv_of_fits {type2 : Type2Info} (hvalid : type2.ccValid = true) (hopen : type2.writeAccessOpen = true)
    (hsize : type2.dataAreaSizeBytes ≠ 0) (hfits : tlvEnvelopeLen ndef.length ≤ 880)
    (harea : tlvEnvelopeLen ndef.length ≤ type2.dataAreaSizeBytes.toNat) :
    type2NdefTlv type2 ndef = some (messageTlv ndef) := by
  have hmax : readerType2RawReadMax = 916 := rfl
  have hlen := tlvHeader_length ndef.length
  have hcap : (List.replicate (min type2.dataAreaSizeBytes.toNat readerType2RawReadMax) (0 : Byte)).length =
    min type2.dataAreaSizeBytes.toNat readerType2RawReadMax := List.length_replicate
  have hbuilt := @buildMessageTlv_of_fits ndef
    (List.replicate (min type2.dataAreaSizeBytes.toNat readerType2RawReadMax) 0) (by rw [hcap]; omega)
    (by rw [hcap]; omega)
  have hwritten : BuiltTlv.written ⟨true, messageTlv ndef ++ (List.replicate (min type2.dataAreaSizeBytes.toNat
      readerType2RawReadMax) (0 : Byte)).drop (tlvEnvelopeLen ndef.length), tlvEnvelopeLen ndef.length⟩ =
      messageTlv ndef := List.take_left' (messageTlv_length ndef)
  obtain ⟨lastPage, hlast⟩ := type2LastPage_some hsize
  have hlastPage := type2LastPage_toNat hlast
  have hword : (BitVec.ofNat 16 (tlvEnvelopeLen ndef.length)).toNat = tlvEnvelopeLen ndef.length := by
    rw [BitVec.toNat_ofNat, Nat.mod_eq_of_lt (by omega)]
  have hpages : (BitVec.ofNat 16 ((tlvEnvelopeLen ndef.length + 3) / 4)).toNat =
      (tlvEnvelopeLen ndef.length + 3) / 4 := by
    rw [BitVec.toNat_ofNat, Nat.mod_eq_of_lt (by omega)]
  have hne : BitVec.ofNat 16 ((tlvEnvelopeLen ndef.length + 3) / 4) ≠ 0 := by
    intro hzero
    rw [hzero, show (0 : Word).toNat = 0 from rfl] at hpages
    omega
  have hdeclares : ¬ (type2.ccValid = false ∨ type2.dataAreaSizeBytes = 0) :=
    not_or.mpr ⟨fun h => Bool.false_ne_true (h.symm.trans hvalid), hsize⟩
  have hchecks : ¬ (type2.ccValid = false ∨ type2.writeAccessOpen = false ∨ type2.dataAreaSizeBytes = 0) := by
    rintro (h | h | h)
    · exact hdeclares (.inl h)
    · exact Bool.false_ne_true (h.symm.trans hopen)
    · exact hsize h
  rw [type2NdefTlv, if_neg hchecks, hbuilt]
  dsimp only
  rw [if_neg (by simp), type2UnitSize, ceilUnits_four, readerType2LastPage, if_neg hdeclares, hlast, hword]
  dsimp only
  rw [if_neg (not_or.mpr ⟨hne, by rw [hpages, hlastPage, type2CcPrefixBytes]; omega⟩), hwritten]

theorem writes_writeType2Impl_declared {ctx : Type2Context} {family : Type2Family} {s : TagState} (hpage : 3 ∈ pages)
    (hvalid : (type2ApplyCc (bytesAt s.memory 12 4)).ccValid = true)
    (hsize : (type2ApplyCc (bytesAt s.memory 12 4)).dataAreaSizeBytes ≠ 0) (hidentified : Identified told (ctx, family))
    (hfamily : family ≠ .unknown) :
    Writes (AnsweringType2Step told pages) (openPages told pages s.memory) (fun ok t => ok = true →
        type2NdefTlv (type2ApplyCc (bytesAt s.memory 12 4)) ndef = some (messageTlv ndef) ∧
          Has t.memory 16 (messageTlv ndef)) (writeType2Impl ctx family ndef) s := by
  rw [writeType2Impl]
  dsimp only
  split
  · exact writes_refused
  next htlv =>
  obtain ⟨heq, hne, hfits⟩ := writerTlv_spec htlv
  have hlen : (writerTlv ndef).length = tlvEnvelopeLen ndef.length := by rw [heq, messageTlv_length]
  refine (writes_collectType2Info ctx family s).bind fun collected t _ h => ?_
  obtain ⟨rfl, hcollected⟩ := h
  have hcontainer := hcollected.container hpage
  have hcc : collected.2.cc = type2ApplyCc (bytesAt t.memory 12 4) :=
      by rw [hcollected.cc, hcontainer, Option.getD_some]
  have hbytes := type2ApplyCc_size hvalid
  have hmagic := type2ApplyCc_magic hvalid
  have hmlen : u8At (bytesAt t.memory 12 4) 2 ≠ 0 := by
    intro hzero
    rw [hzero] at hbytes
    exact hsize (BitVec.eq_of_toNat_eq hbytes)
  split
  · exact writes_refused
  next hclosed =>
  split
  · exact writes_refused
  next hpassword =>
  split
  · exact writes_refused
  next hlast =>
  have hopen : (type2ApplyCc (bytesAt t.memory 12 4)).writeAccessOpen = true := by
    rw [hcc, hvalid] at hclosed
    simpa using hclosed
  have hunset : ¬ PasswordSet told pages t.memory := by
    rintro ⟨version, maxUserPage, htold, hversion, hpos, hmem, hprotects⟩
    have hntag := hidentified.family ⟨version, maxUserPage, htold, hversion⟩
    obtain ⟨version', htold', hknown, hsame⟩ := hidentified.version hntag
    obtain rfl : version' = version := Option.some.inj (htold'.symm.trans htold)
    exact hpassword ((hcollected.password hntag hknown maxUserPage (hsame.trans hversion) hpos hmem).trans hprotects)
  have hdeclared := writerType2MaxPage_declared hmagic hfamily (fun _ => hmlen) collected.1.version
  rw [← hcontainer] at hdeclared
  have hcap := writerType2MaxPage_le family collected.1.cc collected.1.version
  have hfirst : type2FirstDataPage = 4 := rfl
  have hfew := tlvHeader_length ndef.length
  have harea : tlvEnvelopeLen ndef.length ≤ 8 * (u8At (bytesAt t.memory 12 4) 2).toNat := by
    rw [hlen, units] at hlast
    omega
  have hcovers (readBack : Frame) (hlong : 4 ≤ readBack.length) (hread : readBack.take 4 = bytesAt t.memory 12 4) :
      needsCc (some readBack) (ccSizeByte collected.1 family (writerTlv ndef).length) = false := by
    refine needsCc_declared hmagic hcontainer hfamily (by rw [hlen]; exact harea) hlong ?_
    rw [← hread]
    have hbyte (i : Nat) (hi : i < 4) : u8At readBack i = u8At (readBack.take 4) i := by
      rw [u8At, u8At, List.getD_eq_getElem?_getD, List.getD_eq_getElem?_getD, List.getElem?_take_of_lt hi]
    exact ⟨hbyte 0 (by decide), hbyte 2 (by decide)⟩
  refine Writes.bind (writes_initialiseCc_covered hpage hcovers) fun ready u _ h => ?_
  obtain rfl := h
  split
  swap
  · exact writes_refused
  have hsub : unitsFrom 4 (writerTlv ndef) ⊆ openPages told pages u.memory := by
    rintro v ⟨hlow, hhigh⟩
    rw [hlen, units] at hhigh hlast
    refine ⟨hopen, hunset, hlow, ?_, ?_⟩
    · rw [hbytes]
      omega
    · omega
  refine ((writes_writerTlv htlv u).within hsub).mono fun ok v _ hstored hok => ⟨?_, hstored hok⟩
  exact type2NdefTlv_of_fits hvalid hopen hsize hfits (by rw [hbytes]; exact harea)

/-- **A write to a declared tag** stays inside what the tag leaves open, and a success is accepted by the area. -/
theorem writes_writeType2Ndef_declared (uid : Frame) {s : TagState} (hpage : 3 ∈ pages)
    (hvalid : (type2ApplyCc (bytesAt s.memory 12 4)).ccValid = true)
    (hsize : (type2ApplyCc (bytesAt s.memory 12 4)).dataAreaSizeBytes ≠ 0) :
    Writes (AnsweringType2Step told pages) (openPages told pages s.memory) (fun ok t => ok = true →
        type2NdefTlv (type2ApplyCc (bytesAt s.memory 12 4)) ndef = some (messageTlv ndef) ∧
          Has t.memory 16 (messageTlv ndef)) (writeType2Ndef uid ndef) s := by
  refine (writes_identifyType2Family uid s).bind fun identified t _ h => ?_
  obtain ⟨rfl, hidentified⟩ := h
  split
  · exact writes_refused
  next hknown => exact writes_writeType2Impl_declared hpage hvalid hsize hidentified hknown

end Write

/-! ### What a write leaves -/

/-- **The writer on a Type 2 tag that may answer anything.** At every moment of an attempt the units written are the
container page or pages of the TLV up to the last page of the largest tag, nothing else has changed, and a success has
the whole TLV behind the container. -/
theorem writeType2_within (told : Option Frame) (uid ndef : Frame) (memory : File Byte) {left : RfExchange Bool}
    {t : TagState}
    (hreach : Dialogue.Reaches (AnsweringType2Step told ∅) (writeType2Ndef uid ndef) ⟨memory, []⟩ left t) :
    WroteWithin (writerPages ndef) ⟨memory, []⟩ t ∧ (left = .done true → Has t.memory 16 (messageTlv ndef)) := by
  obtain ⟨hwithin, hdone⟩ := Dialogue.Holds.reaches (writes_writeType2Ndef uid ⟨memory, []⟩) hreach
  exact ⟨hwithin, fun hleft => hdone true hleft rfl⟩

/-- **The writer on a declared Type 2 tag.** When the tag has a container with an area and answers the READ of it, an
attempt touches pages of that area only, none at all where the container or a password closes them, and never the
container; behind a success a reader that the tag answers loads the message exactly when the container opens reading. -/
theorem writeType2_declared (told : Option Frame) (pages : Set Byte) (uid ndef : Frame) (memory : File Byte)
    (hpage : 3 ∈ pages) (hvalid : (type2ApplyCc (bytesAt memory 12 4)).ccValid = true)
    (hsize : (type2ApplyCc (bytesAt memory 12 4)).dataAreaSizeBytes ≠ 0) {left : RfExchange Bool} {t : TagState}
    (hreach : Dialogue.Reaches (AnsweringType2Step told pages) (writeType2Ndef uid ndef) ⟨memory, []⟩ left t) :
    WroteWithin (openPages told pages memory) ⟨memory, []⟩ t ∧
      (left = .done true → ∀ transceive family maxUserPage fastReadAllowed dstCap,
        Type2Loadable t.memory (type2ApplyCc (bytesAt memory 12 4)) transceive family maxUserPage →
        0 < dstCap → ndef.length ≤ dstCap →
          (loadType2NdefMessage (.over transceive family maxUserPage) fastReadAllowed dstCap = some ndef ↔
            (type2ApplyCc (bytesAt memory 12 4)).readAccessOpen = true)) := by
  obtain ⟨hwithin, hdone⟩ := Dialogue.Holds.reaches
    (@writes_writeType2Ndef_declared told pages ndef uid ⟨memory, []⟩ hpage hvalid hsize) hreach
  refine ⟨hwithin, fun hleft transceive family maxUserPage fastReadAllowed dstCap hload hpos hcap => ?_⟩
  obtain ⟨htlv, hstored⟩ := hdone true hleft rfl
  have hcc : bytesAt t.memory 12 4 = bytesAt memory 12 4 := by
    refine hwithin.bytesAt_eq fun i hfirst hend hmem => ?_
    have hlow : 4 ≤ i / 4 := hmem.2.2.1
    omega
  exact loadType2NdefMessage_iff fastReadAllowed (congrArg type2ApplyCc hcc) htlv hload hstored hpos hcap

/-! ### A tag that does what it is told -/

theorem obedient_steps (told : Option Frame) (s : TagState) (request : Request) :
    AnsweringType2Step told Set.univ s request (obedient told s request).1 (obedient told s request).2 where
  toType2Step := obedient_type2Step told s request
  version := by
    rintro rfl
    exact ⟨rfl, rfl⟩
  signature := by
    rintro rfl
    rfl
  answered page _ := by
    rintro rfl
    rw [obedient_read]
    exact ⟨_, rfl, by rw [bytesAt_length]; decide⟩

theorem writerTlv_eq {ndef : Frame} (hne : ndef ≠ []) (hfits : tlvEnvelopeLen ndef.length ≤ 880) :
    writerTlv ndef = messageTlv ndef := by
  have hcap : (List.replicate writerNdefMaxBytes (0 : Byte)).length = 880 := List.length_replicate
  rw [writerTlv, if_neg hne, buildMessageTlv_of_fits (by rw [hcap]; decide) (by rw [hcap]; exact hfits)]
  exact List.take_left' (messageTlv_length ndef)

theorem obedient_within (told : Option Frame) (s : TagState) (request : Request) :
    AnsweringType2Step told ∅ s request (obedient told s request).1 (obedient told s request).2 :=
  ⟨(obedient_steps told s request).toWriterType2Step, fun _ h => absurd h (Set.notMem_empty _)⟩

/-- An NTAG213 as it is delivered: its version, its container, and no password. -/
def ntag213Version : Frame := [0x00, 0x04, 0x04, 0x02, 0x01, 0x00, 0x0F, 0x03]

def ntag213Memory : File Byte :=
  FileUpdate.patch (memoryOf 12 [forumCcMagic, t2tCcVersion, ntag213CcMlen, 0x00]) ⟨4 * 41, [0, 0, 0, 0xFF]⟩

theorem ntag213_written : ((writeType2Ndef [0x04] [0xD0, 0x00, 0x00]).run (obedient (some ntag213Version))
    ⟨ntag213Memory, []⟩).1 = true := by
  rw [writeType2Ndef]
  simp only [writeType2Impl]
  rw [writerTlv_eq (by decide) (by decide)]
  decide

theorem writeType2_within_ntag213 : ∃ t, WroteWithin (writerPages [0xD0, 0x00, 0x00]) ⟨ntag213Memory, []⟩ t ∧
    Has t.memory 16 (messageTlv [0xD0, 0x00, 0x00]) := by
  have hrun := Dialogue.reaches_run (fun s request => obedient_within (some ntag213Version) s request)
    (writeType2Ndef [0x04] [0xD0, 0x00, 0x00]) ⟨ntag213Memory, []⟩
  obtain ⟨hwithin, hstored⟩ := writeType2_within (some ntag213Version) [0x04] [0xD0, 0x00, 0x00] ntag213Memory hrun
  exact ⟨_, hwithin, hstored (by rw [ntag213_written])⟩

theorem writeType2_declared_ntag213 : ∃ t,
    WroteWithin (openPages (some ntag213Version) Set.univ ntag213Memory) ⟨ntag213Memory, []⟩ t ∧
      loadType2NdefMessage (.over (pageReads t.memory) .ntag21x 39) false 3 = some [0xD0, 0x00, 0x00] := by
  have hrun := Dialogue.reaches_run (obedient_steps (some ntag213Version)) (writeType2Ndef [0x04] [0xD0, 0x00, 0x00])
    ⟨ntag213Memory, []⟩
  obtain ⟨hwithin, hloads⟩ := writeType2_declared (some ntag213Version) Set.univ [0x04] [0xD0, 0x00, 0x00] ntag213Memory
    (Set.mem_univ 3) (by decide) (by decide) hrun
  have hload := hloads (by rw [ntag213_written]) _ .ntag21x 39 false 3 (pageReads_loadable _ _ _ _)
    (by decide) (by decide)
  exact ⟨_, hwithin, hload.mpr (by decide)⟩

end NeroReader.Tags
