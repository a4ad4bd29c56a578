import NeroReader.HostWriter
import NeroReader.WriterContact

/-!
The Wi-Fi records of the host and of the firmware. Both put the same attributes into a credential and that into a
MIME record, and both decoders find the network name and the passphrase in it. The firmware takes a name of at most
32 bytes; the host takes any name whose record is short enough, so that some records only the host builds.
-/

namespace NeroReader.WifiRecords

open HostNdef HostWriter Ndef WriterPayload

/-! ### The two builders -/

/-- `WpsPutAttr`. -/
def putAttr (out : Frame) (attr : Nat) (data : Frame) : Frame := out ++ Attributes.put attr data

/-- `BuildWriterWifiRecord`; a refusal is the empty record. -/
def buildWriterWifiRecord (spec : Frame) : Frame :=
  let parts := HostWriter.splitPipe spec
  if parts.length < 2 ∨ (part parts 0).isEmpty ∨ (part parts 1).length < wscPskMinLen ∨
      wscPskMaxLen < (part parts 1).length then []
  else
    let inner := putAttr [] wscAttrNetworkIndex [0x01]
    let inner := putAttr inner wscAttrSsid (part parts 0)
    let inner := putAttr inner wscAttrAuthType [0x00, 0x20]
    let inner := putAttr inner wscAttrEncrType [0x00, 0x08]
    let inner := putAttr inner wscAttrNetworkKey (part parts 1)
    let inner := putAttr inner wscAttrMacAddress (List.replicate 6 0x00)
    let credential := putAttr [] wscAttrCredential inner
    buildNdefMimeRecord mimeWsc (wscVersion ++ credential)

def writerNdefMaxBytes : Nat := 880

/-- A network name and a passphrase, without a separator and without a terminator. -/
structure Network where
  ssid : Frame
  psk : Frame
  no_bar : bar ∉ ssid ∧ bar ∉ psk
  no_zero : (0 : Byte) ∉ ssid ∧ (0 : Byte) ∉ psk

namespace Network

variable (n : Network)

def hostRecord : Frame := buildWriterWifiRecord (n.ssid ++ bar :: n.psk)

/-- The firmware's record, in the buffer that the writer builds its messages in; fields that do not fit the arrays of
the configuration are not taken. -/
def firmwareRecord : Frame :=
  if h : n.ssid.length ≤ str1Max ∧ n.psk.length ≤ str2Max then
    writerPayloadBuildNdef ⟨.wifiWsc, .ofText _ n.ssid h.1, .ofText _ n.psk h.2, [], 0⟩ writerNdefMaxBytes
  else []

/-- Both walks of a decoder find the name and the passphrase in the credential. -/
def FoundBy (find : Frame → Nat → Option Frame) (payload : Frame) : Prop :=
  ∃ credential, find payload wscAttrCredential = some credential ∧ find credential wscAttrSsid = some n.ssid ∧
    find credential wscAttrNetworkKey = some n.psk

/-- Both refuse, or both build the same record and the fields are found in it. -/
def Agree : Prop :=
  n.hostRecord = n.firmwareRecord ∧ (n.hostRecord ≠ [] → ∃ payload, Alone n.hostRecord tnfMime mimeWsc payload ∧
    n.FoundBy HostNdef.wscAttrPayload payload ∧ n.FoundBy NdefPrint.wscAttrPayload payload)

/-- A name that is there and a passphrase of an admitted length. -/
def Admitted : Prop := n.ssid ≠ [] ∧ wscPskMinLen ≤ n.psk.length ∧ n.psk.length ≤ wscPskMaxLen

instance : Decidable n.Admitted := inferInstanceAs (Decidable (_ ∧ _))

/-- The record of the network, a short one. -/
def record : Frame :=
  (hdrMb ||| hdrMe ||| hdrSr ||| tnfMime) :: BitVec.ofNat 8 mimeWsc.length ::
    BitVec.ofNat 8 (credentialBlob n.ssid n.psk).length :: (mimeWsc ++ credentialBlob n.ssid n.psk)

/-! ### What each builds -/

theorem length_blob : (credentialBlob n.ssid n.psk).length = 44 + n.ssid.length + n.psk.length := by
  have hlen := length_credentialOf n.ssid n.psk
  have hversion : wscVersion.length = 5 := rfl
  rw [credentialBlob, List.length_append, Attributes.length_put, hlen, hversion]
  omega

theorem hostRecord_eq :
    n.hostRecord = if n.Admitted ∧ n.ssid.length + n.psk.length ≤ 211 then n.record else [] := by
  have hlen := n.length_blob
  rw [hostRecord, buildWriterWifiRecord, splitPipe_two ⟨n.ssid, n.no_bar.1⟩ ⟨n.psk, n.no_bar.2⟩]
  simp only [part, List.getD_cons_zero, List.getD_cons_succ, List.length_cons, List.length_nil, List.isEmpty_iff]
  by_cases hadmitted : n.Admitted
  · have hname := hadmitted.1
    have hmin := hadmitted.2.1
    have hmax := hadmitted.2.2
    rw [if_neg (by simp only [hname, false_or]; omega)]
    have hblob : wscVersion ++ putAttr [] wscAttrCredential (putAttr (putAttr (putAttr (putAttr (putAttr (putAttr []
        wscAttrNetworkIndex [0x01]) wscAttrSsid n.ssid) wscAttrAuthType [0x00, 0x20]) wscAttrEncrType [0x00, 0x08])
        wscAttrNetworkKey n.psk) wscAttrMacAddress (List.replicate 6 0x00)) = credentialBlob n.ssid n.psk := by
      simp only [putAttr, credentialBlob, credentialOf, List.nil_append, List.append_assoc]
    rw [hblob, buildNdefMimeRecord]
    have hmime : mimeWsc.length = 23 := rfl
    have hempty : mimeWsc.isEmpty = false := rfl
    by_cases hfits : n.ssid.length + n.psk.length ≤ 211
    · have hshort : ¬(srPayloadMax < mimeWsc.length ∨ srPayloadMax < (credentialBlob n.ssid n.psk).length) := by
        rw [srPayloadMax]
        omega
      rw [if_neg (by simpa [hempty] using hshort), appendShortRecord, if_neg hshort,
        if_pos (And.intro hadmitted hfits)]
      rfl
    · have hlong : srPayloadMax < (credentialBlob n.ssid n.psk).length := by
        rw [srPayloadMax]
        omega
      rw [if_pos (Or.inr (Or.inr hlong)), if_neg fun h => hfits (And.right h)]
  · have hrefused : 0 + 1 + 1 < 2 ∨ n.ssid = [] ∨ n.psk.length < wscPskMinLen ∨ wscPskMaxLen < n.psk.length := by
      by_contra hbad
      simp only [not_or, Nat.not_lt] at hbad
      exact hadmitted ⟨hbad.2.1, hbad.2.2.1, hbad.2.2.2⟩
    rw [if_pos hrefused, if_neg fun h => hadmitted (And.left h)]

theorem wpsPutAttr_of_le {bufCap attr : Nat} {data buf : Frame} (h : buf.length + 4 + data.length ≤ bufCap) :
    wpsPutAttr bufCap attr data buf = some (buf ++ Attributes.put attr data) := by
  rw [wpsPutAttr, if_neg (Nat.not_lt.mpr h)]

/-- An array that holds a text has it as its string, where the text is shorter than the bound. -/
theorem boundedStrlen_ofText {size cap : Nat} {text : Frame} (hzero : (0 : Byte) ∉ text) (h : text.length ≤ size)
    (hcap : cap ≤ size) : boundedStrlen (CharArray.ofText size text h).bytes cap =
      if text.length < cap then some text.length else none := by
  by_cases hshort : text.length < cap
  · obtain ⟨more, hmore⟩ : ∃ more, size - text.length = more + 1 := ⟨size - text.length - 1, by omega⟩
    rw [if_pos hshort]
    show boundedStrlen (text ++ List.replicate (size - text.length) 0) cap = some text.length
    rw [hmore, List.replicate_succ]
    exact boundedStrlen_text hzero hshort
  · rw [if_neg hshort]
    cases hlen : boundedStrlen (CharArray.ofText size text h).bytes cap with
    | none => rfl
    | some len =>
        obtain ⟨-, hlength, hlt⟩ := boundedStrlen_spec hlen
        have htext : text.length ≤ (cText (CharArray.ofText size text h).bytes).length := by
          have hall : ∀ ch ∈ text, decide (ch ≠ 0) = true := by
            intro ch hmem
            rw [decide_eq_true_eq]
            rintro rfl
            exact hzero hmem
          rw [CharArray.ofText, cText, List.takeWhile_append_of_pos hall, List.length_append]
          exact Nat.le_add_right _ _
        omega

/-- The attributes fit the buffers of the firmware. -/
theorem putAttrs_eq (hname : n.ssid.length ≤ wscSsidMaxLen) (hkey : n.psk.length ≤ wscPskMaxLen) : (do
    let inner ← wpsPutAttr wifiWscInnerMax wscAttrNetworkIndex [0x01] []
    let inner ← wpsPutAttr wifiWscInnerMax wscAttrSsid n.ssid inner
    let inner ← wpsPutAttr wifiWscInnerMax wscAttrAuthType [0x00, 0x20] inner
    let inner ← wpsPutAttr wifiWscInnerMax wscAttrEncrType [0x00, 0x08] inner
    let inner ← wpsPutAttr wifiWscInnerMax wscAttrNetworkKey n.psk inner
    let inner ← wpsPutAttr wifiWscInnerMax wscAttrMacAddress (List.replicate 6 0x00) inner
    let cred ← wpsPutAttr wifiWscCredMax wscAttrCredential inner []
    if wifiWscBlobMax < cred.length + wscVersion.length then none else some (wscVersion ++ cred)) =
      some (credentialBlob n.ssid n.psk) := by
  rw [wscSsidMaxLen] at hname
  rw [wscPskMaxLen] at hkey
  have hinner : wifiWscInnerMax = 140 := rfl
  have hcred : wifiWscCredMax = 144 := rfl
  have hblob : wifiWscBlobMax = 200 := rfl
  have hversion : wscVersion.length = 5 := rfl
  have hfits : ∀ {attr : Nat} {data buf : Frame}, buf.length + 4 + data.length ≤ 140 →
      wpsPutAttr wifiWscInnerMax attr data buf = some (buf ++ Attributes.put attr data) :=
    fun h => wpsPutAttr_of_le h
  simp only [Option.bind_eq_bind]
  rw [hfits (by decide), Option.bind_some, hfits (by simp; omega), Option.bind_some, hfits (by simp; omega),
    Option.bind_some, hfits (by simp; omega), Option.bind_some, hfits (by simp; omega), Option.bind_some,
    hfits (by simp; omega), Option.bind_some, wpsPutAttr_of_le (by simp; omega), Option.bind_some, if_neg]
  · simp only [credentialBlob, credentialOf, List.nil_append, List.append_assoc]
  · simp only [List.length_append, Attributes.length_put, List.length_nil, List.length_cons, List.length_replicate]
    omega

theorem take_ofText {size : Nat} {text : Frame} (h : text.length ≤ size) :
    (CharArray.ofText size text h).bytes.take text.length = text := List.take_left

theorem buildWifiWsc_ofText (hname : n.ssid.length ≤ str1Max) (hkey : n.psk.length ≤ str2Max) :
    buildWifiWsc wifiWscBlobMax (CharArray.ofText str1Max n.ssid hname).bytes
      (CharArray.ofText str2Max n.psk hkey).bytes =
      if n.Admitted ∧ n.ssid.length ≤ wscSsidMaxLen then some (credentialBlob n.ssid n.psk) else none := by
  rw [buildWifiWsc, boundedStrlen_ofText n.no_zero.1 hname (by decide),
    boundedStrlen_ofText n.no_zero.2 hkey (by decide)]
  by_cases hssid : n.ssid.length ≤ wscSsidMaxLen
  case neg => rw [if_neg (by omega), if_neg fun h => hssid (And.right h)]
  by_cases hpsk : n.psk.length ≤ wscPskMaxLen
  case neg =>
    rw [if_pos (by omega), if_neg (by omega), if_neg]
    intro h
    exact hpsk h.1.2.2
  rw [if_pos (by omega), if_pos (by omega)]
  dsimp only
  by_cases hadmitted : n.Admitted
  · have hne : n.ssid.length ≠ 0 := fun h => hadmitted.1 (List.length_eq_zero_iff.mp h)
    have hmin := hadmitted.2.1
    rw [if_neg (by omega), if_pos (And.intro hadmitted hssid), take_ofText, take_ofText]
    exact n.putAttrs_eq hssid hpsk
  · rw [if_pos, if_neg fun h => hadmitted (And.left h)]
    by_contra hbad
    simp only [not_or, Nat.not_lt] at hbad
    exact hadmitted ⟨fun h => hbad.1 (by rw [h]; rfl), hbad.2.2.1, hbad.2.2.2⟩

/-- A blob of an admitted network is short enough for a record. -/
theorem ndefEmitMimeSr_blob (hname : n.ssid.length ≤ wscSsidMaxLen) (hkey : n.psk.length ≤ wscPskMaxLen) :
    ndefEmitMimeSr writerNdefMaxBytes mimeWsc (credentialBlob n.ssid n.psk) = n.record := by
  have hlen := n.length_blob
  have hmime : mimeWsc.length = 23 := rfl
  rw [wscSsidMaxLen] at hname
  rw [wscPskMaxLen] at hkey
  rw [ndefEmitMimeSr, if_neg (by rw [rtdMimeTypeMax, rtdVcardBodyMax]; omega),
    if_neg (by rw [srPayloadMax, writerNdefMaxBytes]; omega), record]

theorem firmwareRecord_eq :
    n.firmwareRecord = if n.Admitted ∧ n.ssid.length ≤ wscSsidMaxLen then n.record else [] := by
  have hsmall1 : wscSsidMaxLen < str1Max := by decide
  have hsmall2 : wscPskMaxLen < str2Max := by decide
  rw [firmwareRecord]
  by_cases hfits : n.ssid.length ≤ str1Max ∧ n.psk.length ≤ str2Max
  case neg =>
    rw [dif_neg hfits, if_neg]
    rintro ⟨⟨-, -, hmax⟩, hname⟩
    exact hfits ⟨by omega, by omega⟩
  rw [dif_pos hfits, writerPayloadBuildNdef, if_neg (by decide), WriterPayload.buildNdefMessage]
  dsimp only
  rw [boundedStrlen_ofText n.no_zero.1 hfits.1 (Nat.le_refl _),
    boundedStrlen_ofText n.no_zero.2 hfits.2 (Nat.le_refl _)]
  by_cases hterminated : n.ssid.length < str1Max ∧ n.psk.length < str2Max
  case neg =>
    rw [if_neg (c := n.Admitted ∧ n.ssid.length ≤ wscSsidMaxLen) (by
      rintro ⟨⟨-, -, hmax⟩, hname⟩
      exact hterminated ⟨by omega, by omega⟩)]
    by_cases hname : n.ssid.length < str1Max
    · rw [if_pos hname, if_neg fun h => hterminated ⟨hname, h⟩]
    · rw [if_neg hname]
  rw [if_pos hterminated.1, if_pos hterminated.2]
  dsimp only
  rw [n.buildWifiWsc_ofText hfits.1 hfits.2]
  by_cases hbuilt : n.Admitted ∧ n.ssid.length ≤ wscSsidMaxLen
  · rw [if_pos hbuilt, if_pos hbuilt]
    exact n.ndefEmitMimeSr_blob hbuilt.2 hbuilt.1.2.2
  · rw [if_neg hbuilt, if_neg hbuilt]

/-! ### Where they agree -/

theorem record_ne_nil : n.record ≠ [] := List.cons_ne_nil _ _

/-- The record of a network that both take, and its fields in it. -/
theorem record_found (hname : n.ssid.length ≤ wscSsidMaxLen) (hkey : n.psk.length ≤ wscPskMaxLen) :
    Alone n.record tnfMime mimeWsc (credentialBlob n.ssid n.psk) ∧
      n.FoundBy NdefPrint.wscAttrPayload (credentialBlob n.ssid n.psk) := by
  constructor
  · have hemitted := n.ndefEmitMimeSr_blob hname hkey
    rw [← hemitted]
    exact (ndefEmitMimeSr_spec (by rw [hemitted]; exact n.record_ne_nil)).1.alone
  · obtain ⟨hssid, -, -, hpsk⟩ := wscAttr_fields hname hkey
    exact ⟨_, wscAttr_credential hname hkey, hssid, hpsk⟩

/-- **The host and the firmware agree on a network** exactly when its name is short enough for the firmware, or both
refuse it for its passphrase or for the length of its record. -/
theorem agree_iff : n.Agree ↔ n.ssid.length ≤ wscSsidMaxLen ∨ n.psk.length < wscPskMinLen ∨
    wscPskMaxLen < n.psk.length ∨ 211 < n.ssid.length + n.psk.length := by
  have hhost := n.hostRecord_eq
  have hfirmware := n.firmwareRecord_eq
  constructor
  · rintro ⟨hsame, -⟩
    by_contra hbad
    simp only [not_or, Nat.not_lt, Nat.not_le] at hbad
    have hadmitted : n.Admitted := by
      refine ⟨?_, hbad.2.1, hbad.2.2.1⟩
      rintro hnil
      rw [hnil] at hbad
      exact Nat.not_lt_zero _ hbad.1
    rw [hhost, hfirmware, if_pos ⟨hadmitted, hbad.2.2.2⟩, if_neg (by omega)] at hsame
    exact n.record_ne_nil hsame
  · intro h
    rw [Agree, hhost, hfirmware]
    by_cases hadmitted : n.Admitted
    case neg =>
      rw [if_neg fun h => hadmitted h.1, if_neg fun h => hadmitted h.1]
      exact ⟨rfl, fun hne => absurd rfl hne⟩
    have hmin := hadmitted.2.1
    have hmax := hadmitted.2.2
    by_cases hname : n.ssid.length ≤ wscSsidMaxLen
    · have hfits : n.ssid.length + n.psk.length ≤ 211 := by
        rw [wscSsidMaxLen] at hname
        rw [wscPskMaxLen] at hmax
        omega
      rw [if_pos ⟨hadmitted, hfits⟩, if_pos ⟨hadmitted, hname⟩]
      obtain ⟨halone, hfound⟩ := n.record_found hname hmax
      exact ⟨rfl, fun _ => ⟨_, halone, hfound, hfound⟩⟩
    · rw [if_neg (by omega), if_neg fun h => hname h.2]
      exact ⟨rfl, fun hne => absurd rfl hne⟩

end Network

/-- A network whose name has one byte more than the firmware takes. -/
def longName : Network where
  ssid := List.replicate 33 0x61
  psk := ascii "password"
  no_bar := by decide
  no_zero := by decide

theorem longName_disagrees : longName.hostRecord ≠ [] ∧ longName.firmwareRecord = [] ∧ ¬longName.Agree := by
  have hhost : longName.hostRecord ≠ [] := by decide
  have hfirmware : longName.firmwareRecord = [] := by decide
  refine ⟨hhost, hfirmware, fun h => hhost ?_⟩
  rw [h.1, hfirmware]

end NeroReader.WifiRecords
