import NeroReader.Attributes
import NeroReader.CString
import NeroReader.NdefRecord

/-!
The NDEF messages the firmware writes. A configuration holds two character arrays whose meaning depends
on the kind of payload; they are formatted into a URI, a text, a contact, a Wi-Fi credential or a
Bluetooth address, and one short record is emitted around the result. A refusal is the empty message.
-/

namespace NeroReader.WriterPayload

open Ndef

def str1Max : Nat := 860
def str2Max : Nat := 120
def rtdUriPayloadMax : Nat := 220
def rtdTextPayloadMax : Nat := 200
def rtdMimeTypeMax : Nat := 60
def rtdVcardBodyMax : Nat := 380
def smsUriOverhead : Nat := 24
def mailtoUriOverhead : Nat := 32
def geoUriOverhead : Nat := 8
def vcardTextMax : Nat := str1Max + str2Max * 2 + 66
def wscSsidMaxLen : Nat := 32
def wscPskMinLen : Nat := 8
def wscPskMaxLen : Nat := 63
def wifiWscInnerMax : Nat := 140
def wifiWscCredMax : Nat := 144
def wifiWscBlobMax : Nat := 200
def btMacOctetCount : Nat := 6
def btMacStrLen : Nat := 17
def btOobPayloadLen : Byte := 8
def uriPrefixNone : Byte := 0x00
def textStatusUtf8Lang2 : Byte := 0x02
def asciiFirstPrintable : Byte := 0x20
def bar : Byte := 0x7C
def colon : Byte := 0x3A

inductive Kind where
  | none
  | urlHttps
  | plainText
  | smsUri
  | mailtoUri
  | geoUri
  | vcardMime
  | wifiWsc
  | uriRaw
  | btOob
  | rawNdef
  | unknown
  deriving DecidableEq, Repr

/-- An array of characters. -/
structure CharArray (size : Nat) where
  bytes : Frame
  length_bytes : bytes.length = size

/-- The array that holds a text and is zero behind it. -/
def CharArray.ofText (size : Nat) (text : Frame) (h : text.length ≤ size) : CharArray size where
  bytes := text ++ List.replicate (size - text.length) 0
  length_bytes := by
    rw [List.length_append, List.length_replicate]
    omega

structure Config where
  kind : Kind
  str1 : CharArray str1Max
  str2 : CharArray str2Max
  rawNdef : Frame
  uriId : Byte

/-! ### C strings -/

/-- `writer_copy_cstr_from_span`: the string copied. -/
def copyCstrFromSpan (dstCap : Nat) (src : Frame) (srcCap : Nat) : Option Frame :=
  match boundedStrlen src srcCap with
  | none => none
  | some len => if dstCap ≤ len then none else some (src.take len)

/-- `writer_copy_cstr`. -/
def copyCstr (dstCap : Nat) (src : Frame) : Option Frame := copyCstrFromSpan dstCap src dstCap

/-- The second array taken apart at its first bar, into subject and body or telephone and e-mail. -/
def splitFields (str2 : Frame) (str2Len : Nat) : Option (Frame × Frame) :=
  if (str2.take str2Len).contains bar then
    let sep := ((str2.take str2Len).takeWhile (· ≠ bar)).length
    if str2Max ≤ sep then none
    else (copyCstrFromSpan str2Max (str2.drop (sep + 1)) (str2Len - sep)).map fun second =>
      (str2.take sep, second)
  else (copyCstr str2Max str2).map fun first => (first, [])

/-- `writer_cstr_has_control_char`. -/
def cstrHasControlChar (s : Frame) : Bool :=
  match boundedStrlen s str1Max with
  | none => true
  | some len => (s.take len).any fun ch => decide (ch < asciiFirstPrintable)

/-- What stands in front of the first bar, and behind it. -/
def beforeBar (text : Frame) : Frame := text.takeWhile (· ≠ bar)
def behindBar (text : Frame) : Frame := (text.dropWhile (· ≠ bar)).tail

theorem copyCstrFromSpan_text {text rest : Frame} {dstCap srcCap : Nat} (hzero : (0 : Byte) ∉ text)
    (hsrc : text.length < srcCap) (hdst : text.length < dstCap) :
    copyCstrFromSpan dstCap (text ++ 0 :: rest) srcCap = some text := by
  rw [copyCstrFromSpan, boundedStrlen_text hzero hsrc]
  dsimp only
  rw [if_neg (Nat.not_le.mpr hdst), List.take_left]

theorem split_at_bar {text : Frame} (h : bar ∈ text) : text = beforeBar text ++ bar :: behindBar text := by
  induction text with
  | nil => simp at h
  | cons ch text ih =>
      by_cases hch : ch = bar
      · subst hch
        simp [beforeBar, behindBar]
      · have htext : bar ∈ text := (List.mem_cons.mp h).resolve_left (Ne.symm hch)
        have hbefore : beforeBar (ch :: text) = ch :: beforeBar text :=
          List.takeWhile_cons_of_pos (decide_eq_true hch)
        have hbehind : behindBar (ch :: text) = behindBar text :=
          congrArg List.tail (List.dropWhile_cons_of_pos (decide_eq_true hch))
        rw [hbefore, hbehind, List.cons_append, ← ih htext]

theorem no_bar {text : Frame} (h : bar ∉ text) : beforeBar text = text ∧ behindBar text = [] := by
  have hall : ∀ ch ∈ text, decide (ch ≠ bar) = true := by
    intro ch hmem
    exact decide_eq_true fun hch => h (hch ▸ hmem)
  rw [beforeBar, behindBar, List.takeWhile_eq_self_iff.mpr hall, List.dropWhile_eq_nil_iff.mpr hall]
  exact ⟨rfl, rfl⟩

/-- **Splitting cannot fail** on a terminated array. -/
theorem splitFields_eq {str2 : Frame} {len : Nat} (h : boundedStrlen str2 str2Max = some len) :
    splitFields str2 len = some (beforeBar (cText str2), behindBar (cText str2)) := by
  obtain ⟨⟨rest, hrest⟩, hlen, hcap⟩ := boundedStrlen_spec h
  have hzero := zero_notMem_cText str2
  rw [splitFields, boundedStrlen_take h]
  generalize cText str2 = text at *
  subst hrest
  by_cases hbar : bar ∈ text
  · have hsplit := split_at_bar hbar
    have hlength := congrArg List.length hsplit
    rw [List.length_append, List.length_cons] at hlength
    have hsep : (text.takeWhile (· ≠ bar)).length = (beforeBar text).length := rfl
    rw [str2Max] at hcap
    have hall : text ++ 0 :: rest = (beforeBar text ++ [bar]) ++ (behindBar text ++ 0 :: rest) := by
      conv_lhs => rw [hsplit]
      simp
    have hdrop : (text ++ 0 :: rest).drop ((beforeBar text).length + 1) = behindBar text ++ 0 :: rest := by
      rw [hall]
      exact List.drop_left' (by simp)
    have hsecond : (0 : Byte) ∉ behindBar text := by
      intro hmem
      rw [hsplit] at hzero
      exact hzero (List.mem_append_right _ (List.mem_cons_of_mem _ hmem))
    rw [if_pos (List.contains_iff_mem.mpr hbar)]
    dsimp only
    rw [hsep, if_neg (by rw [str2Max]; omega), hdrop,
      copyCstrFromSpan_text hsecond (by omega) (by rw [str2Max]; omega), Option.map_some, hall,
      List.append_assoc, List.take_left]
  · obtain ⟨hfirst, hsecond⟩ := no_bar hbar
    rw [if_neg (mt List.contains_iff_mem.mp hbar), copyCstr,
      copyCstrFromSpan_text hzero (by omega) (by omega), Option.map_some, hfirst, hsecond]

/-! ### Emitting a record -/

/-- `ndef_emit_uri`. -/
def ndefEmitUri (cap : Nat) (uriId : Byte) (uri : Frame) : Frame :=
  if uriPrefixCodeCount ≤ uriId.toNat then []
  else
    match boundedStrlen uri (rtdUriPayloadMax + 1) with
    | none => []
    | some len =>
        if rtdUriPayloadMax < len ∨ len = 0 then []
        else if cap < 3 + 1 + (1 + len) then []
        else
          (hdrMb ||| hdrMe ||| hdrSr ||| tnfWellKnown) :: 1 :: BitVec.ofNat 8 (1 + len) :: rtdTypeUri ::
            uriId :: uri.take len

def enLang : Frame := ascii "en"

/-- `ndef_emit_text`. -/
def ndefEmitText (cap : Nat) (text : Frame) : Frame :=
  match boundedStrlen text (rtdTextPayloadMax + 1) with
  | none => []
  | some len =>
      if rtdTextPayloadMax < len then []
      else if cap < 3 + 1 + (1 + enLang.length + len) then []
      else
        (hdrMb ||| hdrMe ||| hdrSr ||| tnfWellKnown) :: 1 :: BitVec.ofNat 8 (1 + enLang.length + len) ::
          rtdTypeText :: textStatusUtf8Lang2 :: (enLang ++ text.take len)

/-- `ndef_emit_mime_sr`. -/
def ndefEmitMimeSr (cap : Nat) (mime payload : Frame) : Frame :=
  if rtdMimeTypeMax < mime.length ∨ mime.length = 0 ∨ rtdVcardBodyMax < payload.length then []
  else if srPayloadMax ≤ payload.length ∨ cap < 3 + mime.length + payload.length then []
  else
    (hdrMb ||| hdrMe ||| hdrSr ||| tnfMime) :: BitVec.ofNat 8 mime.length ::
      BitVec.ofNat 8 payload.length :: (mime ++ payload)

/-! ### Formatting -/

def smsUri (number body : Frame) : Frame :=
  if body ≠ [] then ascii "sms:" ++ (number ++ (ascii "?body=" ++ body)) else ascii "sms:" ++ number

def mailtoUri (address subject body : Frame) : Frame :=
  if body ≠ [] then
    ascii "mailto:" ++ (address ++ (ascii "?subject=" ++ (subject ++ (ascii "&body=" ++ body))))
  else if subject ≠ [] then ascii "mailto:" ++ (address ++ (ascii "?subject=" ++ subject))
  else ascii "mailto:" ++ address

def geoUri (place : Frame) : Frame := ascii "geo:" ++ place

def vcardText (name tel email : Frame) : Frame :=
  ascii "BEGIN:VCARD\r\nVERSION:4.0\r\nFN:" ++ (name ++ (ascii "\r\nTEL:" ++ (tel ++
    (ascii "\r\nEMAIL:" ++ (email ++ ascii "\r\nEND:VCARD\r\n")))))

/-- A URI formatted into a buffer and emitted, unless it did not fit the buffer. -/
def emitFormatted (size cap : Nat) (uri : Frame) : Frame :=
  if size ≤ uri.length then [] else ndefEmitUri cap uriPrefixNone (uri ++ [0])

/-- `wps_put_attr` behind what the buffer holds already. -/
def wpsPutAttr (bufCap attr : Nat) (data buf : Frame) : Option Frame :=
  if bufCap < buf.length + 4 + data.length then none else some (buf ++ Attributes.put attr data)

def wscVersion : Frame := [0x10, 0x4A, 0x00, 0x01, 0x10]

/-- `build_wifi_wsc`. -/
def buildWifiWsc (blobCap : Nat) (ssid psk : Frame) : Option Frame :=
  match boundedStrlen ssid (wscSsidMaxLen + 1), boundedStrlen psk (wscPskMaxLen + 1) with
  | some ssidLen, some keyLen =>
      if ssidLen = 0 ∨ wscSsidMaxLen < ssidLen ∨ keyLen < wscPskMinLen ∨ wscPskMaxLen < keyLen then none
      else do
        let inner ← wpsPutAttr wifiWscInnerMax wscAttrNetworkIndex [0x01] []
        let inner ← wpsPutAttr wifiWscInnerMax wscAttrSsid (ssid.take ssidLen) inner
        let inner ← wpsPutAttr wifiWscInnerMax wscAttrAuthType [0x00, 0x20] inner
        let inner ← wpsPutAttr wifiWscInnerMax wscAttrEncrType [0x00, 0x08] inner
        let inner ← wpsPutAttr wifiWscInnerMax wscAttrNetworkKey (psk.take keyLen) inner
        let inner ← wpsPutAttr wifiWscInnerMax wscAttrMacAddress (List.replicate 6 0x00) inner
        let cred ← wpsPutAttr wifiWscCredMax wscAttrCredential inner []
        if blobCap < cred.length + wscVersion.length then none else some (wscVersion ++ cred)
  | _, _ => none

/-- `nfc_hex_nibble`. -/
def hexNibble (ch : Byte) : Option Byte :=
  if 0x30 ≤ ch ∧ ch ≤ 0x39 then some (ch - 0x30)
  else if 0x61 ≤ ch ∧ ch ≤ 0x66 then some (10 + (ch - 0x61))
  else if 0x41 ≤ ch ∧ ch ≤ 0x46 then some (10 + (ch - 0x41))
  else none

/-- The loop of `parse_bt_mac`, with the octets still to come. -/
def parseBtMacFrom : Nat → Frame → Option Frame
  | 0, s => if u8At s 0 = 0 then some [] else none
  | left + 1, s =>
      match hexNibble (u8At s 0), hexNibble (u8At s 1) with
      | some hi, some lo =>
          if left ≠ 0 ∧ u8At s 2 ≠ colon then none
          else (parseBtMacFrom left (s.drop (if left ≠ 0 then 3 else 2))).map ((hi <<< 4 ||| lo) :: ·)
      | _, _ => none

/-- `parse_bt_mac`. -/
def parseBtMac (s : Frame) : Option Frame := parseBtMacFrom btMacOctetCount s

/-- `build_ndef_message`. -/
def buildNdefMessage (cfg : Config) (cap : Nat) : Frame :=
  match boundedStrlen cfg.str1.bytes str1Max, boundedStrlen cfg.str2.bytes str2Max with
  | some len1, some len2 =>
      let str1 := cfg.str1.bytes.take len1
      let str2 := cfg.str2.bytes.take len2
      match cfg.kind with
      | .none => []
      | .urlHttps => ndefEmitUri cap uriPrefixHttps cfg.str1.bytes
      | .plainText => ndefEmitText cap cfg.str1.bytes
      | .uriRaw => ndefEmitUri cap cfg.uriId cfg.str1.bytes
      | .rawNdef => if cfg.rawNdef.length = 0 ∨ cap < cfg.rawNdef.length then [] else cfg.rawNdef
      | .smsUri => emitFormatted (str1Max + str2Max + smsUriOverhead) cap (smsUri str1 str2)
      | .mailtoUri =>
          match splitFields cfg.str2.bytes len2 with
          | none => []
          | some (subject, body) =>
              emitFormatted (str1Max + str2Max * 2 + mailtoUriOverhead) cap (mailtoUri str1 subject body)
      | .geoUri => emitFormatted (str1Max + geoUriOverhead) cap (geoUri str1)
      | .vcardMime =>
          match splitFields cfg.str2.bytes len2 with
          | none => []
          | some (tel, email) =>
              if cstrHasControlChar cfg.str1.bytes ∨ cstrHasControlChar (tel ++ [0]) ∨
                  cstrHasControlChar (email ++ [0]) then []
              else
                let vcard := vcardText str1 tel email
                if vcardTextMax ≤ vcard.length then [] else ndefEmitMimeSr cap mimeVcard vcard
      | .wifiWsc =>
          match buildWifiWsc wifiWscBlobMax cfg.str1.bytes cfg.str2.bytes with
          | none => []
          | some wsc => ndefEmitMimeSr cap mimeWsc wsc
      | .btOob =>
          if len1 ≠ btMacStrLen then []
          else
            match parseBtMac cfg.str1.bytes with
            | none => []
            | some mac => ndefEmitMimeSr cap mimeBtOob (btOobPayloadLen :: 0 :: mac.reverse)
      | .unknown => []
  | _, _ => []

/-- `writer_payload_build_ndef`. -/
def writerPayloadBuildNdef (cfg : Config) (outMax : Nat) : Frame :=
  if outMax = 0 then [] else buildNdefMessage cfg outMax

end NeroReader.WriterPayload
