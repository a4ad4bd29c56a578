import NeroReader.Attributes
import NeroReader.NdefRecord

/-!
NDEF records on the host. Three builders encode one short record each, a fourth joins records to a
message by rewriting the marks of the first and of the last one, and a parser takes the records off a
message, each with its payload decoded for display where the host knows the type.
-/

namespace NeroReader.HostNdef

open Ndef

def textLangMax : Nat := 63
def shortUriSuffixMax : Nat := 254
def maxRecords : Nat := 64
def maxTotalBytes : Nat := 65536
def uint16Max : Nat := 0xFFFF
def uint32Max : Nat := 0xFFFFFFFF
def btOobMinPayloadLen : Nat := 8
def btOobAddrLen : Nat := 6
def btOobAddrOffset : Nat := 2
def carriageReturn : Byte := 0x0D
def lineFeed : Byte := 0x0A

/-! ### Building -/

/-- `AppendShortRecord`. -/
def appendShortRecord (out : Frame) (tnf : Byte) (type payload : Frame) : Option Frame :=
  if srPayloadMax < type.length ∨ srPayloadMax < payload.length then none
  else
    some (out ++ ((hdrMb ||| hdrMe ||| hdrSr ||| (tnf &&& hdrTnfMask)) :: BitVec.ofNat 8 type.length ::
      BitVec.ofNat 8 payload.length :: (type ++ payload)))

/-- `BuildNdefTextRecord`; a refusal is the empty record. -/
def buildNdefTextRecord (text lang : Frame) : Frame :=
  if textLangMax < lang.length then []
  else if srPayloadMax < 1 + lang.length + text.length then []
  else
    let payload := BitVec.ofNat 8 lang.length :: (lang ++ text)
    match decodeTextPayload payload decodeOutMax with
    | none => []
    | some _ => (appendShortRecord [] tnfWellKnown (ascii "T") payload).getD []

/-- One entry of the prefix table against the best one so far, with the suffix that one leaves. -/
def abbreviateWith (uri : Frame) (best : Nat × Frame) (code : Nat) : Nat × Frame :=
  if (uriPrefix code).isEmpty = false ∧ (uriPrefix code).isPrefixOf uri = true ∧
      (uriPrefix best.1).length < (uriPrefix code).length then
    (code, uri.drop (uriPrefix code).length)
  else best

/-- The longest table entry a URI starts with, and the rest of the URI. -/
def abbreviate (uri : Frame) : Nat × Frame :=
  (List.range' 1 (uriPrefixCodeCount - 1)).foldl (abbreviateWith uri) (0, uri)

/-- `BuildNdefUriRecord`. -/
def buildNdefUriRecord (uri : Frame) : Frame :=
  let (code, suffix) := abbreviate uri
  if shortUriSuffixMax < suffix.length then []
  else
    let payload := BitVec.ofNat 8 code :: suffix
    match decodeUriPayload payload decodeOutMax with
    | none => []
    | some _ => (appendShortRecord [] tnfWellKnown (ascii "U") payload).getD []

/-- `BuildNdefMimeRecord`. -/
def buildNdefMimeRecord (mime payload : Frame) : Frame :=
  if mime.isEmpty ∨ srPayloadMax < mime.length ∨ srPayloadMax < payload.length then []
  else (appendShortRecord [] tnfMime mime payload).getD []

/-- Record `i` of `count` with the marks of its place. -/
def markRecord (count i : Nat) : Frame → Frame
  | [] => []
  | front :: body =>
      let front := front &&& ~~~(hdrMb ||| hdrMe)
      let front := if i = 0 then front ||| hdrMb else front
      let front := if i + 1 = count then front ||| hdrMe else front
      front :: body

/-- `BuildNdefMessage`. -/
def buildNdefMessage (records : List Frame) : Frame :=
  if records.any List.isEmpty then []
  else ((records.zipIdx).map fun (record, i) => markRecord records.length i record).flatten

/-! ### Decoding for display -/

/-- `BytesAreDisplayText`. -/
def bytesAreDisplayText (payload : Frame) : Bool :=
  payload.all fun ch =>
    ch == carriageReturn || ch == lineFeed || ch == 0x09 || (decide (0x20 ≤ ch) && decide (ch < 0x7F))

def isLineEnd (ch : Byte) : Bool := ch == carriageReturn || ch == lineFeed

/-- The loop of `TextLines` over the text that is left. -/
def textLinesFrom : Nat → Frame → List Frame
  | 0, _ => []
  | fuel + 1, text =>
      let line := text.takeWhile (isLineEnd · = false)
      match text.dropWhile (isLineEnd · = false) with
      | [] => if line.isEmpty then [] else [line]
      | ending :: rest =>
          let rest := if ending = carriageReturn ∧ rest.head? = some lineFeed then rest.tail else rest
          (if line.isEmpty then [] else [line]) ++ textLinesFrom fuel rest

/-- `TextLines`. -/
def textLines (text : Frame) : List Frame := textLinesFrom (text.length + 1) text

/-- What a line says about a property: the text behind its colon, when the line is about it. -/
def lineProperty (name line : Frame) : Option Frame :=
  if line.contains 0x3A then
    let key := line.takeWhile (· ≠ 0x3A)
    if key = name ∨ (name ++ [0x3B]).isPrefixOf key then some (line.drop (key.length + 1)) else none
  else none

/-- `VcardProperty`. -/
def vcardProperty (body name : Frame) : Option Frame := (textLines body).findSome? (lineProperty name)

/-- A labelled part of a description, left out when there is nothing to say. -/
def labelled (label : Frame) : Option Frame → Frame
  | none => []
  | some value => label ++ value

/-- `DecodeVcardPayload`. -/
def decodeVcardPayload (payload : Frame) : Option Frame :=
  if bytesAreDisplayText payload = false ∨ ¬ ascii "BEGIN:VCARD" <:+: payload then none
  else
    let name := vcardProperty payload (ascii "FN")
    let tel := vcardProperty payload (ascii "TEL")
    let email := vcardProperty payload (ascii "EMAIL")
    if name = none ∧ tel = none ∧ email = none then none
    else
      some (ascii "Contact:" ++ labelled (ascii " name=") name ++ labelled (ascii " tel=") tel ++
        labelled (ascii " email=") email)

/-- `WscAttrPayload`. -/
def wscAttrPayload (payload : Frame) (attrId : Nat) : Option Frame := Attributes.find attrId payload

/-- `AsciiAttr`. -/
def asciiAttr (payload : Frame) (attrId : Nat) : Option Frame :=
  (wscAttrPayload payload attrId).filter bytesAreDisplayText

/-- `WscAuthName` and `WscEncrName`, which differ in the value they know and its name. -/
def wscValueName (known : Byte) (name : Frame) (attr : Option Frame) : Frame :=
  if attr = some [0x00, known] then name else ascii "unknown"

def wscAuthName : Option Frame → Frame := wscValueName 0x20 (ascii "WPA2-Personal")
def wscEncrName : Option Frame → Frame := wscValueName 0x08 (ascii "AES")

/-- `DecodeWifiWscPayload`. -/
def decodeWifiWscPayload (payload : Frame) : Option Frame :=
  match wscAttrPayload payload wscAttrCredential with
  | none => none
  | some credential =>
      match asciiAttr credential wscAttrSsid with
      | none => none
      | some ssid =>
          some (ascii "Wi-Fi: ssid=" ++ ssid ++
            ascii " auth=" ++ wscAuthName (wscAttrPayload credential wscAttrAuthType) ++
            ascii " encryption=" ++ wscEncrName (wscAttrPayload credential wscAttrEncrType) ++
            labelled (ascii " key=") (asciiAttr credential wscAttrNetworkKey))

/-- `DecodeBluetoothOobPayload`. -/
def decodeBluetoothOobPayload (payload : Frame) : Option Frame :=
  if payload.length < btOobMinPayloadLen ∨ (u8At payload 0).toNat < btOobMinPayloadLen ∨
      u8At payload 1 ≠ 0 then none
  else
    some (ascii "Bluetooth OOB: address=" ++ (List.range btOobAddrLen).flatMap fun i =>
      (if i ≠ 0 then [0x3A] else []) ++ hexByte (u8At payload (btOobAddrOffset + btOobAddrLen - 1 - i)))

/-- `DecodeRecordPayload`. -/
def decodeRecordPayload (tnf : Byte) (type payload : Frame) : Option Frame :=
  if uint32Max < payload.length then none
  else if tnf = tnfWellKnown ∧ type = ascii "T" then decodeTextPayload payload decodeOutMax
  else if tnf = tnfWellKnown ∧ type = ascii "U" then decodeUriPayload payload decodeOutMax
  else if tnf = tnfMime ∧ type = mimeVcard then decodeVcardPayload payload
  else if tnf = tnfMime ∧ type = mimeWsc then decodeWifiWscPayload payload
  else if tnf = tnfMime ∧ type = mimeBtOob then decodeBluetoothOobPayload payload
  else none

/-! ### Parsing -/

structure NdefRecordSummary where
  tnf : Byte
  type : Frame
  payload : Frame
  decoded : Option Frame
  deriving DecidableEq, Repr

/-- What the parser keeps of a record whose bytes start at `bytes`. -/
def summarize (record : NdefRecord) (bytes : Frame) : NdefRecordSummary where
  tnf := record.tnf
  type := record.type bytes
  payload := record.payload bytes
  decoded := decodeRecordPayload record.tnf (record.type bytes) (record.payload bytes)

/-- The loop of `ParseNdefRecords`, `fuel` rounds of it. -/
def parseNdefRecordsFrom (ndef : Frame) :
    Nat → List NdefRecordSummary → Nat → Nat → List NdefRecordSummary
  | 0, records, _, _ => records
  | fuel + 1, records, totalPayload, pos =>
      if pos < ndef.length then
        let found := recordNext ndef pos
        if found.status = .empty then parseNdefRecordsFrom ndef fuel records totalPayload found.next
        else if found.status ≠ .ok then records
        else if maxRecords ≤ records.length then records
        else if maxTotalBytes < totalPayload + found.record.payloadLen then records
        else
          let records := records ++ [summarize found.record (ndef.drop pos)]
          if found.record.messageEnd then records
          else parseNdefRecordsFrom ndef fuel records (totalPayload + found.record.payloadLen) found.next
      else records

/-- `ParseNdefRecords`. -/
def parseNdefRecords (ndef : Frame) : List NdefRecordSummary :=
  if maxTotalBytes < ndef.length ∨ uint16Max < ndef.length then []
  else parseNdefRecordsFrom ndef ndef.length [] 0 0

end NeroReader.HostNdef
