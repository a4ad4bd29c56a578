import NeroReader.NdefTlv
import NeroReader.PercentText

/-!
NDEF records. One walker takes the next record off a message and leaves the spans of its type and its
payload; two decoders turn the payload of a URI record and of a text record into what is shown. Both
the host and the firmware read with these, so what either of them writes is judged here: a short record
is read back with its type and payload (`recordNext_short`), a URI payload is accepted exactly when its
suffix is percent-encoded text in the characters of a URI (`decodeUriPayload_eq_some`).
-/

namespace NeroReader

/-- The bytes of a string literal. -/
def ascii (s : String) : Frame := s.toList.map fun c => BitVec.ofNat 8 c.toNat

/-- A byte as two upper-case hex digits. -/
def hexByte (b : Byte) : Frame :=
  [b >>> 4, b &&& 0x0F].map fun nibble => u8At (ascii "0123456789ABCDEF") nibble.toNat

namespace Ndef

def hdrMb : Byte := 0x80
def hdrMe : Byte := 0x40
def hdrCf : Byte := 0x20
def hdrSr : Byte := 0x10
def hdrIl : Byte := 0x08
def hdrTnfMask : Byte := 0x07
def tnfWellKnown : Byte := 0x01
def tnfMime : Byte := 0x02
def rtdTypeText : Byte := 0x54
def rtdTypeUri : Byte := 0x55
def uriPrefixHttps : Byte := 0x04
def mimeVcard : Frame := ascii "text/vcard"
def mimeBtOob : Frame := ascii "application/vnd.bluetooth.ep.oob"
def mimeWsc : Frame := ascii "application/vnd.wfa.wsc"
def wscAttrAuthType : Nat := 0x1003
def wscAttrMacAddress : Nat := 0x1020
def wscAttrNetworkIndex : Nat := 0x1026
def wscAttrNetworkKey : Nat := 0x1027
def wscAttrSsid : Nat := 0x1045
def wscAttrCredential : Nat := 0x100E
def wscAttrEncrType : Nat := 0x100F
def textStatusLangLenMask : Byte := 0x3F
def textStatusUtf16 : Byte := 0x80
def uriPrefixCodeCount : Nat := 36
def uriMinOutCap : Nat := 2
def decodeOutMax : Nat := 256
def srPayloadMax : Nat := 255
def recordMinHdrLen : Nat := 3
def recordLongMinHdrLen : Nat := 6
def recordSrTypeOffset : Nat := 3
def recordLongTypeOffset : Nat := 6
def percent : Byte := 0x25

def isHexDigit (ch : Byte) : Bool :=
  (0x30 ≤ ch && ch ≤ 0x39) || (0x61 ≤ ch && ch ≤ 0x66) || (0x41 ≤ ch && ch ≤ 0x46)

/-- `nfc_ndef_url_safe_char`; its `strchr` also finds the terminator of the set. -/
def urlSafeChar (ch : Byte) : Bool :=
  (0x61 ≤ ch && ch ≤ 0x7A) || (0x41 ≤ ch && ch ≤ 0x5A) || (0x30 ≤ ch && ch ≤ 0x39) ||
    ch == 0 || (ascii "-._~:/?#[]@!$&'()*+,;=%").contains ch

def uriPrefixes : List Frame :=
  ["", "http://www.", "https://www.", "http://", "https://", "tel:", "mailto:",
    "ftp://anonymous:anonymous@", "ftp://ftp.", "ftps://", "sftp://", "smb://", "nfs://", "ftp://",
    "dav://", "news:", "telnet://", "imap:", "rtsp://", "urn:", "pop:", "sip:", "sips:", "tftp:",
    "btspp://", "btl2cap://", "btgoep://", "tcpobex://", "irdaobex://", "file://", "urn:epc:id:",
    "urn:epc:tag:", "urn:epc:pat:", "urn:epc:raw:", "urn:epc:", "urn:nfc:"].map ascii

/-- The prefix a URI identifier code stands for. -/
def uriPrefix (code : Nat) : Frame := uriPrefixes.getD code []

theorem uriPrefix_length_le (code : Nat) : (uriPrefix code).length ≤ 26 := by
  have hall : ∀ entry ∈ uriPrefixes, entry.length ≤ 26 := by decide
  rw [uriPrefix, List.getD_eq_getElem?_getD]
  cases h : uriPrefixes[code]? with
  | none => exact Nat.zero_le _
  | some entry => exact hall entry (List.mem_of_getElem? h)

/-! ### Decoding a payload -/

/-- The loop of `nfc_ndef_decode_uri_payload` over the bytes to come, behind what is already put out. -/
def uriBytes (outCap : Nat) : Frame → Frame → Option Frame
  | [], out => some out
  | ch :: rest, out =>
      if ch = 0 ∨ urlSafeChar ch = false ∨ outCap ≤ out.length + 1 then none
      else if ch = percent ∧
          (rest.length < 2 ∨ isHexDigit (u8At rest 0) = false ∨ isHexDigit (u8At rest 1) = false) then none
      else uriBytes outCap rest (out ++ [ch])

/-- `nfc_ndef_decode_uri_payload`: the string left in the output buffer. -/
def decodeUriPayload (payload : Frame) (outCap : Nat) : Option Frame :=
  match payload with
  | [] => none
  | code :: suffix =>
      if outCap < uriMinOutCap then none
      else if uriPrefixCodeCount ≤ code.toNat then none
      else if decodeOutMax ≤ (uriPrefix code.toNat).length ∨ outCap ≤ (uriPrefix code.toNat).length then none
      else
        match uriBytes outCap suffix (uriPrefix code.toNat) with
        | none => none
        | some out => if out = [] then none else some out

/-- The loop of `nfc_ndef_decode_text_payload`. -/
def textBytes (outCap : Nat) : Frame → Frame → Option Frame
  | [], out => some out
  | ch :: rest, out =>
      if ch = 0 ∨ outCap ≤ out.length + 1 then none else textBytes outCap rest (out ++ [ch])

def utf16TextRecord : Frame := ascii "UTF-16 text record"

/-- `nfc_ndef_decode_text_payload`: the string left in the output buffer. -/
def decodeTextPayload (payload : Frame) (outCap : Nat) : Option Frame :=
  match payload with
  | [] => none
  | status :: rest =>
      let langLen := (status &&& textStatusLangLenMask).toNat
      if outCap = 0 then none
      else if status &&& textStatusUtf16 ≠ 0 then
        if utf16TextRecord.length + 1 ≤ outCap then some utf16TextRecord else none
      else if payload.length < 1 + langLen then none
      else textBytes outCap (rest.drop langLen) []

/-- A character the URI decoder passes. -/
def uriChar (ch : Byte) : Bool := ch != 0 && urlSafeChar ch

/-- Text in the characters of a URI, every percent sign before two hex digits. -/
def UriText (text : Frame) : Bool := PercentText.WellFormed percent isHexDigit uriChar text

theorem uriChar_iff {ch : Byte} : uriChar ch = true ↔ ch ≠ 0 ∧ urlSafeChar ch = true := by
  rw [uriChar, Bool.and_eq_true, bne_iff_ne]

theorem digitsFirst_iff {rest : Frame} : PercentText.DigitsFirst isHexDigit rest = true ↔
    2 ≤ rest.length ∧ isHexDigit (u8At rest 0) = true ∧ isHexDigit (u8At rest 1) = true := by
  match rest with
  | [] => simp [PercentText.DigitsFirst]
  | [x] => simp [PercentText.DigitsFirst]
  | x :: y :: tail => simp [PercentText.DigitsFirst]

theorem uriBytes_eq_some {outCap : Nat} {text out r : Frame} : uriBytes outCap text out = some r ↔
    r = out ++ text ∧ UriText text = true ∧ (text ≠ [] → out.length + text.length < outCap) := by
  induction text generalizing out with
  | nil => simp [uriBytes, UriText, PercentText.WellFormed, PercentText.Triplets, eq_comm]
  | cons ch rest ih =>
      rw [UriText, PercentText.wellFormed_cons, ← UriText, uriChar_iff, digitsFirst_iff, uriBytes]
      by_cases hstop : ch = 0 ∨ urlSafeChar ch = false ∨ outCap ≤ out.length + 1
      · rw [if_pos hstop]
        refine iff_of_false (by simp) ?_
        rintro ⟨-, ⟨⟨hzero, hsafe⟩, -⟩, hcap⟩
        have hcap := hcap (by simp)
        rw [List.length_cons] at hcap
        rcases hstop with h | h | h
        · exact hzero h
        · simp [hsafe] at h
        · omega
      rw [if_neg hstop]
      simp only [not_or, Bool.not_eq_false, Nat.not_le] at hstop
      obtain ⟨hzero, hsafe, hroom⟩ := hstop
      by_cases hpct : ch = percent ∧
          (rest.length < 2 ∨ isHexDigit (u8At rest 0) = false ∨ isHexDigit (u8At rest 1) = false)
      · rw [if_pos hpct]
        refine iff_of_false (by simp) ?_
        rintro ⟨-, ⟨-, hdigits, -⟩, -⟩
        obtain ⟨hlong, hhi, hlo⟩ := hdigits hpct.1
        rcases hpct.2 with h | h | h
        · omega
        · simp [hhi] at h
        · simp [hlo] at h
      rw [if_neg hpct, ih]
      have hdigits : ch = percent →
          2 ≤ rest.length ∧ isHexDigit (u8At rest 0) = true ∧ isHexDigit (u8At rest 1) = true := by
        intro h
        simp only [h, true_and, not_or, Nat.not_lt, Bool.not_eq_false] at hpct
        exact hpct
      rw [List.append_assoc, List.singleton_append, List.length_append, List.length_singleton,
        List.length_cons]
      refine and_congr_right fun _ => ?_
      have hbound : (rest ≠ [] → out.length + 1 + rest.length < outCap) ↔
          (ch :: rest ≠ [] → out.length + (rest.length + 1) < outCap) := by
        cases rest with
        | nil => simpa using hroom
        | cons y tail => simp only [ne_eq, reduceCtorEq, not_false_eq_true, forall_const]; omega
      rw [hbound]
      tauto

/-- **What the URI decoder accepts.** -/
theorem decodeUriPayload_eq_some {code : Byte} {suffix r : Frame} {outCap : Nat} :
    decodeUriPayload (code :: suffix) outCap = some r ↔
      code.toNat < uriPrefixCodeCount ∧ r = uriPrefix code.toNat ++ suffix ∧ UriText suffix = true ∧
        r ≠ [] ∧ r.length < outCap := by
  have hfront := uriPrefix_length_le code.toNat
  rw [decodeUriPayload]
  by_cases hcap : outCap < uriMinOutCap
  · rw [if_pos hcap]
    refine iff_of_false (by simp) ?_
    rintro ⟨-, -, -, hne, hlen⟩
    have := List.length_pos_iff.mpr hne
    rw [uriMinOutCap] at hcap
    omega
  rw [if_neg hcap]
  by_cases hcode : uriPrefixCodeCount ≤ code.toNat
  · rw [if_pos hcode]
    exact iff_of_false (by simp) fun h => absurd h.1 (Nat.not_lt.mpr hcode)
  rw [if_neg hcode]
  by_cases hroom : decodeOutMax ≤ (uriPrefix code.toNat).length ∨ outCap ≤ (uriPrefix code.toNat).length
  · rw [if_pos hroom]
    refine iff_of_false (by simp) ?_
    rintro ⟨-, rfl, -, -, hlen⟩
    rw [List.length_append] at hlen
    rw [decodeOutMax] at hroom
    omega
  rw [if_neg hroom]
  have hroom : (uriPrefix code.toNat).length < outCap := by omega
  have hbound : (suffix ≠ [] → (uriPrefix code.toNat).length + suffix.length < outCap) ↔
      (uriPrefix code.toNat ++ suffix).length < outCap := by
    cases suffix with
    | nil => simpa using hroom
    | cons c rest => simp
  cases hbytes : uriBytes outCap suffix (uriPrefix code.toNat) with
  | none =>
      refine iff_of_false (by simp) ?_
      rintro ⟨-, rfl, htext, -, hlen⟩
      have := uriBytes_eq_some.mpr ⟨rfl, htext, hbound.mpr hlen⟩
      simp [hbytes] at this
  | some out =>
      obtain ⟨rfl, htext, hlen⟩ := uriBytes_eq_some.mp hbytes
      have hlen := hbound.mp hlen
      have hcode := Nat.lt_of_not_le hcode
      dsimp only
      by_cases hne : uriPrefix code.toNat ++ suffix = []
      · rw [if_pos hne]
        exact iff_of_false (by simp) fun h => h.2.2.2.1 (h.2.1 ▸ hne)
      · rw [if_neg hne, Option.some.injEq]
        constructor
        · rintro rfl
          exact ⟨hcode, rfl, htext, hne, hlen⟩
        · rintro ⟨-, rfl, -⟩
          rfl

theorem textBytes_eq_some {outCap : Nat} {text out r : Frame} : textBytes outCap text out = some r ↔
    r = out ++ text ∧ (0 : Byte) ∉ text ∧ (text ≠ [] → out.length + text.length < outCap) := by
  induction text generalizing out with
  | nil => simp [textBytes, eq_comm]
  | cons ch rest ih =>
      rw [textBytes]
      by_cases hstop : ch = 0 ∨ outCap ≤ out.length + 1
      · rw [if_pos hstop]
        refine iff_of_false (by simp) ?_
        rintro ⟨-, hzero, hcap⟩
        have hcap := hcap (by simp)
        rw [List.length_cons] at hcap
        rcases hstop with rfl | h
        · exact hzero List.mem_cons_self
        · omega
      rw [if_neg hstop, ih, List.append_assoc, List.singleton_append]
      obtain ⟨hzero, hroom⟩ := not_or.mp hstop
      refine and_congr_right fun _ => and_congr ?_ ?_
      · rw [List.mem_cons, not_or]
        exact ⟨fun h => ⟨Ne.symm hzero, h⟩, And.right⟩
      · cases rest with
        | nil => simpa using hroom
        | cons y tail =>
            simp only [ne_eq, reduceCtorEq, not_false_eq_true, forall_const, List.length_append,
              List.length_cons, List.length_nil]
            omega

/-- **What the text decoder accepts** of a UTF-8 record. -/
theorem decodeTextPayload_eq_some {status : Byte} {lang text r : Frame} {outCap : Nat}
    (hutf8 : status &&& textStatusUtf16 = 0) (hlang : (status &&& textStatusLangLenMask).toNat = lang.length) :
    decodeTextPayload (status :: (lang ++ text)) outCap = some r ↔
      r = text ∧ (0 : Byte) ∉ text ∧ text.length < outCap := by
  rw [decodeTextPayload, hlang]
  by_cases hcap : outCap = 0
  · rw [if_pos hcap]
    exact iff_of_false (by simp) fun h => absurd h.2.2 (by omega)
  rw [if_neg hcap, if_neg (not_not.mpr hutf8), 
    if_neg (by simp only [List.length_cons, List.length_append]; omega), List.drop_left, textBytes_eq_some,
    List.nil_append]
  refine and_congr_right fun _ => and_congr_right fun _ => ?_
  cases text with
  | nil => simpa using Nat.pos_of_ne_zero hcap
  | cons ch rest => simp

/-! ### Walking a message -/

inductive RecordStatus where
  | ok
  | empty
  | truncated
  | invalidArg
  | unsupported
  deriving DecidableEq, Repr

structure NdefRecord where
  header : Byte
  tnf : Byte
  typeLen : Nat
  payloadLen : Nat
  typeOffset : Nat
  payloadOffset : Nat
  recordLen : Nat
  messageEnd : Bool
  deriving DecidableEq, Repr

def NdefRecord.cleared : NdefRecord := ⟨0, 0, 0, 0, 0, 0, 0, false⟩

/-- The bytes of the type and of the payload, in what follows the record's start. -/
def NdefRecord.type (record : NdefRecord) (bytes : Frame) : Frame :=
  (bytes.drop record.typeOffset).take record.typeLen

def NdefRecord.payload (record : NdefRecord) (bytes : Frame) : Frame :=
  (bytes.drop record.payloadOffset).take record.payloadLen

structure NextRecord where
  status : RecordStatus
  record : NdefRecord
  next : Nat
  deriving DecidableEq, Repr

def NextRecord.failed (status : RecordStatus) : NextRecord := ⟨status, .cleared, 0⟩

/-- The payload length of a long record. -/
def longPayloadLen (msg : Frame) (pos : Nat) : Nat :=
  ((u8At msg (pos + 2)).toNat <<< 24) ||| ((u8At msg (pos + 3)).toNat <<< 16) |||
    ((u8At msg (pos + 4)).toNat <<< 8) ||| (u8At msg (pos + 5)).toNat

/-- Where the payload starts, counted from the record: behind the type and, when there is one, the id. -/
def payloadOffsetAt (msg : Frame) (pos typeOffset typeLen : Nat) (il : Bool) : Option Nat :=
  let off := u16 (typeOffset + typeLen)
  if il then
    if spanOk (pos + (typeOffset - 1)) 1 msg.length = false then none
    else
      let next := off + (u8At msg (pos + (typeOffset - 1))).toNat
      if 0xFFFF < next then none else some next
  else some off

/-- `nfc_ndef_record_next`. -/
def recordNext (msg : Frame) (pos : Nat) : NextRecord :=
  if msg.length < pos then .failed .invalidArg
  else if msg.length ≤ pos then .failed .truncated
  else
    let hdr := u8At msg pos
    if hdr = 0 then ⟨.empty, .cleared, u16 (pos + 1)⟩
    else if hdr &&& hdrCf ≠ 0 then .failed .unsupported
    else if msg.length - pos < recordMinHdrLen then .failed .truncated
    else
      let sr : Bool := hdr &&& hdrSr != 0
      let il : Bool := hdr &&& hdrIl != 0
      let typeLen := (u8At msg (pos + 1)).toNat
      if sr = false ∧ (msg.length - pos < recordLongMinHdrLen ∨ spanOk (pos + 2) 4 msg.length = false) then
        .failed .truncated
      else
        let payloadLen := if sr then (u8At msg (pos + 2)).toNat else longPayloadLen msg pos
        let typeOffset := (if sr then recordSrTypeOffset else recordLongTypeOffset) + if il then 1 else 0
        match payloadOffsetAt msg pos typeOffset typeLen il with
        | none => .failed .truncated
        | some off =>
            if msg.length - pos < off + payloadLen then .failed .truncated
            else
              ⟨.ok, ⟨hdr, hdr &&& hdrTnfMask, typeLen, payloadLen, typeOffset, off, u16 (off + payloadLen),
                hdr &&& hdrMe != 0⟩, u16 (pos + (off + payloadLen))⟩

/-! ### Short records -/

/-- What a short record without an id carries. -/
structure ShortRecord where
  tnf : Byte
  type : Frame
  payload : Frame
  tnf_masked : tnf &&& hdrTnfMask = tnf
  type_fits : type.length ≤ srPayloadMax
  payload_fits : payload.length ≤ srPayloadMax

namespace ShortRecord

/-- The header byte, with the marks of the first and of the last record of a message. -/
def header (r : ShortRecord) (first last : Bool) : Byte :=
  (if first then hdrMb else 0) ||| (if last then hdrMe else 0) ||| hdrSr ||| r.tnf

def bytes (r : ShortRecord) (first last : Bool) : Frame :=
  r.header first last :: BitVec.ofNat 8 r.type.length :: BitVec.ofNat 8 r.payload.length ::
    (r.type ++ r.payload)

/-- The bytes of a message, the first record marked when it is the first of all. -/
def message : Bool → List ShortRecord → Frame
  | _, [] => []
  | first, r :: rest => r.bytes first rest.isEmpty ++ message false rest

/-- What the walker leaves of the record. -/
def walked (r : ShortRecord) (first last : Bool) : NdefRecord where
  header := r.header first last
  tnf := r.tnf
  typeLen := r.type.length
  payloadLen := r.payload.length
  typeOffset := recordSrTypeOffset
  payloadOffset := recordSrTypeOffset + r.type.length
  recordLen := recordSrTypeOffset + r.type.length + r.payload.length
  messageEnd := last

variable (r : ShortRecord) (first last : Bool)

@[simp] theorem length_bytes : (r.bytes first last).length = 3 + r.type.length + r.payload.length := by
  simp only [bytes, List.length_cons, List.length_append]
  omega

theorem length_bytes_le : (r.bytes first last).length ≤ 513 := by
  have := r.type_fits
  have := r.payload_fits
  rw [length_bytes]
  rw [srPayloadMax] at *
  omega

theorem header_flags :
    r.header first last ≠ 0 ∧ r.header first last &&& hdrCf = 0 ∧
      (r.header first last &&& hdrSr != 0) = true ∧ (r.header first last &&& hdrIl != 0) = false ∧
      r.header first last &&& hdrTnfMask = r.tnf ∧ (r.header first last &&& hdrMe != 0) = last ∧
      (r.header first last &&& hdrMb != 0) = first := by
  have hall : ∀ (first last : Bool) (tnf : Byte), tnf &&& hdrTnfMask = tnf →
      let header := (if first then hdrMb else 0) ||| (if last then hdrMe else 0) ||| hdrSr ||| tnf
      header ≠ 0 ∧ header &&& hdrCf = 0 ∧ (header &&& hdrSr != 0) = true ∧
        (header &&& hdrIl != 0) = false ∧ header &&& hdrTnfMask = tnf ∧ (header &&& hdrMe != 0) = last ∧
        (header &&& hdrMb != 0) = first := by
    decide
  exact hall first last r.tnf r.tnf_masked

variable {r first last} {front rest : Frame}

@[simp] theorem walked_type : (r.walked first last).type (r.bytes first last ++ rest) = r.type := by
  simp [NdefRecord.type, walked, bytes, recordSrTypeOffset]

@[simp] theorem walked_payload : (r.walked first last).payload (r.bytes first last ++ rest) = r.payload := by
  simp [NdefRecord.payload, walked, bytes, recordSrTypeOffset, Nat.add_comm 3]

/-- **A short record is read back**, wherever it stands in a message. -/
theorem recordNext_short (hlen : (front ++ (r.bytes first last ++ rest)).length ≤ 0xFFFF) :
    recordNext (front ++ (r.bytes first last ++ rest)) front.length =
      ⟨.ok, r.walked first last, front.length + (r.bytes first last).length⟩ := by
  obtain ⟨hzero, hcf, hsr, hil, htnf, hme, -⟩ := r.header_flags first last
  have htype := r.type_fits
  have hpayload := r.payload_fits
  rw [srPayloadMax] at htype hpayload
  have hat : ∀ i, u8At (front ++ (r.bytes first last ++ rest)) (front.length + i) =
      u8At (r.bytes first last ++ rest) i := by
    intro i
    rw [u8At_append_right _ _ (Nat.le_add_right _ _), Nat.add_sub_cancel_left]
  have hhdr : u8At (front ++ (r.bytes first last ++ rest)) front.length = r.header first last := hat 0
  have htypeLen : (u8At (front ++ (r.bytes first last ++ rest)) (front.length + 1)).toNat = r.type.length := by
    rw [hat 1]
    exact (BitVec.toNat_ofNat ..).trans (Nat.mod_eq_of_lt (by omega))
  have hpayloadLen :
      (u8At (front ++ (r.bytes first last ++ rest)) (front.length + 2)).toNat = r.payload.length := by
    rw [hat 2]
    exact (BitVec.toNat_ofNat ..).trans (Nat.mod_eq_of_lt (by omega))
  rw [List.length_append, List.length_append, length_bytes] at hlen
  have hleft : (front ++ (r.bytes first last ++ rest)).length - front.length =
      3 + r.type.length + r.payload.length + rest.length := by
    rw [List.length_append, List.length_append, length_bytes]
    omega
  have hpos : front.length < (front ++ (r.bytes first last ++ rest)).length := by
    rw [List.length_append, List.length_append, length_bytes]
    omega
  have hoff : u16 (recordSrTypeOffset + r.type.length) = 3 + r.type.length := u16_of_le (by
    rw [recordSrTypeOffset]
    omega)
  rw [recordNext, if_neg (by omega), if_neg (by omega)]
  simp only [hhdr, htypeLen, hpayloadLen, hsr, hil, htnf, hme, hleft]
  rw [if_neg hzero, if_neg (not_not.mpr hcf), if_neg (by rw [recordMinHdrLen]; omega), if_neg (by simp)]
  simp only [payloadOffsetAt, if_true, Bool.false_eq_true, if_false, Nat.add_zero, hoff]
  rw [if_neg (by omega), u16_of_le (by omega), u16_of_le (by omega), length_bytes]
  rfl

/-- A record that is all of its message. -/
theorem recordNext_alone :
    recordNext (r.bytes first last) 0 = ⟨.ok, r.walked first last, (r.bytes first last).length⟩ := by
  have hle := r.length_bytes_le first last
  have hnext : recordNext ([] ++ (r.bytes first last ++ [])) ([] : Frame).length =
      ⟨.ok, r.walked first last, ([] : Frame).length + (r.bytes first last).length⟩ :=
    recordNext_short (by rw [List.nil_append, List.append_nil]; omega)
  rwa [List.nil_append, List.append_nil, List.length_nil, Nat.zero_add] at hnext

@[simp] theorem walked_type_alone : (r.walked first last).type (r.bytes first last) = r.type := by
  have htype : (r.walked first last).type (r.bytes first last ++ []) = r.type := walked_type
  rwa [List.append_nil] at htype

@[simp] theorem walked_payload_alone : (r.walked first last).payload (r.bytes first last) = r.payload := by
  have hpayload : (r.walked first last).payload (r.bytes first last ++ []) = r.payload := walked_payload
  rwa [List.append_nil] at hpayload

end ShortRecord

end Ndef

end NeroReader
