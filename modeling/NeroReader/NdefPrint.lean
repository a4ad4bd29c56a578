import NeroReader.Attributes
import NeroReader.NdefRecord

/-!
How the reader shows the records of a tag. A text buffer of fixed size is filled part by part, and a part
that does not fit fails the whole description. Contacts, Wi-Fi credentials and Bluetooth addresses have
decoders of their own here; URIs and texts go through the shared ones.
-/

namespace NeroReader.NdefPrint

open Ndef

def printableMin : Byte := 0x20
def printableMax : Byte := 0x7E
def carriageReturn : Byte := 0x0D
def lineFeed : Byte := 0x0A
def colon : Byte := 0x3A
def semicolon : Byte := 0x3B
def btOobMinPayloadLen : Nat := 8
def btOobAddrLen : Nat := 6
def btOobAddrOffset : Nat := 2
def wscWpa2PskLsb : Byte := 0x20
def wscAesLsb : Byte := 0x08
def urlBytesMax : Nat := decodeOutMax

/-- A character that is shown as it is. -/
def displayChar (ch : Byte) : Bool :=
  ch == carriageReturn || ch == lineFeed || ch == 0x09 ||
    (decide (printableMin ≤ ch) && decide (ch ≤ printableMax))

/-- `payload_is_display_text`. -/
def payloadIsDisplayText (payload : Frame) : Bool := payload.all displayChar

/-! ### Putting a description together -/

/-- `append_span`: the part behind what the buffer holds, with room for the terminator. -/
def appendSpan (outCap : Nat) (span out : Frame) : Option Frame :=
  if spanOk out.length (span.length + 1) outCap then some (out ++ span) else none

/-- `append_text`. -/
def appendText (outCap : Nat) (text out : Frame) : Option Frame :=
  if outCap ≤ text.length then none else appendSpan outCap text out

/-- A label and its value, nothing for an empty value. -/
def appendLabelled (outCap : Nat) (label value out : Frame) : Option Frame :=
  if value.length = 0 then some out
  else do
    let out ← appendText outCap label out
    appendSpan outCap value out

theorem appendSpan_of_lt {outCap : Nat} {span out : Frame} (h : out.length + span.length < outCap) :
    appendSpan outCap span out = some (out ++ span) := by
  rw [appendSpan, if_pos]
  exact decide_eq_true (by omega)

theorem appendText_of_lt {outCap : Nat} {text out : Frame} (h : out.length + text.length < outCap) :
    appendText outCap text out = some (out ++ text) := by
  rw [appendText, if_neg (by omega), appendSpan_of_lt h]

theorem appendLabelled_of_lt {outCap : Nat} {label value out : Frame}
    (h : out.length + label.length + value.length < outCap) :
    appendLabelled outCap label value out = some (out ++ if value = [] then [] else label ++ value) := by
  by_cases hvalue : value = []
  · rw [appendLabelled, if_pos (by simp [hvalue]), if_pos hvalue, List.append_nil]
  · have hlen : value.length ≠ 0 := fun h => hvalue (List.length_eq_zero_iff.mp h)
    rw [appendLabelled, if_neg hlen, if_neg hvalue, appendText_of_lt (by omega), Option.bind_eq_bind,
      Option.bind_some, appendSpan_of_lt (by rw [List.length_append]; omega), List.append_assoc]

/-! ### Contacts -/

def isLineEnd (ch : Byte) : Bool := ch == carriageReturn || ch == lineFeed

/-- The value of a property, behind the first colon from here on; `prev` stands in front of `rest`. -/
def valueBehindColon : Byte → Frame → Frame
  | _, [] => []
  | prev, ch :: rest => if prev = colon then ch :: rest else valueBehindColon ch rest

/-- The value on a line about the property. -/
def lineValue (name line : Frame) : Option Frame :=
  if name.length < line.length ∧ line.take name.length = name ∧
      (u8At line name.length = colon ∨ u8At line name.length = semicolon) then
    some (valueBehindColon (u8At line name.length) (line.drop (name.length + 1)))
  else none

/-- The loop of `vcard_property` over the lines that are left. -/
def vcardPropertyFrom (name : Frame) : Nat → Frame → Option Frame
  | 0, _ => none
  | fuel + 1, text =>
      if text.length = 0 then none
      else
        match lineValue name (text.takeWhile (isLineEnd · = false)) with
        | some value => if 0xFFFF < value.length then none else some value
        | none =>
            match text.dropWhile (isLineEnd · = false) with
            | [] => none
            | ending :: rest =>
                vcardPropertyFrom name fuel
                  (if ending = carriageReturn ∧ rest.head? = some lineFeed then rest.tail else rest)

/-- `vcard_property`. -/
def vcardProperty (payload name : Frame) : Option Frame := vcardPropertyFrom name payload.length payload

/-- `decode_vcard_payload`. -/
def decodeVcardPayload (payload : Frame) (outCap : Nat) : Option Frame :=
  if payloadIsDisplayText payload = false then none
  else
    match vcardProperty payload (ascii "FN") with
    | none => none
    | some name => do
        let tel := (vcardProperty payload (ascii "TEL")).getD []
        let email := (vcardProperty payload (ascii "EMAIL")).getD []
        let out ← appendText outCap (ascii "Contact: name=") []
        let out ← appendSpan outCap name out
        let out ← appendLabelled outCap (ascii " tel=") tel out
        appendLabelled outCap (ascii " email=") email out

theorem valueBehindColon_colon (value : Frame) : valueBehindColon colon value = value := by
  cases value with
  | nil => rfl
  | cons ch rest => rw [valueBehindColon, if_pos rfl]

/-- A line about the property gives what stands behind its colon. -/
theorem lineValue_own (name value : Frame) : lineValue name (name ++ colon :: value) = some value := by
  have hat : u8At (name ++ colon :: value) name.length = colon := by
    rw [u8At_append_right _ _ (Nat.le_refl _), Nat.sub_self, u8At_cons_zero]
  rw [lineValue, hat, if_pos ⟨by simp, List.take_left, Or.inl rfl⟩, ← List.singleton_append,
    ← List.append_assoc, List.drop_left' (by simp), valueBehindColon_colon]

/-- A line that starts with another letter is about something else. -/
theorem lineValue_other {name line : Frame} {ch : Byte} (hname : name.head? = some ch)
    (hline : line.head? ≠ some ch) : lineValue name line = none := by
  cases name with
  | nil => simp at hname
  | cons c name =>
      cases line with
      | nil => rw [lineValue, if_neg (by simp)]
      | cons d line =>
          simp only [List.head?_cons, Option.some.injEq] at hname hline
          subst hname
          refine if_neg fun h => hline ?_
          have htake := h.2.1
          rw [List.length_cons, List.take_succ_cons] at htake
          rw [(List.cons.inj htake).1]

theorem valueBehindColon_length (prev : Byte) (rest : Frame) : (valueBehindColon prev rest).length ≤ rest.length := by
  induction rest generalizing prev with
  | nil => exact Nat.le_refl _
  | cons ch rest ih =>
      rw [valueBehindColon]
      split
      · exact Nat.le_refl _
      · exact Nat.le_succ_of_le (ih ch)

theorem lineValue_length {name line value : Frame} (h : lineValue name line = some value) :
    value.length ≤ line.length := by
  rw [lineValue] at h
  split at h
  · obtain rfl := Option.some.inj h
    refine Nat.le_trans (valueBehindColon_length _ _) ?_
    rw [List.length_drop]
    exact Nat.sub_le _ _
  · simp at h

/-- Lines, each with its line end. -/
def crlfLines : List Frame → Frame
  | [] => []
  | line :: rest => line ++ carriageReturn :: lineFeed :: crlfLines rest

/-- **A property is looked up line by line.** -/
theorem vcardPropertyFrom_lines {name : Frame} {lines : List Frame} {fuel : Nat} (hfuel : lines.length < fuel)
    (hplain : ∀ line ∈ lines, ∀ ch ∈ line, isLineEnd ch = false) (hsmall : ∀ line ∈ lines, line.length ≤ 0xFFFF) :
    vcardPropertyFrom name fuel (crlfLines lines) = lines.findSome? (lineValue name) := by
  induction lines generalizing fuel with
  | nil =>
      obtain ⟨fuel, rfl⟩ := Nat.exists_eq_add_of_le' hfuel
      rfl
  | cons line lines ih =>
      obtain ⟨fuel, rfl⟩ := Nat.exists_eq_add_of_le' (Nat.lt_of_le_of_lt (Nat.zero_le _) hfuel)
      obtain ⟨hline, hplain⟩ := List.forall_mem_cons.mp hplain
      obtain ⟨hlineSmall, hsmall⟩ := List.forall_mem_cons.mp hsmall
      have hall : ∀ ch ∈ line, decide (isLineEnd ch = false) = true := fun ch hmem => decide_eq_true (hline ch hmem)
      have htake : (line ++ carriageReturn :: lineFeed :: crlfLines lines).takeWhile (isLineEnd · = false) = line := by
        rw [List.takeWhile_append_of_pos hall, List.takeWhile_cons_of_neg (by decide), List.append_nil]
      have hdrop : (line ++ carriageReturn :: lineFeed :: crlfLines lines).dropWhile (isLineEnd · = false) =
          carriageReturn :: lineFeed :: crlfLines lines := by
        rw [List.dropWhile_append_of_pos hall, List.dropWhile_cons_of_neg (by decide)]
      rw [crlfLines, vcardPropertyFrom, if_neg (by simp), htake, hdrop, List.findSome?_cons]
      cases hvalue : lineValue name line with
      | some value =>
          have hle := lineValue_length hvalue
          exact if_neg (by omega)
      | none =>
          rw [List.length_cons] at hfuel
          exact ih (by omega) hplain hsmall

/-! ### Wi-Fi and Bluetooth -/

/-- `wsc_attr_payload`. -/
def wscAttrPayload (payload : Frame) (attrId : Nat) : Option Frame := Attributes.find attrId payload

/-- `wsc_u16_name`. -/
def wscU16Name (value : Frame) (lsb : Byte) (known : Frame) : Frame :=
  if value.length = 2 ∧ u8At value 0 = 0x00 ∧ u8At value 1 = lsb then known else ascii "unknown"

/-- `decode_wifi_wsc_payload`. -/
def decodeWifiWscPayload (payload : Frame) (outCap : Nat) : Option Frame :=
  match wscAttrPayload payload wscAttrCredential with
  | none => none
  | some credential =>
      match wscAttrPayload credential wscAttrSsid with
      | none => none
      | some ssid =>
          if payloadIsDisplayText ssid = false then none
          else
            let key := (wscAttrPayload credential wscAttrNetworkKey).getD []
            let auth := (wscAttrPayload credential wscAttrAuthType).getD []
            let encr := (wscAttrPayload credential wscAttrEncrType).getD []
            if key.length ≠ 0 ∧ payloadIsDisplayText key = false then none
            else do
              let out ← appendText outCap (ascii "Wi-Fi: ssid=") []
              let out ← appendSpan outCap ssid out
              let out ← appendText outCap (ascii " auth=") out
              let out ← appendText outCap (wscU16Name auth wscWpa2PskLsb (ascii "WPA2-Personal")) out
              let out ← appendText outCap (ascii " encryption=") out
              let out ← appendText outCap (wscU16Name encr wscAesLsb (ascii "AES")) out
              appendLabelled outCap (ascii " key=") key out

/-- The round of `decode_bluetooth_oob_payload` for octet `i` of the address. -/
def appendOctet (payload : Frame) (outCap : Nat) (out : Frame) (i : Nat) : Option Frame := do
  let index := btOobAddrOffset + btOobAddrLen - 1 - i
  let out ← if spanOk index 1 payload.length = false then none
    else if i ≠ 0 then appendText outCap [colon] out else some out
  appendText outCap (hexByte (u8At payload index)) out

/-- `decode_bluetooth_oob_payload`. -/
def decodeBluetoothOobPayload (payload : Frame) (outCap : Nat) : Option Frame :=
  if payload.length < btOobMinPayloadLen ∨ (u8At payload 0).toNat < btOobMinPayloadLen ∨
      u8At payload 1 ≠ 0 then none
  else do
    let out ← appendText outCap (ascii "Bluetooth OOB: address=") []
    (List.range btOobAddrLen).foldlM (appendOctet payload outCap) out

/-- An octet of the address, with a colon in front unless it is the first. -/
def octetText (payload : Frame) (i : Nat) : Frame :=
  (if i ≠ 0 then [colon] else []) ++ hexByte (u8At payload (btOobAddrOffset + btOobAddrLen - 1 - i))

theorem length_hexByte (b : Byte) : (hexByte b).length = 2 := rfl

theorem length_octetText_le (payload : Frame) (i : Nat) : (octetText payload i).length ≤ 3 := by
  rw [octetText, List.length_append, length_hexByte]
  split <;> simp

theorem appendOctet_of_lt {payload out : Frame} {outCap i : Nat}
    (hspan : btOobAddrOffset + btOobAddrLen ≤ payload.length) (hroom : out.length + 3 < outCap) :
    appendOctet payload outCap out i = some (out ++ octetText payload i) := by
  have hin : spanOk (btOobAddrOffset + btOobAddrLen - 1 - i) 1 payload.length = true := by
    rw [btOobAddrOffset, btOobAddrLen] at hspan ⊢
    exact decide_eq_true (by omega)
  rw [appendOctet, octetText, hin, if_neg (by decide)]
  by_cases hi : i ≠ 0
  · rw [if_pos hi, if_pos hi, appendText_of_lt (by rw [List.length_singleton]; omega), Option.bind_eq_bind,
      Option.bind_some]
    beta_reduce
    rw [appendText_of_lt (by rw [List.length_append, List.length_singleton, length_hexByte]; omega),
      List.append_assoc]
  · rw [if_neg hi, if_neg hi, Option.bind_eq_bind, Option.bind_some]
    beta_reduce
    rw [appendText_of_lt (by rw [length_hexByte]; omega), List.nil_append]

/-- With room for three characters an octet, the octets stand one behind the other. -/
theorem appendOctets_of_lt {payload : Frame} {outCap : Nat}
    (hspan : btOobAddrOffset + btOobAddrLen ≤ payload.length) (indices : List Nat) :
    ∀ out : Frame, out.length + 3 * indices.length < outCap →
      indices.foldlM (appendOctet payload outCap) out = some (out ++ indices.flatMap (octetText payload)) := by
  induction indices with
  | nil => intro out _; simp
  | cons i indices ih =>
      intro out hroom
      rw [List.length_cons] at hroom
      have hlen := length_octetText_le payload i
      rw [List.foldlM_cons, appendOctet_of_lt hspan (by omega), Option.bind_eq_bind, Option.bind_some,
        ih _ (by rw [List.length_append]; omega), List.flatMap_cons, List.append_assoc]

/-! ### Any record -/

/-- `decode_mime_payload`. -/
def decodeMimePayload (type payload : Frame) (outCap : Nat) : Option Frame :=
  if type = mimeVcard then decodeVcardPayload payload outCap
  else if type = mimeWsc then decodeWifiWscPayload payload outCap
  else if type = mimeBtOob then decodeBluetoothOobPayload payload outCap
  else none

/-- What `print_ndef_record_summary` shows as decoded. -/
def decodedPayload (tnf : Byte) (type payload : Frame) : Option Frame :=
  (if tnf = tnfWellKnown ∧ type.length = 1 ∧ u8At type 0 = rtdTypeUri then
      decodeUriPayload payload urlBytesMax else none) <|>
  (if tnf = tnfWellKnown ∧ type.length = 1 ∧ u8At type 0 = rtdTypeText then
      decodeTextPayload payload urlBytesMax else none) <|>
  (if tnf = tnfMime then decodeMimePayload type payload urlBytesMax else none)

section Dispatch

variable (type payload : Frame)

theorem decodedPayload_uri :
    decodedPayload tnfWellKnown [rtdTypeUri] payload = decodeUriPayload payload urlBytesMax := by
  rw [decodedPayload, if_pos (by decide), if_neg (by decide), if_neg (by decide)]
  cases decodeUriPayload payload urlBytesMax <;> rfl

theorem decodedPayload_text :
    decodedPayload tnfWellKnown [rtdTypeText] payload = decodeTextPayload payload urlBytesMax := by
  rw [decodedPayload, if_neg (by decide), if_pos (by decide), if_neg (by decide)]
  cases decodeTextPayload payload urlBytesMax <;> rfl

theorem decodedPayload_mime :
    decodedPayload tnfMime type payload = decodeMimePayload type payload urlBytesMax := by
  have hkind : tnfMime ≠ tnfWellKnown := by decide
  rw [decodedPayload, if_neg (fun h => hkind h.1), if_neg (fun h => hkind h.1), if_pos rfl]
  cases decodeMimePayload type payload urlBytesMax <;> rfl

end Dispatch

end NeroReader.NdefPrint
