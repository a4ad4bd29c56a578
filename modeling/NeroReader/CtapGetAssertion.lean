import NeroReader.Cbor
import NeroReader.CString

/-!
The encoder of the authenticator's getAssertion request. It writes the parameter map by hand: fixed
templates, and heads whose form depends on the length of what follows. Without a credential the request is
the canonical encoding of its map. The descriptor of a credential announces two entries and writes the
credential without its key, so a request that carries one is no CBOR item.
-/

namespace NeroReader.Ctap

open Cbor (Item)

def clientHashLen : Nat := 32
def rpIdMax : Nat := 253
def cborAiInlineMax : Nat := 23
def cborOneByteLenMax : Nat := 255
def cborHeaderOneByteBytes : Byte := 0x58
def cborHeaderTwoByteBytes : Byte := 0x59
def cborHeaderOneByteText : Byte := 0x78
def cborInlineTextBase : Nat := 0x60
def cborInlineBytesBase : Nat := 0x40
def cborHdrInline : Nat := 1
def cborHdrUint8 : Nat := 2
def cborHdrUint16 : Nat := 3
def cborMapPkCred : Byte := 0xA2
def cborMapOptions : Byte := 0xA2
def cborMapGetAssertionNoAllow : Byte := 0xA3
def cborMapGetAssertionWithAllow : Byte := 0xA4
def cborArrayOne : Byte := 0x81
def cborKeyRpId : Byte := 0x01
def cborKeyClientDataHash : Byte := 0x02
def cborKeyAllowList : Byte := 0x03
def cborKeyOptions : Byte := 0x05
def getAssertionCdhPrefixLen : Nat := 3
def getAssertionOptionsPrefixLen : Nat := 2
def getAssertionOptionsBodyLen : Nat := 8
def getAssertionRpKeyLen : Nat := 1
def getAssertionMapHdrLen : Nat := 1
def pkCredDescriptorHdrLen : Nat := 20
def pkCredDescriptorExtra : Nat := 50

def pkCredTypeKey : Frame := [0x64, 0x74, 0x79, 0x70, 0x65]
def pkCredTypePublicKey : Frame := [0x6A, 0x70, 0x75, 0x62, 0x6C, 0x69, 0x63, 0x2D, 0x6B, 0x65, 0x79]
def optionsUp : Frame := [0x62, 0x75, 0x70, 0xF5]
def optionsUv : Frame := [0x62, 0x75, 0x76, 0xF4]

/-- The length of the head of a credential id. -/
def idHdrLen (credLen : Nat) : Nat :=
  if credLen ≤ cborAiInlineMax then cborHdrInline
  else if credLen ≤ cborOneByteLenMax then cborHdrUint8
  else cborHdrUint16

/-- The head of a credential id. -/
def idHdr (credLen : Nat) : Frame :=
  if credLen ≤ cborAiInlineMax then [BitVec.ofNat 8 (cborInlineBytesBase + credLen)]
  else if credLen ≤ cborOneByteLenMax then [cborHeaderOneByteBytes, BitVec.ofNat 8 credLen]
  else [cborHeaderTwoByteBytes, BitVec.ofNat 8 (credLen / 256), BitVec.ofNat 8 credLen]

/-- The head of the relying party's id. -/
def rpIdHdr (rpLen : Nat) : Frame :=
  if rpLen ≤ cborAiInlineMax then [BitVec.ofNat 8 (cborInlineTextBase + rpLen)]
  else [cborHeaderOneByteText, BitVec.ofNat 8 rpLen]

/-- `emit_pk_cred_descriptor` behind what the buffer holds already. -/
def emitPkCredDescriptor (credId buf : Frame) (bufMax : Nat) : Option Frame :=
  if credId.length = 0 then none
  else if bufMax < buf.length + pkCredDescriptorExtra + idHdrLen credId.length + credId.length then none
  else
    some (buf ++ (cborMapPkCred :: (pkCredTypeKey ++ (pkCredTypePublicKey ++ (idHdr credId.length ++ credId)))))

/-- `nfc_ctap_encode_get_assertion`; the credential is the bytes at its pointer, if there is one. -/
def encodeGetAssertion (clientHash rpId : Frame) (allowCred : Option Frame) (outMax : Nat) : Option Frame :=
  let cred := allowCred.getD []
  let hasAllow : Bool := cred.length != 0
  match boundedStrlen rpId (rpIdMax + 1) with
  | none => none
  | some rpLen =>
      if rpLen = 0 ∨ rpIdMax < rpLen then none
      else
        let required := getAssertionMapHdrLen + getAssertionRpKeyLen +
          (if rpLen ≤ cborAiInlineMax then cborHdrInline else cborHdrUint8) + rpLen +
          getAssertionCdhPrefixLen + clientHashLen + getAssertionOptionsPrefixLen + getAssertionOptionsBodyLen
        let required :=
          if hasAllow then required + (cborHdrUint8 + pkCredDescriptorHdrLen + idHdrLen cred.length + cred.length)
          else required
        if outMax < required then none
        else do
          let out := (if hasAllow then cborMapGetAssertionWithAllow else cborMapGetAssertionNoAllow) ::
            cborKeyRpId :: (rpIdHdr rpLen ++ rpId.take rpLen)
          let out := out ++ (cborKeyClientDataHash :: cborHeaderOneByteBytes :: BitVec.ofNat 8 clientHashLen ::
            clientHash.take clientHashLen)
          let out ← if hasAllow then
              emitPkCredDescriptor cred (out ++ [cborKeyAllowList, cborArrayOne]) outMax
            else some out
          return out ++ (cborKeyOptions :: cborMapOptions :: (optionsUp ++ optionsUv))

/-! ### The request that is meant -/

def textItem (s : String) : Item := .text (s.toList.map fun c => BitVec.ofNat 8 c.toNat)

/-- The simple values of the two truth values. -/
def boolItem (b : Bool) : Item := .simple (if b then 21 else 20)

/-- The descriptor of a credential. -/
def descriptor (cred : Frame) : Item := .map [(textItem "id", .bytes cred), (textItem "type", textItem "public-key")]

def options : Item := .map [(textItem "up", boolItem true), (textItem "uv", boolItem false)]

/-- The parameter map of a getAssertion request. -/
def getAssertion (clientHash rpId : Frame) (cred : Option Frame) : Item :=
  .map ([(.unsigned 1, .text rpId), (.unsigned 2, .bytes clientHash)] ++
    (cred.toList.map fun id => (.unsigned 3, .array [descriptor id])) ++ [(.unsigned 5, options)])

/-- **The encoder is right** about a request: what it returns is exactly one CBOR item, the map that is meant,
and it returns something exactly when the encoding of this map fits the capacity. -/
def EncodesRightly (clientHash rpId : Frame) (cred : Option Frame) (outMax : Nat) : Prop :=
  (∀ out, encodeGetAssertion clientHash (rpId ++ [0]) cred outMax = some out →
      Cbor.decode out = some (getAssertion clientHash rpId cred)) ∧
    ((encodeGetAssertion clientHash (rpId ++ [0]) cred outMax).isSome = true ↔
      (Cbor.encode (getAssertion clientHash rpId cred)).length ≤ outMax)

/-! ### Heads -/

theorem rpIdHdr_eq {n : Nat} (h : n ≤ rpIdMax) : rpIdHdr n = Cbor.head 3 n := by
  rw [rpIdMax] at h
  rw [rpIdHdr, Cbor.head, cborAiInlineMax]
  by_cases hshort : n ≤ 23
  · rw [if_pos hshort, if_pos (by omega)]
    rfl
  · rw [if_neg hshort, if_neg (by omega), if_pos (by omega)]
    simp only [Cbor.digits, Nat.pow_zero, Nat.div_one]
    rfl

theorem idHdr_eq {n : Nat} (h : n ≤ 0xFFFF) : idHdr n = Cbor.head 2 n := by
  rw [idHdr, Cbor.head, cborAiInlineMax, cborOneByteLenMax]
  by_cases hshort : n ≤ 23
  · rw [if_pos hshort, if_pos (by omega)]
    rfl
  rw [if_neg hshort, if_neg (show ¬ n < 24 by omega)]
  by_cases hbyte : n ≤ 255
  · rw [if_pos hbyte, if_pos (by omega)]
    simp only [Cbor.digits, Nat.pow_zero, Nat.div_one]
    rfl
  · rw [if_neg hbyte, if_neg (by omega), if_pos (by omega)]
    simp only [Cbor.digits, Nat.pow_zero, Nat.pow_one, Nat.div_one]
    rfl

theorem idHdrLen_eq (n : Nat) : idHdrLen n = (idHdr n).length := by
  rw [idHdrLen, idHdr]
  split
  · rfl
  split <;> rfl

/-! ### What fits -/

theorem lt_256_pow_8 {n : Nat} (h : n ≤ 0xFFFF) : n < 256 ^ 8 :=
  h.trans_lt (by decide)

theorem fits_unsigned {n : Nat} (h : n ≤ 0xFFFF) : (Item.unsigned n).Fits :=
  lt_256_pow_8 h

theorem fits_textItem {s : String} (h : s.toList.length ≤ 0xFFFF) : (textItem s).Fits := by
  have hlen : (s.toList.map fun c => (BitVec.ofNat 8 c.toNat : Byte)).length ≤ 0xFFFF := by rwa [List.length_map]
  exact lt_256_pow_8 hlen

theorem fits_boolItem (b : Bool) : (boolItem b).Fits := by
  cases b
  · exact show 20 < 24 by decide
  · exact show 21 < 24 by decide

theorem fits_options : options.Fits :=
  ⟨lt_256_pow_8 (show 2 ≤ 0xFFFF by decide), fits_textItem (by decide), fits_boolItem true, fits_textItem (by decide),
    fits_boolItem false, trivial⟩

/-! ### The encoding -/

/-- The entries for the relying party and for the hash. -/
def leadingEntries (clientHash rpId : Frame) : List (Item × Item) :=
  [(.unsigned 1, .text rpId), (.unsigned 2, .bytes clientHash)]

/-- What a decoder sees in place of the descriptor: the credential is the key of a second entry, and the key
of the options is its value. -/
def misreadDescriptor (cred : Frame) : Item :=
  .map [(textItem "type", textItem "public-key"), (.bytes cred, .unsigned 5)]

section Encoding

variable {clientHash rpId cred : Frame} (hhash : clientHash.length = clientHashLen)
  (hrp : (0 : Byte) ∉ rpId ∧ 1 ≤ rpId.length ∧ rpId.length ≤ rpIdMax)

theorem encode_options : Cbor.encode options = cborMapOptions :: (optionsUp ++ optionsUv) := by
  rfl

/-- The encoding of a request without a credential. -/
theorem encode_without : Cbor.encode (getAssertion clientHash rpId none) =
    cborMapGetAssertionNoAllow :: (Cbor.encodeEntries (leadingEntries clientHash rpId) ++
      cborKeyOptions :: cborMapOptions :: (optionsUp ++ optionsUv)) := by
  have hmap : Cbor.head 5 3 = [cborMapGetAssertionNoAllow] := rfl
  have hkey : Cbor.head 0 5 = [cborKeyOptions] := rfl
  simp only [getAssertion, leadingEntries, Cbor.encode, Cbor.encodeEntries, Option.toList_none, List.map_nil,
    List.append_nil, List.cons_append, List.nil_append, List.length_cons, List.length_nil, hmap, hkey, encode_options,
    List.append_assoc]

include hrp

theorem boundedStrlen_rpId : boundedStrlen (rpId ++ [0]) (rpIdMax + 1) = some rpId.length :=
  boundedStrlen_text hrp.1 (by omega)

include hhash

theorem encode_leadingEntries : Cbor.encodeEntries (leadingEntries clientHash rpId) =
    cborKeyRpId :: (rpIdHdr rpId.length ++ (rpId ++ (cborKeyClientDataHash :: cborHeaderOneByteBytes ::
      BitVec.ofNat 8 clientHashLen :: clientHash))) := by
  have hone : Cbor.head 0 1 = [cborKeyRpId] := rfl
  have htwo : Cbor.head 0 2 = [cborKeyClientDataHash] := rfl
  have hbytes : Cbor.head 2 clientHashLen = [cborHeaderOneByteBytes, BitVec.ofNat 8 clientHashLen] := rfl
  simp only [leadingEntries, Cbor.encodeEntries, Cbor.encode, hhash, hone, htwo, hbytes, rpIdHdr_eq hrp.2.2,
    List.cons_append, List.nil_append, List.append_nil, List.append_assoc]

theorem length_leadingEntries : (Cbor.encodeEntries (leadingEntries clientHash rpId)).length =
    36 + (rpIdHdr rpId.length).length + rpId.length := by
  rw [clientHashLen] at hhash
  rw [encode_leadingEntries hhash hrp]
  simp only [List.length_cons, List.length_append, hhash]
  omega

theorem length_with (hcred : cred.length ≤ 0xFFFF) : (Cbor.encode (getAssertion clientHash rpId (some cred))).length =
    69 + (rpIdHdr rpId.length).length + rpId.length + idHdrLen cred.length + cred.length := by
  have hlead := length_leadingEntries hhash hrp
  have hparts : Cbor.encode (getAssertion clientHash rpId (some cred)) =
      [cborMapGetAssertionWithAllow] ++ (Cbor.encodeEntries (leadingEntries clientHash rpId) ++
        ([cborKeyAllowList, cborArrayOne, cborMapPkCred, 0x62, 0x69, 0x64] ++ (idHdr cred.length ++ (cred ++
          (pkCredTypeKey ++ (pkCredTypePublicKey ++ ([cborKeyOptions] ++ Cbor.encode options))))))) := by
    have hmap : Cbor.head 5 4 = [cborMapGetAssertionWithAllow] := rfl
    have hkey : Cbor.head 0 3 = [cborKeyAllowList] := rfl
    have harray : Cbor.head 4 1 = [cborArrayOne] := rfl
    have hdescriptor : Cbor.head 5 2 = [cborMapPkCred] := rfl
    have hid : Cbor.encode (textItem "id") = [0x62, 0x69, 0x64] := rfl
    have htype : Cbor.encode (textItem "type") = pkCredTypeKey := rfl
    have hvalue : Cbor.encode (textItem "public-key") = pkCredTypePublicKey := rfl
    have hlast : Cbor.head 0 5 = [cborKeyOptions] := rfl
    rw [idHdr_eq hcred]
    simp only [getAssertion, leadingEntries, descriptor, Cbor.encode, Cbor.encodeEntries, Cbor.encodeAll,
      Option.toList_some, List.map_cons, List.map_nil, List.append_nil, List.cons_append, List.nil_append,
      List.length_cons, List.length_nil, hmap, hkey, harray, hdescriptor, hid, htype, hvalue, hlast, List.append_assoc]
  have htype : pkCredTypeKey.length = 5 := rfl
  have hvalue : pkCredTypePublicKey.length = 11 := rfl
  have hoptions : (Cbor.encode options).length = 9 := rfl
  rw [hparts, idHdrLen_eq]
  simp only [List.length_append, List.length_cons, List.length_nil, hlead, htype, hvalue, hoptions]
  omega

theorem fits_leadingEntries : Cbor.FitsEntries (leadingEntries clientHash rpId) := by
  rw [clientHashLen] at hhash
  rw [rpIdMax] at hrp
  have hrpId : (Item.text rpId).Fits := lt_256_pow_8 (show rpId.length ≤ 0xFFFF by omega)
  have hclient : (Item.bytes clientHash).Fits := lt_256_pow_8 (show clientHash.length ≤ 0xFFFF by omega)
  exact ⟨fits_unsigned (by decide), hrpId, fits_unsigned (by decide), hclient, trivial⟩

/-- **Without a credential** the encoder writes the canonical encoding, if it fits. -/
theorem encodeGetAssertion_without (outMax : Nat) : encodeGetAssertion clientHash (rpId ++ [0]) none outMax =
    if outMax < (Cbor.encode (getAssertion clientHash rpId none)).length then none
    else some (Cbor.encode (getAssertion clientHash rpId none)) := by
  have hlen : (Cbor.encode (getAssertion clientHash rpId none)).length =
      47 + (rpIdHdr rpId.length).length + rpId.length := by
    have hlead := length_leadingEntries hhash hrp
    have hoptions : (optionsUp ++ optionsUv).length = 8 := rfl
    rw [encode_without, List.length_cons, List.length_append, List.length_cons, List.length_cons, hlead, hoptions]
    omega
  have hhdr : (rpIdHdr rpId.length).length =
      if rpId.length ≤ cborAiInlineMax then cborHdrInline else cborHdrUint8 := by
    rw [rpIdHdr]
    split <;> rfl
  rw [encodeGetAssertion, boundedStrlen_rpId hrp]
  simp only [Option.getD_none, List.length_nil, bne_self_eq_false, Bool.false_eq_true, if_false]
  rw [if_neg (by omega), hlen, hhdr, getAssertionMapHdrLen, getAssertionRpKeyLen, getAssertionCdhPrefixLen,
    clientHashLen, getAssertionOptionsPrefixLen, getAssertionOptionsBodyLen]
  refine if_congr ?_ rfl ?_
  · split <;> omega
  · rw [List.take_left, List.take_of_length_le (by rw [hhash, clientHashLen]), encode_without,
      encode_leadingEntries hhash hrp]
    simp only [Option.bind_eq_bind, Option.bind_some, List.cons_append, List.append_assoc]
    rfl

/-- **With a credential** nothing is returned for a capacity the encoding does not fit, and what is returned
otherwise states an entry more than it has. -/
theorem encodeGetAssertion_with {outMax : Nat} (hcred : 1 ≤ cred.length ∧ cred.length ≤ 0xFFFF) {out : Frame}
    (h : encodeGetAssertion clientHash (rpId ++ [0]) (some cred) outMax = some out) :
    (Cbor.encode (getAssertion clientHash rpId (some cred))).length ≤ outMax ∧
      out = Cbor.head 5 4 ++ (Cbor.encodeEntries (leadingEntries clientHash rpId ++
        [(.unsigned 3, .array [misreadDescriptor cred])]) ++ Cbor.encode options) := by
  have hallow : (cred.length != 0) = true := bne_iff_ne.mpr (by omega)
  rw [encodeGetAssertion, boundedStrlen_rpId hrp] at h
  simp only [Option.getD_some, hallow, if_true] at h
  have hhdr : (if rpId.length ≤ cborAiInlineMax then cborHdrInline else cborHdrUint8) =
      (rpIdHdr rpId.length).length := by
    rw [rpIdHdr]
    split <;> rfl
  rw [if_neg (by omega), hhdr] at h
  split at h
  · simp at h
  rename_i hroom
  rw [List.take_left, List.take_of_length_le (by rw [hhash, clientHashLen]), Option.bind_eq_bind,
    Option.bind_eq_some_iff] at h
  obtain ⟨buf, hbuf, hout⟩ := h
  rw [emitPkCredDescriptor, if_neg (by omega)] at hbuf
  split at hbuf
  · simp at hbuf
  obtain rfl := Option.some.inj hbuf
  obtain rfl := Option.some.inj hout
  constructor
  · rw [length_with hhash hrp hcred.2]
    rw [getAssertionMapHdrLen, getAssertionRpKeyLen, getAssertionCdhPrefixLen, clientHashLen,
      getAssertionOptionsPrefixLen, getAssertionOptionsBodyLen, cborHdrUint8, pkCredDescriptorHdrLen] at hroom
    omega
  · have hentries : Cbor.encodeEntries (leadingEntries clientHash rpId ++
        [(.unsigned 3, .array [misreadDescriptor cred])]) = Cbor.encodeEntries (leadingEntries clientHash rpId) ++
          (cborKeyAllowList :: cborArrayOne :: cborMapPkCred :: (pkCredTypeKey ++ (pkCredTypePublicKey ++
            (idHdr cred.length ++ (cred ++ [cborKeyOptions]))))) := by
      have hkey : Cbor.head 0 3 = [cborKeyAllowList] := rfl
      have harray : Cbor.head 4 1 = [cborArrayOne] := rfl
      have hdescriptor : Cbor.head 5 2 = [cborMapPkCred] := rfl
      have htype : Cbor.encode (textItem "type") = pkCredTypeKey := rfl
      have hvalue : Cbor.encode (textItem "public-key") = pkCredTypePublicKey := rfl
      have hlast : Cbor.head 0 5 = [cborKeyOptions] := rfl
      rw [idHdr_eq hcred.2]
      simp only [leadingEntries, misreadDescriptor, Cbor.encode, Cbor.encodeEntries, Cbor.encodeAll, List.append_nil,
        List.cons_append, List.nil_append, List.length_cons, List.length_nil, hkey, harray, hdescriptor, htype, hvalue,
        hlast, List.append_assoc]
    have hmap : Cbor.head 5 4 = [cborMapGetAssertionWithAllow] := rfl
    rw [hentries, encode_leadingEntries hhash hrp, hmap, encode_options]
    simp only [List.cons_append, List.nil_append, List.append_assoc]

/-- **No request with a credential is a CBOR item.** -/
theorem decode_with (hcred : cred.length ≤ 0xFFFF) :
    Cbor.decode (Cbor.head 5 4 ++ (Cbor.encodeEntries (leadingEntries clientHash rpId ++
      [(.unsigned 3, .array [misreadDescriptor cred])]) ++ Cbor.encode options)) = none := by
  have hdescriptor : (misreadDescriptor cred).Fits :=
    ⟨lt_256_pow_8 (show 2 ≤ 0xFFFF by decide), fits_textItem (by decide), fits_textItem (by decide),
      lt_256_pow_8 hcred, fits_unsigned (by decide), trivial⟩
  have hfits :
      Cbor.FitsEntries (leadingEntries clientHash rpId ++ [(.unsigned 3, .array [misreadDescriptor cred])]) := by
    obtain ⟨h1, h2, h3, h4, -⟩ := fits_leadingEntries hhash hrp
    exact ⟨h1, h2, h3, h4, fits_unsigned (by decide), ⟨lt_256_pow_8 (show 1 ≤ 0xFFFF by decide), hdescriptor, trivial⟩,
      trivial⟩
  have hlen : (leadingEntries clientHash rpId ++
      [((.unsigned 3, .array [misreadDescriptor cred]) : Item × Item)]).length + 1 < 256 ^ 8 :=
    show 4 < 256 ^ 8 by decide
  exact Cbor.decode_short_map hlen hfits fits_options

end Encoding

/-- **When the encoder is right.** It is right about every request without a credential; with one it is right
only where the encoding that is meant does not fit and nothing is returned. -/
theorem getAssertion_right_iff (clientHash rpId : Frame) (cred : Option Frame) (outMax : Nat)
    (hhash : clientHash.length = clientHashLen)
    (hrp : (0 : Byte) ∉ rpId ∧ 1 ≤ rpId.length ∧ rpId.length ≤ rpIdMax)
    (hcred : ∀ id ∈ cred, 1 ≤ id.length ∧ id.length ≤ 0xFFFF) :
    EncodesRightly clientHash rpId cred outMax ↔
      cred = none ∨ outMax < (Cbor.encode (getAssertion clientHash rpId cred)).length := by
  cases cred with
  | none =>
      refine iff_of_true ?_ (Or.inl rfl)
      rw [EncodesRightly, encodeGetAssertion_without hhash hrp]
      have hfits : (getAssertion clientHash rpId none).Fits := by
        obtain ⟨h1, h2, h3, h4, -⟩ := fits_leadingEntries hhash hrp
        exact ⟨lt_256_pow_8 (show 3 ≤ 0xFFFF by decide), h1, h2, h3, h4, fits_unsigned (by decide), fits_options,
          trivial⟩
      split
      · rename_i hroom
        exact ⟨fun out hout => by simp at hout, by simp; omega⟩
      · rename_i hroom
        refine ⟨fun out hout => ?_, by simp; omega⟩
        obtain rfl := Option.some.inj hout
        exact Cbor.decode_encode hfits
  | some id =>
      have hid := hcred id rfl
      constructor
      · rintro ⟨hdecode, hfits⟩
        refine Or.inr (Nat.lt_of_not_le fun hroom => ?_)
        obtain ⟨out, hout⟩ := Option.isSome_iff_exists.mp (hfits.mpr hroom)
        obtain ⟨-, hform⟩ := encodeGetAssertion_with hhash hrp hid hout
        have hnone := decode_with hhash hrp hid.2
        rw [← hform, hdecode out hout] at hnone
        simp at hnone
      · rintro (hnone | hroom)
        · simp at hnone
        have hnothing : encodeGetAssertion clientHash (rpId ++ [0]) (some id) outMax = none := by
          cases hout : encodeGetAssertion clientHash (rpId ++ [0]) (some id) outMax with
          | none => rfl
          | some out =>
              obtain ⟨hle, -⟩ := encodeGetAssertion_with hhash hrp hid hout
              omega
        rw [EncodesRightly, hnothing]
        exact ⟨fun out hout => by simp at hout, by simp; omega⟩

/-- A relying party for the two requests below. -/
def somewhere : Frame := [0x77, 0x65, 0x62]

/-- A credential of four bytes in a buffer with room for it: the request is returned and is no CBOR item. -/
theorem with_credential_not_right :
    ¬ EncodesRightly (List.replicate 32 0) somewhere (some [0xDE, 0xAD, 0xBE, 0xEF]) 255 := by
  intro h
  obtain ⟨out, hout⟩ := Option.isSome_iff_exists.mp
    (show (encodeGetAssertion (List.replicate 32 0) (somewhere ++ [0]) (some [0xDE, 0xAD, 0xBE, 0xEF]) 255).isSome =
      true by decide)
  have hid : 1 ≤ ([0xDE, 0xAD, 0xBE, 0xEF] : Frame).length ∧ ([0xDE, 0xAD, 0xBE, 0xEF] : Frame).length ≤ 0xFFFF := by
    decide
  obtain ⟨-, hform⟩ := encodeGetAssertion_with rfl (by decide) hid hout
  have hnone : Cbor.decode out = none := by
    rw [hform]
    exact decode_with rfl (by decide) hid.2
  rw [h.1 out hout] at hnone
  simp at hnone

/-- Without a credential, and with one in a buffer that has no room for it. -/
theorem getAssertion_right_iff_somewhere :
    EncodesRightly (List.replicate 32 0) somewhere none 255 ∧
      EncodesRightly (List.replicate 32 0) somewhere (some [0xDE, 0xAD, 0xBE, 0xEF]) 60 :=
  ⟨(getAssertion_right_iff _ _ none 255 rfl (by decide) (by simp)).mpr (Or.inl rfl),
    (getAssertion_right_iff _ _ (some [0xDE, 0xAD, 0xBE, 0xEF]) 60 rfl (by decide) (by simp)).mpr (Or.inr (by decide))⟩

end NeroReader.Ctap
