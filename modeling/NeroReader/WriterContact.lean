import NeroReader.WriterReadBack

/-!
The contact that the writer emits. Its fields hold no control character, so the body has the lines it was put
together from and no others, and a property is found on its own line whatever the fields say.
-/

namespace NeroReader.WriterPayload

open Ndef NdefPrint

/-- A record that is all of a message, with what the walker makes of it. -/
structure Alone (out : Frame) (tnf : Byte) (type payload : Frame) : Prop where
  walked : ∃ record, recordNext out 0 = ⟨.ok, record, out.length⟩ ∧ record.tnf = tnf ∧ record.type out = type ∧
    record.payload out = payload

theorem Emitted.alone {out type payload : Frame} {tnf : Byte} (h : Emitted out tnf type payload) :
    Alone out tnf type payload := by
  obtain ⟨r, rfl, rfl, rfl, rfl⟩ := h
  exact ⟨r.walked true true, ShortRecord.recordNext_alone, rfl, ShortRecord.walked_type_alone,
    ShortRecord.walked_payload_alone⟩

/-- What a contact that is emitted is made of: the name, and the parts of the second array at its first bar. -/
theorem contact_emitted {cfg : Config} {outMax : Nat} (hkind : cfg.kind = .vcardMime)
    (hwritten : writerPayloadBuildNdef cfg outMax ≠ []) :
    Emitted (writerPayloadBuildNdef cfg outMax) tnfMime mimeVcard (vcardText cfg.text1 cfg.part1 cfg.part2) ∧
      (vcardText cfg.text1 cfg.part1 cfg.part2).length < srPayloadMax ∧
      Plain cfg.text1 ∧ Plain cfg.part1 ∧ Plain cfg.part2 := by
  rw [writerPayloadBuildNdef] at hwritten ⊢
  split at hwritten
  · exact absurd rfl hwritten
  rename_i hmax
  rw [if_neg hmax]
  rw [buildNdefMessage] at hwritten ⊢
  split at hwritten
  swap
  · exact absurd rfl hwritten
  rename_i len1 len2 hlen1 hlen2
  have hsplit : splitFields cfg.str2.bytes len2 = some (cfg.part1, cfg.part2) := splitFields_eq hlen2
  have hzero2 : (0 : Byte) ∉ cfg.text2 := zero_notMem_cText _
  have htext1 : cfg.str1.bytes.take len1 = cfg.text1 := boundedStrlen_take hlen1
  simp only [hkind, hsplit, htext1] at hwritten ⊢
  split at hwritten
  · exact absurd rfl hwritten
  rename_i hcontrol
  split at hwritten
  · exact absurd rfl hwritten
  rename_i hfits
  rw [if_neg hcontrol, if_neg hfits]
  simp only [not_or, Bool.not_eq_true] at hcontrol
  have hname : Plain cfg.text1 := plain_of_check hcontrol.1
  have htel := plain_of_check hcontrol.2.1
  have hemail := plain_of_check hcontrol.2.2
  have hpart1 : (0 : Byte) ∉ cfg.part1 := zero_notMem_beforeBar hzero2
  have hpart2 : (0 : Byte) ∉ cfg.part2 := zero_notMem_behindBar hzero2
  rw [cText_append hpart1] at htel
  rw [cText_append hpart2] at hemail
  obtain ⟨hemitted, hlen⟩ := ndefEmitMimeSr_spec hwritten
  exact ⟨hemitted, hlen, hname, htel, hemail⟩

/-- **No field of a contact injects a property.** Whatever the strings hold, the body of a contact that is emitted
has six lines, each ending where its line end says, and each property is found with the string given for it. -/
theorem contact_not_injected (cfg : Config) (outMax : Nat) (hkind : cfg.kind = .vcardMime)
    (hwritten : writerPayloadBuildNdef cfg outMax ≠ []) :
    ∃ body, Alone (writerPayloadBuildNdef cfg outMax) tnfMime mimeVcard body ∧
      body = crlfLines (vcardLines cfg.text1 cfg.part1 cfg.part2) ∧
      (∀ line ∈ vcardLines cfg.text1 cfg.part1 cfg.part2, ∀ ch ∈ line, isLineEnd ch = false) ∧
      vcardProperty body (ascii "FN") = some cfg.text1 ∧ vcardProperty body (ascii "TEL") = some cfg.part1 ∧
        vcardProperty body (ascii "EMAIL") = some cfg.part2 := by
  obtain ⟨hemitted, hlen, hname, htel, hemail⟩ := contact_emitted hkind hwritten
  obtain ⟨hfn, htl, hml⟩ := vcard_fields hname htel hemail hlen
  exact ⟨_, hemitted.alone, vcardText_lines _ _ _, vcardLines_plain hname htel hemail, hfn, htl, hml⟩

/-- A name and a telephone that look like properties. -/
def oddContact : Config where
  kind := .vcardMime
  str1 := .ofText _ (ascii "TEL:1;EMAIL:x") (by decide)
  str2 := .ofText _ (ascii "FN;a:b|END:VCARD") (by decide)
  rawNdef := []
  uriId := 0

theorem contact_not_injected_odd :
    ∃ body, Alone (writerPayloadBuildNdef oddContact 880) tnfMime mimeVcard body ∧
      body = crlfLines (vcardLines oddContact.text1 oddContact.part1 oddContact.part2) ∧
      (∀ line ∈ vcardLines oddContact.text1 oddContact.part1 oddContact.part2, ∀ ch ∈ line, isLineEnd ch = false) ∧
      vcardProperty body (ascii "FN") = some oddContact.text1 ∧
        vcardProperty body (ascii "TEL") = some oddContact.part1 ∧
        vcardProperty body (ascii "EMAIL") = some oddContact.part2 :=
  contact_not_injected oddContact 880 rfl (by decide)

end NeroReader.WriterPayload
