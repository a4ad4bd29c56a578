import NeroReader.NdefPrint
import NeroReader.WriterPayload

/-!
Whether the reader can read what the writer wrote. Every message the writer emits is one short record that
the walker accepts whole. The writer looks at the lengths of its fields and, for a contact, at their control
characters; the decoders also look at the other characters. So a record is decoded to what was configured
exactly when the fields hold only characters its decoder passes (`writer_reads_back_iff`).
-/

namespace NeroReader.WriterPayload

open Ndef NdefPrint

/-! ### What is emitted -/

/-- The message is one short record with this type name format, type and payload. -/
def Emitted (out : Frame) (tnf : Byte) (type payload : Frame) : Prop :=
  ∃ r : ShortRecord, out = r.bytes true true ∧ r.tnf = tnf ∧ r.type = type ∧ r.payload = payload

variable {cap : Nat}

theorem ndefEmitUri_spec {uriId : Byte} {uri : Frame} (h : ndefEmitUri cap uriId uri ≠ []) :
    Emitted (ndefEmitUri cap uriId uri) tnfWellKnown [rtdTypeUri] (uriId :: cText uri) ∧
      uriId.toNat < uriPrefixCodeCount ∧ cText uri ≠ [] ∧ (cText uri).length ≤ rtdUriPayloadMax := by
  rw [ndefEmitUri] at h ⊢
  split at h
  · simp at h
  rename_i hcode
  cases hlen : boundedStrlen uri (rtdUriPayloadMax + 1) with
  | none => simp [hlen] at h
  | some len =>
      simp only [hlen] at h ⊢
      split at h
      · simp at h
      rename_i hbounds
      split at h
      · simp at h
      rename_i hroom
      obtain ⟨-, hlength, -⟩ := boundedStrlen_spec hlen
      obtain ⟨hle, hne⟩ := not_or.mp hbounds
      rw [rtdUriPayloadMax] at hle
      rw [if_neg hcode, if_neg hbounds, if_neg hroom, boundedStrlen_take hlen]
      let r : ShortRecord := ⟨tnfWellKnown, [rtdTypeUri], uriId :: cText uri, by decide, by decide,
        by rw [List.length_cons, srPayloadMax]; omega⟩
      refine ⟨⟨r, ?_, rfl, rfl, rfl⟩, Nat.lt_of_not_le hcode, ?_, by rw [rtdUriPayloadMax]; omega⟩
      · rw [← hlength, Nat.add_comm]
        rfl
      · rintro hnil
        exact hne (by rw [← hlength, hnil, List.length_nil])

theorem ndefEmitText_spec {text : Frame} (h : ndefEmitText cap text ≠ []) :
    Emitted (ndefEmitText cap text) tnfWellKnown [rtdTypeText]
        (textStatusUtf8Lang2 :: (enLang ++ cText text)) ∧
      (cText text).length ≤ rtdTextPayloadMax := by
  rw [ndefEmitText] at h ⊢
  cases hlen : boundedStrlen text (rtdTextPayloadMax + 1) with
  | none => simp [hlen] at h
  | some len =>
      simp only [hlen] at h ⊢
      split at h
      · simp at h
      rename_i hbound
      split at h
      · simp at h
      rename_i hroom
      obtain ⟨-, hlength, -⟩ := boundedStrlen_spec hlen
      have hle : len ≤ 200 := Nat.not_lt.mp hbound
      have hlang : enLang.length = 2 := rfl
      rw [if_neg hbound, if_neg hroom, boundedStrlen_take hlen]
      let r : ShortRecord := ⟨tnfWellKnown, [rtdTypeText], textStatusUtf8Lang2 :: (enLang ++ cText text),
        by decide, by decide, by rw [List.length_cons, List.length_append, srPayloadMax]; omega⟩
      refine ⟨⟨r, ?_, rfl, rfl, rfl⟩, by rw [rtdTextPayloadMax]; omega⟩
      have hsize : r.payload.length = 1 + enLang.length + len := by
        rw [show r.payload = textStatusUtf8Lang2 :: (enLang ++ cText text) from rfl, List.length_cons,
          List.length_append, hlength, Nat.add_comm 1, Nat.add_right_comm]
      rw [← hsize]
      rfl

theorem ndefEmitMimeSr_spec {mime payload : Frame} (h : ndefEmitMimeSr cap mime payload ≠ []) :
    Emitted (ndefEmitMimeSr cap mime payload) tnfMime mime payload ∧ payload.length < srPayloadMax := by
  rw [ndefEmitMimeSr] at h ⊢
  split at h
  · simp at h
  rename_i hbounds
  split at h
  · simp at h
  rename_i hroom
  rw [if_neg hbounds, if_neg hroom]
  simp only [not_or, Nat.not_lt, Nat.not_le] at hbounds hroom
  have hmime : mime.length ≤ srPayloadMax := Nat.le_trans hbounds.1 (by decide)
  exact ⟨⟨⟨tnfMime, mime, payload, by decide, hmime, Nat.le_of_lt hroom.1⟩, rfl, rfl, rfl, rfl⟩, hroom.1⟩

theorem emitFormatted_spec {size : Nat} {uri : Frame} (hzero : (0 : Byte) ∉ uri)
    (h : emitFormatted size cap uri ≠ []) :
    Emitted (emitFormatted size cap uri) tnfWellKnown [rtdTypeUri] (uriPrefixNone :: uri) ∧ uri ≠ [] ∧
      uri.length ≤ rtdUriPayloadMax := by
  rw [emitFormatted] at h ⊢
  split at h
  · simp at h
  rename_i hfits
  rw [if_neg hfits]
  obtain ⟨hemitted, -, hne, hlen⟩ := ndefEmitUri_spec h
  rw [cText_append hzero] at hemitted hne hlen
  exact ⟨hemitted, hne, hlen⟩

/-! ### What the configuration stands for -/

namespace Config

variable (cfg : Config)

/-- The texts of the two arrays, and the parts of the second. -/
def text1 : Frame := cText cfg.str1.bytes
def text2 : Frame := cText cfg.str2.bytes
def part1 : Frame := beforeBar cfg.text2
def part2 : Frame := behindBar cfg.text2

end Config

/-- A letter in upper case. -/
def upper (ch : Byte) : Byte := if 0x61 ≤ ch ∧ ch ≤ 0x7A then ch - 0x20 else ch

/-- What the reader is to show for a configuration: the URI, the text, the contact, the credential or the
address. -/
def Config.shown (cfg : Config) : Frame :=
  match cfg.kind with
  | .urlHttps => ascii "https://" ++ cfg.text1
  | .uriRaw => uriPrefix cfg.uriId.toNat ++ cfg.text1
  | .smsUri => smsUri cfg.text1 cfg.text2
  | .mailtoUri => mailtoUri cfg.text1 cfg.part1 cfg.part2
  | .geoUri => geoUri cfg.text1
  | .plainText => cfg.text1
  | .vcardMime =>
      ascii "Contact: name=" ++ cfg.text1 ++ (if cfg.part1 = [] then [] else ascii " tel=" ++ cfg.part1) ++
        (if cfg.part2 = [] then [] else ascii " email=" ++ cfg.part2)
  | .wifiWsc =>
      ascii "Wi-Fi: ssid=" ++ cfg.text1 ++ ascii " auth=WPA2-Personal encryption=AES key=" ++ cfg.text2
  | .btOob => ascii "Bluetooth OOB: address=" ++ cfg.text1.map upper
  | .none | .rawNdef | .unknown => []

/-- **The fields hold only what their decoder passes**: percent-encoded text in the characters of a URI,
or text that can be displayed. -/
def Config.Readable (cfg : Config) : Bool :=
  match cfg.kind with
  | .urlHttps | .uriRaw | .geoUri => UriText cfg.text1
  | .smsUri => UriText cfg.text1 && UriText cfg.text2
  | .mailtoUri => UriText cfg.text1 && UriText cfg.part1 && UriText cfg.part2
  | .vcardMime =>
      payloadIsDisplayText cfg.text1 && payloadIsDisplayText cfg.part1 && payloadIsDisplayText cfg.part2
  | .wifiWsc => payloadIsDisplayText cfg.text1 && payloadIsDisplayText cfg.text2
  | .plainText | .btOob | .none | .rawNdef | .unknown => true

/-- The firmware's decoder for the payloads of a kind. -/
def Kind.decoder (kind : Kind) (payload : Frame) : Option Frame :=
  match kind with
  | .urlHttps | .uriRaw | .smsUri | .mailtoUri | .geoUri => decodeUriPayload payload urlBytesMax
  | .plainText => decodeTextPayload payload urlBytesMax
  | .vcardMime => decodeVcardPayload payload urlBytesMax
  | .wifiWsc => decodeWifiWscPayload payload urlBytesMax
  | .btOob => decodeBluetoothOobPayload payload urlBytesMax
  | .none | .rawNdef | .unknown => Option.none

/-- **The message is read back**: the walker takes all of it as one short record, the first and the last of
its message, the decoder for the kind accepts the payload and leaves what was configured, and this is what
the reader prints. -/
def ReadsBack (cfg : Config) (out : Frame) : Prop :=
  ∃ record, recordNext out 0 = ⟨.ok, record, out.length⟩ ∧ record.header &&& hdrMb ≠ 0 ∧
    record.header &&& hdrMe ≠ 0 ∧ record.header &&& hdrSr ≠ 0 ∧
    cfg.kind.decoder (record.payload out) = some cfg.shown ∧
    decodedPayload record.tnf (record.type out) (record.payload out) = some cfg.shown

theorem readsBack_iff {cfg : Config} {out : Frame} {tnf : Byte} {type payload : Frame}
    (h : Emitted out tnf type payload) : ReadsBack cfg out ↔
      cfg.kind.decoder payload = some cfg.shown ∧ decodedPayload tnf type payload = some cfg.shown := by
  obtain ⟨r, rfl, rfl, rfl, rfl⟩ := h
  obtain ⟨-, -, hsr, -, -, hme, hmb⟩ := r.header_flags true true
  constructor
  · rintro ⟨record, hrecord, -, -, -, hdecoded, hprinted⟩
    rw [ShortRecord.recordNext_alone] at hrecord
    obtain rfl : r.walked true true = record := congrArg NextRecord.record hrecord
    rw [ShortRecord.walked_payload_alone] at hdecoded hprinted
    rw [ShortRecord.walked_type_alone] at hprinted
    exact ⟨hdecoded, hprinted⟩
  · rintro ⟨hdecoded, hprinted⟩
    refine ⟨r.walked true true, ShortRecord.recordNext_alone, bne_iff_ne.mp hmb, bne_iff_ne.mp hme,
      bne_iff_ne.mp hsr, ?_, ?_⟩
    · rw [ShortRecord.walked_payload_alone]
      exact hdecoded
    · rw [ShortRecord.walked_payload_alone, ShortRecord.walked_type_alone]
      exact hprinted

/-! ### URIs and texts -/

theorem uriText_smsUri {number body : Frame} : UriText (smsUri number body) = true ↔
    UriText number = true ∧ UriText body = true := by
  by_cases hbody : body = []
  · subst hbody
    have hnil : UriText [] = true := rfl
    rw [smsUri, if_neg (not_not.mpr rfl), UriText, PercentText.wellFormed_word (by decide) (by decide), ← UriText,
      hnil, and_iff_left rfl]
  · rw [smsUri, if_pos hbody, UriText, PercentText.wellFormed_word (by decide) (by decide),
      PercentText.wellFormed_between (by decide) (by decide) (by decide), ← UriText, ← UriText]

theorem uriText_mailtoUri {address subject body : Frame} : UriText (mailtoUri address subject body) = true ↔
    UriText address = true ∧ UriText subject = true ∧ UriText body = true := by
  have hnil : UriText [] = true := rfl
  by_cases hbody : body = []
  · subst hbody
    by_cases hsubject : subject = []
    · subst hsubject
      rw [mailtoUri, if_neg (not_not.mpr rfl), if_neg (not_not.mpr rfl), UriText,
        PercentText.wellFormed_word (by decide) (by decide), ← UriText, hnil, and_self, and_iff_left rfl]
    · rw [mailtoUri, if_neg (not_not.mpr rfl), if_pos hsubject, UriText,
        PercentText.wellFormed_word (by decide) (by decide),
        PercentText.wellFormed_between (by decide) (by decide) (by decide), ← UriText, ← UriText, hnil,
        and_iff_left rfl]
  · rw [mailtoUri, if_pos hbody, UriText, PercentText.wellFormed_word (by decide) (by decide),
      PercentText.wellFormed_between (by decide) (by decide) (by decide),
      PercentText.wellFormed_between (by decide) (by decide) (by decide), ← UriText, ← UriText, ← UriText]

theorem uriText_geoUri {place : Frame} : UriText (geoUri place) = UriText place := by
  rw [geoUri, UriText, PercentText.wellFormed_word (by decide) (by decide), ← UriText]

theorem zero_notMem_smsUri {number body : Frame} (hnumber : (0 : Byte) ∉ number) (hbody : (0 : Byte) ∉ body) :
    (0 : Byte) ∉ smsUri number body := by
  have hscheme : (0 : Byte) ∉ ascii "sms:" := by decide
  have hword : (0 : Byte) ∉ ascii "?body=" := by decide
  rw [smsUri]
  split <;> simp only [List.mem_append, not_or]
  · exact ⟨hscheme, hnumber, hword, hbody⟩
  · exact ⟨hscheme, hnumber⟩

theorem zero_notMem_mailtoUri {address subject body : Frame} (haddress : (0 : Byte) ∉ address)
    (hsubject : (0 : Byte) ∉ subject) (hbody : (0 : Byte) ∉ body) :
    (0 : Byte) ∉ mailtoUri address subject body := by
  have hscheme : (0 : Byte) ∉ ascii "mailto:" := by decide
  have hfirst : (0 : Byte) ∉ ascii "?subject=" := by decide
  have hsecond : (0 : Byte) ∉ ascii "&body=" := by decide
  rw [mailtoUri]
  split
  · simp only [List.mem_append, not_or]
    exact ⟨hscheme, haddress, hfirst, hsubject, hsecond, hbody⟩
  split <;> simp only [List.mem_append, not_or]
  · exact ⟨hscheme, haddress, hfirst, hsubject⟩
  · exact ⟨hscheme, haddress⟩

theorem zero_notMem_geoUri {place : Frame} (hplace : (0 : Byte) ∉ place) : (0 : Byte) ∉ geoUri place := by
  have hscheme : (0 : Byte) ∉ ascii "geo:" := by decide
  rw [geoUri, List.mem_append, not_or]
  exact ⟨hscheme, hplace⟩

theorem zero_notMem_beforeBar {text : Frame} (h : (0 : Byte) ∉ text) : (0 : Byte) ∉ beforeBar text :=
  fun hmem => h (List.takeWhile_subset _ hmem)

theorem zero_notMem_behindBar {text : Frame} (h : (0 : Byte) ∉ text) : (0 : Byte) ∉ behindBar text :=
  fun hmem => h (List.dropWhile_subset _ (List.mem_of_mem_tail hmem))

variable {cfg : Config} {out : Frame}

/-- **A URI is read back** when the text behind the identifier is percent-encoded text in the characters of a
URI, and only then. -/
theorem uri_readsBack_iff {code : Byte} {text : Frame}
    (hdecoder : ∀ payload, cfg.kind.decoder payload = decodeUriPayload payload urlBytesMax)
    (hshown : cfg.shown = uriPrefix code.toNat ++ text)
    (hemitted : Emitted out tnfWellKnown [rtdTypeUri] (code :: text)) (hcode : code.toNat < uriPrefixCodeCount)
    (hne : text ≠ []) (hlen : text.length ≤ rtdUriPayloadMax) :
    ReadsBack cfg out ↔ UriText text = true := by
  have hfront := uriPrefix_length_le code.toNat
  rw [rtdUriPayloadMax] at hlen
  rw [readsBack_iff hemitted, hdecoder, decodedPayload_uri, and_self, decodeUriPayload_eq_some, hshown]
  refine ⟨fun h => h.2.2.1, fun h => ⟨hcode, rfl, h, by simp [hne], ?_⟩⟩
  rw [List.length_append, urlBytesMax, decodeOutMax]
  omega

/-- **A text is read back** always. -/
theorem text_readsBack {text : Frame} (hkind : cfg.kind = .plainText) (hshown : cfg.shown = text)
    (hemitted : Emitted out tnfWellKnown [rtdTypeText] (textStatusUtf8Lang2 :: (enLang ++ text)))
    (hzero : (0 : Byte) ∉ text) (hlen : text.length ≤ rtdTextPayloadMax) : ReadsBack cfg out := by
  have hdecoded : decodeTextPayload (textStatusUtf8Lang2 :: (enLang ++ text)) urlBytesMax = some text := by
    rw [decodeTextPayload_eq_some (by decide) (by decide)]
    rw [rtdTextPayloadMax] at hlen
    exact ⟨rfl, hzero, by rw [urlBytesMax, decodeOutMax]; omega⟩
  rw [readsBack_iff hemitted, decodedPayload_text, hshown, hkind]
  exact ⟨hdecoded, hdecoded⟩

/-! ### Wi-Fi credentials -/

/-- The attributes of a credential, and the blob around them. -/
def credentialOf (ssid key : Frame) : Frame :=
  Attributes.put wscAttrNetworkIndex [0x01] ++ (Attributes.put wscAttrSsid ssid ++
    (Attributes.put wscAttrAuthType [0x00, 0x20] ++ (Attributes.put wscAttrEncrType [0x00, 0x08] ++
      (Attributes.put wscAttrNetworkKey key ++ Attributes.put wscAttrMacAddress (List.replicate 6 0x00)))))

def credentialBlob (ssid key : Frame) : Frame :=
  wscVersion ++ Attributes.put wscAttrCredential (credentialOf ssid key)

theorem wpsPutAttr_eq_some {bufCap attr : Nat} {data buf r : Frame} (h : wpsPutAttr bufCap attr data buf = some r) :
    r = buf ++ Attributes.put attr data := by
  rw [wpsPutAttr] at h
  split at h
  · simp at h
  · exact (Option.some.inj h).symm

theorem buildWifiWsc_spec {ssid psk blob : Frame} (h : buildWifiWsc cap ssid psk = some blob) :
    blob = credentialBlob (cText ssid) (cText psk) ∧ (cText ssid).length ≤ wscSsidMaxLen ∧
      wscPskMinLen ≤ (cText psk).length ∧ (cText psk).length ≤ wscPskMaxLen := by
  rw [buildWifiWsc] at h
  split at h
  · rename_i ssidLen keyLen hssid hkey
    split at h
    · simp at h
    rename_i hbounds
    simp only [not_or, Nat.not_lt] at hbounds
    obtain ⟨-, hssidLen, -⟩ := boundedStrlen_spec hssid
    obtain ⟨-, hkeyLen, -⟩ := boundedStrlen_spec hkey
    rw [boundedStrlen_take hssid, boundedStrlen_take hkey] at h
    simp only [Option.bind_eq_bind, Option.bind_eq_some_iff] at h
    obtain ⟨a, ha, b, hb, c, hc, d, hd, e, he, f, hf, cred, hcred, hblob⟩ := h
    obtain rfl := wpsPutAttr_eq_some ha
    obtain rfl := wpsPutAttr_eq_some hb
    obtain rfl := wpsPutAttr_eq_some hc
    obtain rfl := wpsPutAttr_eq_some hd
    obtain rfl := wpsPutAttr_eq_some he
    obtain rfl := wpsPutAttr_eq_some hf
    obtain rfl := wpsPutAttr_eq_some hcred
    split at hblob
    · simp at hblob
    rw [hssidLen, hkeyLen]
    refine ⟨?_, hbounds.2.1, hbounds.2.2.1, hbounds.2.2.2⟩
    rw [← Option.some.inj hblob, credentialBlob, credentialOf]
    simp only [List.nil_append, List.append_assoc]
  · simp at h

theorem length_credentialOf (ssid key : Frame) : (credentialOf ssid key).length = 35 + ssid.length + key.length := by
  simp only [credentialOf, List.length_append, Attributes.length_put, List.length_cons, List.length_nil,
    List.length_replicate]
  omega

section Credential

variable {ssid key : Frame} (hssid : ssid.length ≤ wscSsidMaxLen) (hkey : key.length ≤ wscPskMaxLen)

include hssid hkey

theorem wscAttr_credential :
    wscAttrPayload (credentialBlob ssid key) wscAttrCredential = some (credentialOf ssid key) := by
  have hlen := length_credentialOf ssid key
  rw [wscSsidMaxLen] at hssid
  rw [wscPskMaxLen] at hkey
  have hversion : wscVersion = Attributes.put 0x104A [0x10] := by decide
  rw [wscAttrPayload, credentialBlob, hversion,
    Attributes.find_put_other (by decide) (by decide) (by decide),
    ← List.append_nil (Attributes.put wscAttrCredential _), Attributes.find_put_self (by decide) (by omega)]

/-- **The fields of a credential are found** in it. -/
theorem wscAttr_fields :
    wscAttrPayload (credentialOf ssid key) wscAttrSsid = some ssid ∧
      wscAttrPayload (credentialOf ssid key) wscAttrAuthType = some [0x00, 0x20] ∧
      wscAttrPayload (credentialOf ssid key) wscAttrEncrType = some [0x00, 0x08] ∧
      wscAttrPayload (credentialOf ssid key) wscAttrNetworkKey = some key := by
  rw [wscSsidMaxLen] at hssid
  rw [wscPskMaxLen] at hkey
  have hindex : ∀ wanted rest, wscAttrNetworkIndex ≠ wanted →
      Attributes.find wanted (Attributes.put wscAttrNetworkIndex [0x01] ++ rest) = Attributes.find wanted rest :=
    fun wanted rest => Attributes.find_put_other (by decide) (by decide)
  have hname : ∀ wanted rest, wscAttrSsid ≠ wanted →
      Attributes.find wanted (Attributes.put wscAttrSsid ssid ++ rest) = Attributes.find wanted rest :=
    fun wanted rest => Attributes.find_put_other (by decide) (by omega)
  have hauth : ∀ wanted rest, wscAttrAuthType ≠ wanted →
      Attributes.find wanted (Attributes.put wscAttrAuthType [0x00, 0x20] ++ rest) = Attributes.find wanted rest :=
    fun wanted rest => Attributes.find_put_other (by decide) (by decide)
  have hencr : ∀ wanted rest, wscAttrEncrType ≠ wanted →
      Attributes.find wanted (Attributes.put wscAttrEncrType [0x00, 0x08] ++ rest) = Attributes.find wanted rest :=
    fun wanted rest => Attributes.find_put_other (by decide) (by decide)
  simp only [wscAttrPayload, credentialOf]
  refine ⟨?_, ?_, ?_, ?_⟩
  · rw [hindex _ _ (by decide), Attributes.find_put_self (by decide) (by omega)]
  · rw [hindex _ _ (by decide), hname _ _ (by decide), Attributes.find_put_self (by decide) (by decide)]
  · rw [hindex _ _ (by decide), hname _ _ (by decide), hauth _ _ (by decide),
      Attributes.find_put_self (by decide) (by decide)]
  · rw [hindex _ _ (by decide), hname _ _ (by decide), hauth _ _ (by decide), hencr _ _ (by decide),
      Attributes.find_put_self (by decide) (by omega)]

/-- **What the decoder makes of a credential.** -/
theorem decodeWifiWscPayload_blob (hmin : wscPskMinLen ≤ key.length) :
    decodeWifiWscPayload (credentialBlob ssid key) urlBytesMax =
      if payloadIsDisplayText ssid && payloadIsDisplayText key then
        some (ascii "Wi-Fi: ssid=" ++ ssid ++ ascii " auth=WPA2-Personal encryption=AES key=" ++ key)
      else none := by
  obtain ⟨hname, hauth, hencr, hnetkey⟩ := wscAttr_fields hssid hkey
  rw [wscSsidMaxLen] at hssid
  rw [wscPskMaxLen] at hkey
  rw [wscPskMinLen] at hmin
  rw [decodeWifiWscPayload, wscAttr_credential (by rw [wscSsidMaxLen]; omega) (by rw [wscPskMaxLen]; omega)]
  simp only [hname, hauth, hencr, hnetkey, Option.getD_some]
  cases hdisplay : payloadIsDisplayText ssid with
  | false => simp
  | true =>
      cases hkeyDisplay : payloadIsDisplayText key with
      | false => simp [show key.length ≠ 0 by omega]
      | true =>
          have h1 : (ascii "Wi-Fi: ssid=").length = 12 := rfl
          have h2 : (ascii " auth=").length = 6 := rfl
          have h3 : (ascii "WPA2-Personal").length = 13 := rfl
          have h4 : (ascii " encryption=").length = 12 := rfl
          have h5 : (ascii "AES").length = 3 := rfl
          have h6 : (ascii " key=").length = 5 := rfl
          have hauthName : wscU16Name [0x00, 0x20] wscWpa2PskLsb (ascii "WPA2-Personal") = ascii "WPA2-Personal" := by
            decide
          have hencrName : wscU16Name [0x00, 0x08] wscAesLsb (ascii "AES") = ascii "AES" := by decide
          have hwords : ascii " auth=WPA2-Personal encryption=AES key=" =
              ascii " auth=" ++
              (ascii "WPA2-Personal" ++ (ascii " encryption=" ++ (ascii "AES" ++ ascii " key="))) := by
            decide
          have hcap : urlBytesMax = 256 := rfl
          have hkeyNe : key ≠ [] := by
            rintro rfl
            simp at hmin
          rw [hauthName, hencrName, if_neg (by decide), if_neg (by simp), hwords]
          simp only [Option.bind_eq_bind]
          rw [appendText_of_lt (by rw [List.length_nil]; omega), Option.bind_some,
            appendSpan_of_lt (by simp only [List.length_append, List.length_nil]; omega), Option.bind_some,
            appendText_of_lt (by simp only [List.length_append, List.length_nil]; omega), Option.bind_some,
            appendText_of_lt (by simp only [List.length_append, List.length_nil]; omega), Option.bind_some,
            appendText_of_lt (by simp only [List.length_append, List.length_nil]; omega), Option.bind_some,
            appendText_of_lt (by simp only [List.length_append, List.length_nil]; omega), Option.bind_some,
            appendLabelled_of_lt (by simp only [List.length_append, List.length_nil]; omega), if_neg hkeyNe,
            Bool.true_and, if_pos rfl]
          simp only [List.nil_append, List.append_assoc]

end Credential

/-- **A credential is read back** when both fields can be displayed, and only then. -/
theorem wifi_readsBack_iff {ssid key : Frame} (hkind : cfg.kind = .wifiWsc)
    (hshown : cfg.shown =
      ascii "Wi-Fi: ssid=" ++ ssid ++ ascii " auth=WPA2-Personal encryption=AES key=" ++ key)
    (hemitted : Emitted out tnfMime mimeWsc (credentialBlob ssid key)) (hssid : ssid.length ≤ wscSsidMaxLen)
    (hmin : wscPskMinLen ≤ key.length) (hkey : key.length ≤ wscPskMaxLen) :
    ReadsBack cfg out ↔ (payloadIsDisplayText ssid && payloadIsDisplayText key) = true := by
  have hmime : decodeMimePayload mimeWsc (credentialBlob ssid key) urlBytesMax =
      decodeWifiWscPayload (credentialBlob ssid key) urlBytesMax := by
    rw [decodeMimePayload, if_neg (by decide), if_pos rfl]
  have hdecoder : cfg.kind.decoder (credentialBlob ssid key) =
      decodeWifiWscPayload (credentialBlob ssid key) urlBytesMax := by rw [hkind]; rfl
  rw [readsBack_iff hemitted, decodedPayload_mime, hmime, hdecoder, and_self, hshown,
    decodeWifiWscPayload_blob hssid hkey hmin]
  split <;> simp_all

/-! ### Bluetooth addresses -/

/-- Octets in hex with colons between them. -/
def addressText : Frame → Frame
  | [] => []
  | [octet] => hexByte octet
  | octet :: rest => hexByte octet ++ NdefPrint.colon :: addressText rest

theorem hexNibble_digit (ch : Byte) {n : Byte} (h : hexNibble ch = some n) :
    ch ≠ 0 ∧ n.toNat < 16 ∧ u8At (ascii "0123456789ABCDEF") n.toNat = upper ch := by
  have hall : ∀ ch : Byte, (hexNibble ch).all fun n =>
      ch ≠ 0 ∧ n.toNat < 16 ∧ u8At (ascii "0123456789ABCDEF") n.toNat = upper ch := by decide
  have hdigit := hall ch
  rw [h] at hdigit
  simpa using hdigit

/-- A byte put together from two hex digits is printed as these digits. -/
theorem hexByte_of_digits {c d hi lo : Byte} (hc : hexNibble c = some hi) (hd : hexNibble d = some lo) :
    hexByte (hi <<< 4 ||| lo) = [upper c, upper d] := by
  obtain ⟨-, hhi, hupperC⟩ := hexNibble_digit c hc
  obtain ⟨-, hlo, hupperD⟩ := hexNibble_digit d hd
  have hall : ∀ a < 16, ∀ b < 16,
      ((BitVec.ofNat 8 a <<< 4 ||| BitVec.ofNat 8 b) >>> 4 : Byte) = BitVec.ofNat 8 a ∧
        ((BitVec.ofNat 8 a <<< 4 ||| BitVec.ofNat 8 b) &&& 0x0F : Byte) = BitVec.ofNat 8 b := by
    decide
  obtain ⟨hhigh, hlow⟩ := hall _ hhi _ hlo
  rw [BitVec.ofNat_toNat, BitVec.ofNat_toNat, BitVec.setWidth_eq, BitVec.setWidth_eq] at hhigh hlow
  rw [hexByte, List.map_cons, List.map_cons, List.map_nil, hhigh, hlow, hupperC, hupperD]

theorem exists_cons_of_u8At {s : Frame} (h : u8At s 0 ≠ 0) : ∃ rest, s = u8At s 0 :: rest := by
  cases s with
  | nil => exact absurd rfl h
  | cons ch rest => exact ⟨rest, rfl⟩

/-- **A parsed address prints as it was written**, in upper case. -/
theorem parseBtMacFrom_spec {left : Nat} {s mac : Frame} (h : parseBtMacFrom left s = some mac) :
    mac.length = left ∧ (s.take (3 * left - 1)).map upper = addressText mac := by
  induction left generalizing s mac with
  | zero =>
      rw [parseBtMacFrom] at h
      split at h
      · obtain rfl := Option.some.inj h
        exact ⟨rfl, rfl⟩
      · simp at h
  | succ left ih =>
      rw [parseBtMacFrom] at h
      split at h
      · rename_i hi lo hhi hlo
        obtain ⟨hc, -, -⟩ := hexNibble_digit _ hhi
        obtain ⟨hd, -, -⟩ := hexNibble_digit _ hlo
        obtain ⟨rest, hs⟩ := exists_cons_of_u8At hc
        generalize u8At s 0 = c at hhi hs
        subst hs
        rw [u8At_cons_succ] at hlo hd
        obtain ⟨tail, hrest⟩ := exists_cons_of_u8At hd
        generalize u8At rest 0 = d at hlo hrest
        subst hrest
        by_cases hcolon : left ≠ 0 ∧ u8At (c :: d :: tail) 2 ≠ colon
        · rw [if_pos hcolon] at h
          simp at h
        rw [if_neg hcolon] at h
        obtain ⟨macRest, hmac, rfl⟩ := Option.map_eq_some_iff.mp h
        obtain ⟨hlen, htext⟩ := ih hmac
        have hhex := hexByte_of_digits hhi hlo
        cases left with
        | zero =>
            obtain rfl := List.length_eq_zero_iff.mp hlen
            refine ⟨rfl, ?_⟩
            rw [addressText, hhex]
            rfl
        | succ left =>
            have htailColon : u8At tail 0 = WriterPayload.colon := by
              by_contra hne
              exact hcolon ⟨Nat.succ_ne_zero _, hne⟩
            obtain ⟨more, hmore⟩ := exists_cons_of_u8At (show u8At tail 0 ≠ 0 by rw [htailColon]; decide)
            rw [htailColon] at hmore
            subst hmore
            obtain ⟨octet, octets, rfl⟩ := List.exists_cons_of_length_eq_add_one hlen
            refine ⟨by rw [List.length_cons, hlen], ?_⟩
            rw [if_pos (Nat.succ_ne_zero _)] at htext
            rw [addressText, hhex, ← htext, show 3 * (left + 1 + 1) - 1 = (3 * (left + 1) - 1) + 3 by omega]
            · rfl
            · simp
      · simp at h

/-- **An address is printed as it was written.** -/
theorem decodeBluetoothOobPayload_mac {mac : Frame} (hlen : mac.length = btMacOctetCount) :
    decodeBluetoothOobPayload (btOobPayloadLen :: 0 :: mac.reverse) urlBytesMax =
      some (ascii "Bluetooth OOB: address=" ++ addressText mac) := by
  have hlabel : (ascii "Bluetooth OOB: address=").length = 23 := rfl
  have hcap : urlBytesMax = 256 := rfl
  have hspan : btOobAddrOffset + btOobAddrLen ≤ (btOobPayloadLen :: 0 :: mac.reverse).length := by
    rw [List.length_cons, List.length_cons, List.length_reverse, hlen]
    decide
  have hwhole : (List.range btOobAddrLen).flatMap (octetText (btOobPayloadLen :: 0 :: mac.reverse)) =
      addressText mac := by
    match mac, hlen with
    | [a, b, c, d, e, f], _ => rfl
  rw [decodeBluetoothOobPayload, if_neg]
  · rw [appendText_of_lt (by rw [hlabel, hcap]; decide), Option.bind_eq_bind, Option.bind_some, List.nil_append,
      appendOctets_of_lt hspan _ _ (by rw [hlabel, hcap]; decide), hwhole]
  · simp [hlen, btMacOctetCount, btOobMinPayloadLen, btOobPayloadLen]

/-- **An address is read back** always. -/
theorem bluetooth_readsBack {mac address : Frame} (hkind : cfg.kind = .btOob)
    (hshown : cfg.shown = ascii "Bluetooth OOB: address=" ++ address)
    (hemitted : Emitted out tnfMime mimeBtOob (btOobPayloadLen :: 0 :: mac.reverse))
    (hlen : mac.length = btMacOctetCount) (haddress : address = addressText mac) : ReadsBack cfg out := by
  have hmime : decodeMimePayload mimeBtOob (btOobPayloadLen :: 0 :: mac.reverse) urlBytesMax =
      decodeBluetoothOobPayload (btOobPayloadLen :: 0 :: mac.reverse) urlBytesMax := by
    rw [decodeMimePayload, if_neg (by decide), if_neg (by decide), if_pos rfl]
  have hdecoder : cfg.kind.decoder (btOobPayloadLen :: 0 :: mac.reverse) =
      decodeBluetoothOobPayload (btOobPayloadLen :: 0 :: mac.reverse) urlBytesMax := by rw [hkind]; rfl
  rw [readsBack_iff hemitted, decodedPayload_mime, hmime, hdecoder, and_self, hshown, haddress,
    decodeBluetoothOobPayload_mac hlen]

/-! ### Contacts -/

/-- No control character, and in particular no line end. -/
def Plain (text : Frame) : Prop := ∀ ch ∈ text, asciiFirstPrintable ≤ ch

theorem plain_of_check {s : Frame} (h : cstrHasControlChar s = false) : Plain (cText s) := by
  rw [cstrHasControlChar] at h
  split at h
  · simp at h
  · rename_i len hlen
    rw [boundedStrlen_take hlen] at h
    intro ch hmem
    have hch := (List.any_eq_false.mp h) ch hmem
    simpa using hch

theorem Plain.isLineEnd {text : Frame} (h : Plain text) {ch : Byte} (hmem : ch ∈ text) :
    isLineEnd ch = false := by
  have hall : ∀ ch : Byte, asciiFirstPrintable ≤ ch → NdefPrint.isLineEnd ch = false := by decide
  exact hall ch (h ch hmem)

/-- The six lines of a contact. -/
def vcardLines (name tel email : Frame) : List Frame :=
  [ascii "BEGIN:VCARD", ascii "VERSION:4.0", ascii "FN" ++ NdefPrint.colon :: name,
    ascii "TEL" ++ NdefPrint.colon :: tel, ascii "EMAIL" ++ NdefPrint.colon :: email, ascii "END:VCARD"]

theorem vcardText_lines (name tel email : Frame) :
    vcardText name tel email = crlfLines (vcardLines name tel email) := by
  simp only [vcardLines, crlfLines, List.append_assoc, List.cons_append]
  rfl

theorem length_vcardText (name tel email : Frame) :
    (vcardText name tel email).length = 56 + name.length + tel.length + email.length := by
  have h1 : (ascii "BEGIN:VCARD\r\nVERSION:4.0\r\nFN:").length = 29 := rfl
  have h2 : (ascii "\r\nTEL:").length = 6 := rfl
  have h3 : (ascii "\r\nEMAIL:").length = 8 := rfl
  have h4 : (ascii "\r\nEND:VCARD\r\n").length = 13 := rfl
  simp only [vcardText, List.length_append, h1, h2, h3, h4]
  omega

theorem display_vcardText (name tel email : Frame) : payloadIsDisplayText (vcardText name tel email) =
    (payloadIsDisplayText name && payloadIsDisplayText tel && payloadIsDisplayText email) := by
  have h1 : (ascii "BEGIN:VCARD\r\nVERSION:4.0\r\nFN:").all displayChar = true := by decide
  have h2 : (ascii "\r\nTEL:").all displayChar = true := by decide
  have h3 : (ascii "\r\nEMAIL:").all displayChar = true := by decide
  have h4 : (ascii "\r\nEND:VCARD\r\n").all displayChar = true := by decide
  simp only [payloadIsDisplayText, vcardText, List.all_append, h1, h2, h3, h4, Bool.true_and, Bool.and_true,
    Bool.and_assoc]

/-- No line of a contact holds a line end. -/
theorem vcardLines_plain {name tel email : Frame} (hname : Plain name) (htel : Plain tel) (hemail : Plain email) :
    ∀ line ∈ vcardLines name tel email, ∀ ch ∈ line, isLineEnd ch = false := by
  have hfield : ∀ {property text : Frame}, (∀ ch ∈ property, isLineEnd ch = false) → Plain text →
      ∀ ch ∈ property ++ NdefPrint.colon :: text, isLineEnd ch = false := by
    intro property text hproperty htext ch hmem
    rcases List.mem_append.mp hmem with h | h
    · exact hproperty ch h
    rcases List.mem_cons.mp h with rfl | h
    · decide
    · exact htext.isLineEnd h
  simp only [vcardLines, List.forall_mem_cons]
  exact ⟨by decide +kernel, by decide +kernel, hfield (by decide) hname, hfield (by decide) htel,
    hfield (by decide) hemail, by decide +kernel, by simp⟩

section Contact

variable {name tel email : Frame} (hname : Plain name) (htel : Plain tel) (hemail : Plain email)
  (hlen : (vcardText name tel email).length < srPayloadMax)

include hname htel hemail hlen

theorem vcardProperty_lines (property : Frame) :
    vcardProperty (vcardText name tel email) property =
      (vcardLines name tel email).findSome? (lineValue property) := by
  have hsize := length_vcardText name tel email
  rw [srPayloadMax] at hlen
  rw [vcardProperty, vcardText_lines]
  refine vcardPropertyFrom_lines ?_ ?_ ?_
  · rw [← vcardText_lines, hsize]
    simp only [vcardLines, List.length_cons, List.length_nil]
    omega
  · exact vcardLines_plain hname htel hemail
  · have h1 : (ascii "FN").length = 2 := rfl
    have h2 : (ascii "TEL").length = 3 := rfl
    have h3 : (ascii "EMAIL").length = 5 := rfl
    simp only [vcardLines, List.forall_mem_cons, List.length_append, List.length_cons, h1, h2, h3]
    exact ⟨by decide, by decide, by omega, by omega, by omega, by decide, by simp⟩

/-- **Each field of a contact is found** under its own property. -/
theorem vcard_fields :
    vcardProperty (vcardText name tel email) (ascii "FN") = some name ∧
      vcardProperty (vcardText name tel email) (ascii "TEL") = some tel ∧
      vcardProperty (vcardText name tel email) (ascii "EMAIL") = some email := by
  have hskip : ∀ (ch : Byte) {property line : Frame} {rest : List Frame}, property.head? = some ch →
      line.head? ≠ some ch →
      (line :: rest).findSome? (lineValue property) = rest.findSome? (lineValue property) := by
    intro ch property line rest hproperty hline
    rw [List.findSome?_cons, lineValue_other hproperty hline]
  have hfound : ∀ (property value : Frame) (rest : List Frame),
      ((property ++ NdefPrint.colon :: value) :: rest).findSome? (lineValue property) = some value := by
    intro property value rest
    rw [List.findSome?_cons, lineValue_own]
  refine ⟨?_, ?_, ?_⟩
  · rw [vcardProperty_lines hname htel hemail hlen, vcardLines, hskip 0x46 rfl (by decide),
      hskip 0x46 rfl (by decide), hfound]
  · have hfn : (ascii "FN" ++ NdefPrint.colon :: name).head? = some 0x46 := rfl
    rw [vcardProperty_lines hname htel hemail hlen, vcardLines, hskip 0x54 rfl (by decide),
      hskip 0x54 rfl (by decide), hskip 0x54 rfl (by rw [hfn]; decide), hfound]
  · have hfn : (ascii "FN" ++ NdefPrint.colon :: name).head? = some 0x46 := rfl
    have htl : (ascii "TEL" ++ NdefPrint.colon :: tel).head? = some 0x54 := rfl
    rw [vcardProperty_lines hname htel hemail hlen, vcardLines, hskip 0x45 rfl (by decide),
      hskip 0x45 rfl (by decide), hskip 0x45 rfl (by rw [hfn]; decide), hskip 0x45 rfl (by rw [htl]; decide),
      hfound]

/-- **What the decoder makes of a contact.** -/
theorem decodeVcardPayload_text :
    decodeVcardPayload (vcardText name tel email) urlBytesMax =
      if payloadIsDisplayText name && payloadIsDisplayText tel && payloadIsDisplayText email then
        some (ascii "Contact: name=" ++ name ++ (if tel = [] then [] else ascii " tel=" ++ tel) ++
          (if email = [] then [] else ascii " email=" ++ email))
      else none := by
  obtain ⟨hfn, htl, hml⟩ := vcard_fields hname htel hemail hlen
  have hsize := length_vcardText name tel email
  rw [srPayloadMax] at hlen
  rw [decodeVcardPayload, display_vcardText]
  cases hdisplay : payloadIsDisplayText name && payloadIsDisplayText tel && payloadIsDisplayText email with
  | false => rfl
  | true =>
      have h1 : (ascii "Contact: name=").length = 14 := rfl
      have h2 : (ascii " tel=").length = 5 := rfl
      have h3 : (ascii " email=").length = 7 := rfl
      have hcap : urlBytesMax = 256 := rfl
      have htelPart : (if tel = [] then [] else ascii " tel=" ++ tel).length ≤ 5 + tel.length := by
        split
        · exact Nat.zero_le _
        · rw [List.length_append, h2]
      rw [if_neg (by decide), hfn, htl, hml, if_pos rfl]
      simp only [Option.getD_some, Option.bind_eq_bind]
      rw [appendText_of_lt (by rw [List.length_nil]; omega), Option.bind_some,
        appendSpan_of_lt (by rw [List.length_append, List.length_nil]; omega), Option.bind_some,
        appendLabelled_of_lt (by simp only [List.length_append, List.length_nil]; omega), Option.bind_some,
        appendLabelled_of_lt (by
          rw [List.length_append, List.length_append, List.length_append, List.length_nil]
          omega), List.nil_append]

end Contact

/-- **A contact is read back** when its fields can be displayed, and only then. -/
theorem vcard_readsBack_iff {name tel email : Frame} (hkind : cfg.kind = .vcardMime)
    (hshown : cfg.shown = ascii "Contact: name=" ++ name ++ (if tel = [] then [] else ascii " tel=" ++ tel) ++
      (if email = [] then [] else ascii " email=" ++ email))
    (hemitted : Emitted out tnfMime mimeVcard (vcardText name tel email)) (hname : Plain name) (htel : Plain tel)
    (hemail : Plain email) (hlen : (vcardText name tel email).length < srPayloadMax) :
    ReadsBack cfg out ↔
      (payloadIsDisplayText name && payloadIsDisplayText tel && payloadIsDisplayText email) = true := by
  have hmime : decodeMimePayload mimeVcard (vcardText name tel email) urlBytesMax =
      decodeVcardPayload (vcardText name tel email) urlBytesMax := by
    rw [decodeMimePayload, if_pos rfl]
  have hdecoder : cfg.kind.decoder (vcardText name tel email) =
      decodeVcardPayload (vcardText name tel email) urlBytesMax := by rw [hkind]; rfl
  rw [readsBack_iff hemitted, decodedPayload_mime, hmime, hdecoder, and_self, hshown,
    decodeVcardPayload_text hname htel hemail hlen]
  split <;> simp_all

/-! ### All kinds -/

/-- **The writer's messages and the reader's decoders.** A message the writer emits for any kind but the raw
one is read back exactly when the configured fields hold only what the decoder for that kind passes. -/
theorem writer_reads_back_iff (cfg : Config) (outMax : Nat) (hraw : cfg.kind ≠ .rawNdef)
    (hwritten : writerPayloadBuildNdef cfg outMax ≠ []) :
    ReadsBack cfg (writerPayloadBuildNdef cfg outMax) ↔ cfg.Readable = true := by
  rw [writerPayloadBuildNdef] at hwritten ⊢
  split at hwritten
  · exact absurd rfl hwritten
  rename_i hmax
  rw [if_neg hmax]
  rw [buildNdefMessage] at hwritten ⊢
  split at hwritten
  swap
  · exact absurd rfl hwritten
  rename_i len1 len2 hlen1 hlen2
  have hsplit : splitFields cfg.str2.bytes len2 = some (beforeBar cfg.text2, behindBar cfg.text2) :=
    splitFields_eq hlen2
  have hzero1 : (0 : Byte) ∉ cfg.text1 := zero_notMem_cText _
  have hzero2 : (0 : Byte) ∉ cfg.text2 := zero_notMem_cText _
  have htext1 : cfg.str1.bytes.take len1 = cfg.text1 := boundedStrlen_take hlen1
  have htext2 : cfg.str2.bytes.take len2 = cfg.text2 := boundedStrlen_take hlen2
  rw [htext1, htext2] at hwritten
  simp only [htext1, htext2] at hwritten ⊢
  cases hkind : cfg.kind with
  | none | unknown => simp [hkind] at hwritten
  | rawNdef => exact absurd hkind hraw
  | urlHttps =>
      simp only [hkind] at hwritten ⊢
      obtain ⟨hemitted, hcode, hne, hlen⟩ := ndefEmitUri_spec hwritten
      rw [uri_readsBack_iff (fun _ => by rw [hkind]; rfl) (by rw [Config.shown, hkind]; rfl) hemitted hcode hne hlen]
      simp only [Config.Readable, hkind]
      rfl
  | uriRaw =>
      simp only [hkind] at hwritten ⊢
      obtain ⟨hemitted, hcode, hne, hlen⟩ := ndefEmitUri_spec hwritten
      rw [uri_readsBack_iff (fun _ => by rw [hkind]; rfl) (by rw [Config.shown, hkind]; rfl) hemitted hcode hne hlen]
      simp only [Config.Readable, hkind]
      rfl
  | smsUri =>
      simp only [hkind] at hwritten ⊢
      obtain ⟨hemitted, hne, hlen⟩ := emitFormatted_spec (zero_notMem_smsUri hzero1 hzero2) hwritten
      rw [uri_readsBack_iff (fun _ => by rw [hkind]; rfl) (by rw [Config.shown, hkind]; rfl) hemitted (by decide) hne
        hlen, uriText_smsUri]
      simp only [Config.Readable, hkind, Bool.and_eq_true]
  | mailtoUri =>
      simp only [hkind, hsplit] at hwritten ⊢
      obtain ⟨hemitted, hne, hlen⟩ := emitFormatted_spec (zero_notMem_mailtoUri hzero1
        (zero_notMem_beforeBar hzero2) (zero_notMem_behindBar hzero2)) hwritten
      rw [uri_readsBack_iff (fun _ => by rw [hkind]; rfl) (by rw [Config.shown, hkind]; rfl) hemitted (by decide) hne
        hlen, uriText_mailtoUri]
      simp only [Config.Readable, hkind, Bool.and_eq_true, and_assoc]
      rfl
  | geoUri =>
      simp only [hkind] at hwritten ⊢
      obtain ⟨hemitted, hne, hlen⟩ := emitFormatted_spec (zero_notMem_geoUri hzero1) hwritten
      rw [uri_readsBack_iff (fun _ => by rw [hkind]; rfl) (by rw [Config.shown, hkind]; rfl) hemitted (by decide) hne
        hlen, uriText_geoUri]
      simp only [Config.Readable, hkind]
  | plainText =>
      simp only [hkind] at hwritten ⊢
      obtain ⟨hemitted, hlen⟩ := ndefEmitText_spec hwritten
      simp only [Config.Readable, hkind, iff_true]
      exact text_readsBack hkind (by rw [Config.shown, hkind]; rfl) hemitted hzero1 hlen
  | vcardMime =>
      simp only [hkind, hsplit] at hwritten ⊢
      split at hwritten
      · exact absurd rfl hwritten
      rename_i hcontrol
      split at hwritten
      · exact absurd rfl hwritten
      rename_i hfits
      rw [if_neg hcontrol, if_neg hfits]
      simp only [not_or, Bool.not_eq_true] at hcontrol
      have hname := plain_of_check hcontrol.1
      have htel := plain_of_check hcontrol.2.1
      have hemail := plain_of_check hcontrol.2.2
      rw [cText_append (zero_notMem_beforeBar hzero2)] at htel
      rw [cText_append (zero_notMem_behindBar hzero2)] at hemail
      obtain ⟨hemitted, hlen⟩ := ndefEmitMimeSr_spec hwritten
      rw [vcard_readsBack_iff hkind (by rw [Config.shown, hkind]; rfl) hemitted hname htel hemail hlen]
      simp only [Config.Readable, hkind]
      rfl
  | wifiWsc =>
      simp only [hkind] at hwritten ⊢
      cases hblob : buildWifiWsc wifiWscBlobMax cfg.str1.bytes cfg.str2.bytes with
      | none => simp [hblob] at hwritten
      | some blob =>
          simp only [hblob] at hwritten ⊢
          obtain ⟨rfl, hssid, hmin, hkey⟩ := buildWifiWsc_spec hblob
          obtain ⟨hemitted, -⟩ := ndefEmitMimeSr_spec hwritten
          rw [wifi_readsBack_iff hkind (by rw [Config.shown, hkind]; rfl) hemitted hssid hmin hkey]
          simp only [Config.Readable, hkind]
          rfl
  | btOob =>
      simp only [hkind] at hwritten ⊢
      split at hwritten
      · exact absurd rfl hwritten
      rename_i hlen
      rw [if_neg hlen]
      cases hmac : parseBtMac cfg.str1.bytes with
      | none => simp [hmac] at hwritten
      | some mac =>
          simp only [hmac] at hwritten ⊢
          obtain ⟨hemitted, -⟩ := ndefEmitMimeSr_spec hwritten
          obtain ⟨hoctets, haddress⟩ := parseBtMacFrom_spec hmac
          have hwhole : cfg.str1.bytes.take (3 * btMacOctetCount - 1) = cfg.text1 := by
            rw [← htext1, not_not.mp hlen]
            rfl
          rw [hwhole] at haddress
          simp only [Config.Readable, hkind, iff_true]
          exact bluetooth_readsBack hkind (by rw [Config.shown, hkind]) hemitted hoctets haddress

/-- A short message whose body is three words. -/
def smsOnMyWay : Config where
  kind := .smsUri
  str1 := .ofText _ (ascii "+15551212") (by decide)
  str2 := .ofText _ (ascii "on my way") (by decide)
  rawNdef := []
  uriId := 0

/-- The blanks of the body are written as they are, and the URI decoder passes no blank. -/
theorem smsOnMyWay_not_read_back :
    writerPayloadBuildNdef smsOnMyWay 880 ≠ [] ∧ ¬ ReadsBack smsOnMyWay (writerPayloadBuildNdef smsOnMyWay 880) := by
  refine ⟨by decide, ?_⟩
  rintro ⟨record, hrecord, -, -, -, hdecoded, -⟩
  have hrejected : smsOnMyWay.kind.decoder
      ((recordNext (writerPayloadBuildNdef smsOnMyWay 880) 0).record.payload
        (writerPayloadBuildNdef smsOnMyWay 880)) = none := by decide
  rw [hrecord] at hrejected
  rw [hrejected] at hdecoded
  exact absurd hdecoded (by simp)

def placeInTheBay : Config where
  kind := .geoUri
  str1 := .ofText _ (ascii "37.8,-122.4") (by decide)
  str2 := .ofText _ [] (Nat.zero_le str2Max)
  rawNdef := []
  uriId := 0

theorem writer_reads_back_iff_place :
    ReadsBack placeInTheBay (writerPayloadBuildNdef placeInTheBay 880) ↔ placeInTheBay.Readable = true :=
  writer_reads_back_iff placeInTheBay 880 (by decide) (by decide)

end NeroReader.WriterPayload
