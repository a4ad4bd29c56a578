import NeroReader.WriterCli

/-!
What the serial commands do to the payload, read as texts. A configuration stands for a `Payload`, its message
depends on nothing else, and every command but `ndef-hex` is one `Entry`: an identifier, a first and perhaps a second
field, and a kind. The commands on arrays refine the commands on payloads (`handleLine_holds`).
-/

namespace NeroReader.WriterPayload

open Ndef

/-! ### Texts that agree -/

/-- Two buffers that hold the same C string. -/
def SameText (s t : Frame) : Prop :=
  ∃ text rest rest', (0 : Byte) ∉ text ∧ s = text ++ 0 :: rest ∧ t = text ++ 0 :: rest'

theorem boundedStrlen_none {text rest : Frame} {cap : Nat} (hcap : cap ≤ text.length) (hzero : (0 : Byte) ∉ text) :
    boundedStrlen (text ++ 0 :: rest) cap = none := by
  induction cap generalizing text with
  | zero => cases text <;> rfl
  | succ cap ih =>
      cases text with
      | nil => simp at hcap
      | cons ch text =>
          obtain ⟨hch, htext⟩ := List.ne_and_not_mem_of_not_mem_cons hzero
          rw [List.length_cons] at hcap
          rw [List.cons_append, boundedStrlen, if_neg hch.symm, ih (by omega) htext, Option.map_none]

namespace SameText

variable {s t : Frame}

theorem boundedStrlen_eq (h : SameText s t) (cap : Nat) : boundedStrlen s cap = boundedStrlen t cap := by
  obtain ⟨text, rest, rest', hzero, rfl, rfl⟩ := h
  by_cases hcap : text.length < cap
  · rw [boundedStrlen_text hzero hcap, boundedStrlen_text hzero hcap]
  · rw [boundedStrlen_none (Nat.not_lt.mp hcap) hzero, boundedStrlen_none (Nat.not_lt.mp hcap) hzero]

theorem take_eq (h : SameText s t) {cap len : Nat} (hlen : boundedStrlen t cap = some len) :
    s.take len = t.take len := by
  have hs := (h.boundedStrlen_eq cap).trans hlen
  obtain ⟨text, rest, rest', hzero, rfl, rfl⟩ := h
  rw [boundedStrlen_take hs, boundedStrlen_take hlen, cText_append hzero, cText_append hzero]

theorem ndefEmitUri_eq (h : SameText s t) (cap : Nat) (uriId : Byte) :
    ndefEmitUri cap uriId s = ndefEmitUri cap uriId t := by
  rw [ndefEmitUri, ndefEmitUri, h.boundedStrlen_eq]
  cases hlen : boundedStrlen t (rtdUriPayloadMax + 1) with
  | none => rfl
  | some len =>
      dsimp only
      rw [h.take_eq hlen]

theorem ndefEmitText_eq (h : SameText s t) (cap : Nat) : ndefEmitText cap s = ndefEmitText cap t := by
  rw [ndefEmitText, ndefEmitText, h.boundedStrlen_eq]
  cases hlen : boundedStrlen t (rtdTextPayloadMax + 1) with
  | none => rfl
  | some len =>
      dsimp only
      rw [h.take_eq hlen]

theorem cstrHasControlChar_eq (h : SameText s t) : cstrHasControlChar s = cstrHasControlChar t := by
  rw [cstrHasControlChar, cstrHasControlChar, h.boundedStrlen_eq]
  cases hlen : boundedStrlen t str1Max with
  | none => rfl
  | some len =>
      dsimp only
      rw [h.take_eq hlen]

theorem buildWifiWsc_eq {key key' : Frame} (h : SameText s t) (hkey : SameText key key') (cap : Nat) :
    buildWifiWsc cap s key = buildWifiWsc cap t key' := by
  rw [buildWifiWsc, buildWifiWsc, h.boundedStrlen_eq, hkey.boundedStrlen_eq]
  cases hlen : boundedStrlen t (wscSsidMaxLen + 1) with
  | none => rfl
  | some len =>
      cases hkeyLen : boundedStrlen key' (wscPskMaxLen + 1) with
      | none => rfl
      | some keyLen =>
          dsimp only
          rw [h.take_eq hlen, hkey.take_eq hkeyLen]

theorem splitFields_eq {len : Nat} (h : SameText s t) (hlen : boundedStrlen t str2Max = some len) :
    splitFields s len = splitFields t len := by
  have hs := (h.boundedStrlen_eq str2Max).trans hlen
  rw [WriterPayload.splitFields_eq hs, WriterPayload.splitFields_eq hlen]
  obtain ⟨text, rest, rest', hzero, rfl, rfl⟩ := h
  rw [cText_append hzero, cText_append hzero]

theorem u8At_eq (h : SameText s t) : u8At s 0 = u8At t 0 := by
  obtain ⟨text, rest, rest', -, rfl, rfl⟩ := h
  cases text <;> simp [u8At]

/-- Behind a character of the text the strings still agree. -/
theorem tail (h : SameText s t) (hne : u8At t 0 ≠ 0) : SameText s.tail t.tail := by
  obtain ⟨text, rest, rest', hzero, rfl, rfl⟩ := h
  cases text with
  | nil => simp [u8At] at hne
  | cons ch text => exact ⟨text, rest, rest', (List.ne_and_not_mem_of_not_mem_cons hzero).2, rfl, rfl⟩

theorem u8At_tail (s : Frame) (off : Nat) : u8At s.tail off = u8At s (off + 1) := by
  cases s <;> simp [u8At]

theorem hexNibble_zero : hexNibble 0 = none := by decide

theorem parseBtMacFrom_eq {left : Nat} (h : SameText s t) : parseBtMacFrom left s = parseBtMacFrom left t := by
  induction left generalizing s t with
  | zero => rw [parseBtMacFrom, parseBtMacFrom, h.u8At_eq]
  | succ left ih =>
      rw [parseBtMacFrom, parseBtMacFrom, h.u8At_eq]
      cases hhi : hexNibble (u8At t 0) with
      | none => rfl
      | some hi =>
          have hfirst : u8At t 0 ≠ 0 := by
            intro hzero
            rw [hzero, hexNibble_zero] at hhi
            exact absurd hhi (by simp)
          have hsecond := (h.tail hfirst).u8At_eq
          rw [u8At_tail, u8At_tail, Nat.zero_add] at hsecond
          rw [hsecond]
          cases hlo : hexNibble (u8At t 1) with
          | none => rfl
          | some lo =>
              have hnext : u8At t.tail 0 ≠ 0 := by
                intro hzero
                rw [u8At_tail, Nat.zero_add] at hzero
                rw [hzero, hexNibble_zero] at hlo
                exact absurd hlo (by simp)
              have hrest := (h.tail hfirst).tail hnext
              have hthird := hrest.u8At_eq
              rw [u8At_tail, u8At_tail, u8At_tail, u8At_tail] at hthird
              have hdrop : ∀ l : Frame, l.drop 2 = l.tail.tail := by
                intro l
                rw [← List.drop_one, ← List.drop_one, List.drop_drop]
              have hdrop' : ∀ l : Frame, l.drop 3 = l.tail.tail.tail := by
                intro l
                rw [← hdrop, ← List.drop_one, List.drop_drop]
              dsimp only
              rw [hthird]
              by_cases hleft : left = 0
              · rw [if_neg (not_not.mpr hleft), hdrop, hdrop, ih hrest]
              · rw [if_pos hleft, hdrop', hdrop']
                by_cases hcolon : u8At t 2 = colon
                · have hmore : u8At t.tail.tail 0 ≠ 0 := by
                    rw [u8At_tail, u8At_tail, hcolon]
                    decide
                  rw [ih (hrest.tail hmore)]
                · rw [if_pos ⟨hleft, hcolon⟩, if_pos ⟨hleft, hcolon⟩]

end SameText

/-! ### Payloads -/

/-- What a configuration says, its arrays read as texts. -/
structure Payload where
  kind : Kind
  first : Frame
  second : Frame
  rawNdef : Frame
  uriId : Byte
  deriving DecidableEq

/-- The configuration stands for the payload. -/
structure Config.Holds (cfg : Config) (p : Payload) : Prop where
  kind_eq : cfg.kind = p.kind
  str1 : cfg.str1.Holds p.first
  str2 : cfg.str2.Holds p.second
  rawNdef_eq : cfg.rawNdef = p.rawNdef
  uriId_eq : cfg.uriId = p.uriId

/-- A configuration with the payload's texts, as far as they fit. -/
def Payload.config (p : Payload) : Config where
  kind := p.kind
  str1 := .ofText _ (p.first.take str1Max) (by simp)
  str2 := .ofText _ (p.second.take str2Max) (by simp)
  rawNdef := p.rawNdef
  uriId := p.uriId

/-- The message of a payload: empty when a text does not fit or the encoder refuses. -/
def Payload.message (p : Payload) : Frame := p.config.message

theorem CharArray.holds_ofText {size : Nat} {text : Frame} (hzero : (0 : Byte) ∉ text) (hlen : text.length < size) :
    (CharArray.ofText size (text.take size) (List.length_take_le size text)).Holds text := by
  refine ⟨hzero, List.replicate (size - text.length - 1) 0, ?_⟩
  dsimp only [CharArray.ofText]
  rw [List.take_of_length_le (by omega), ← List.replicate_succ]
  congr 2
  omega

theorem CharArray.Holds.sameText {size : Nat} {s t : CharArray size} {text : Frame} (hs : s.Holds text)
    (ht : t.Holds text) : SameText s.bytes t.bytes := by
  obtain ⟨rest, hrest⟩ := hs.bytes_eq
  obtain ⟨rest', hrest'⟩ := ht.bytes_eq
  exact ⟨text, rest, rest', hs.zero_notMem, hrest, hrest'⟩

theorem buildNdefMessage_eq {cfg cfg' : Config} {p : Payload} (h : cfg.Holds p) (h' : cfg'.Holds p) (cap : Nat) :
    buildNdefMessage cfg cap = buildNdefMessage cfg' cap := by
  have h1 := h.str1.sameText h'.str1
  have h2 := h.str2.sameText h'.str2
  have hlen1 := h'.str1.boundedStrlen_eq
  have hlen2 := h'.str2.boundedStrlen_eq
  rw [buildNdefMessage, buildNdefMessage, h.str1.boundedStrlen_eq, h.str2.boundedStrlen_eq, hlen1, hlen2,
    h.kind_eq, h'.kind_eq, h.rawNdef_eq, h'.rawNdef_eq, h.uriId_eq, h'.uriId_eq]
  dsimp only
  rw [h1.take_eq hlen1, h2.take_eq hlen2, h1.ndefEmitUri_eq, h1.ndefEmitUri_eq, h1.ndefEmitText_eq,
    h1.cstrHasControlChar_eq, h1.buildWifiWsc_eq h2, h2.splitFields_eq hlen2, parseBtMac, parseBtMac,
    h1.parseBtMacFrom_eq]

theorem Payload.config_holds {p : Payload} (h1 : (0 : Byte) ∉ p.first) (h2 : (0 : Byte) ∉ p.second)
    (hlen1 : p.first.length < str1Max) (hlen2 : p.second.length < str2Max) : p.config.Holds p where
  kind_eq := rfl
  str1 := CharArray.holds_ofText h1 hlen1
  str2 := CharArray.holds_ofText h2 hlen2
  rawNdef_eq := rfl
  uriId_eq := rfl

/-- The message of a configuration is that of the payload it stands for. -/
theorem Config.Holds.message_eq {cfg : Config} {p : Payload} (h : cfg.Holds p) : cfg.message = p.message := by
  apply buildNdefMessage_eq h
  exact Payload.config_holds h.str1.zero_notMem h.str2.zero_notMem h.str1.length_lt h.str2.length_lt

/-! ### Entries -/

/-- What a command enters: the identifier of the URI, the field copied into the first array, unless the line is turned
down before, the field copied into the second, which is emptied otherwise, and whether that may not be blank. -/
structure Entry where
  kind : Kind
  uriId : Byte := 0
  first : Option Frame
  second : Option Frame := none
  needed : Bool := false
  https : Bool := false

def Config.enter (cfg : Config) (e : Entry) : Config × Bool :=
  let cfg := { cfg with uriId := e.uriId }
  match e.first with
  | none => (cfg, false)
  | some field =>
      let first := cfg.str1.copyField (some field)
      let str1 := if e.https then first.1.stripHttpsPrefix else first.1
      if first.2 then
        match e.second with
        | none => ({ cfg with str1 := str1, str2 := cfg.str2.put 0 [0], kind := e.kind }, true)
        | some field =>
            let second := cfg.str2.copyField (some field)
            if second.2 || !e.needed then ({ cfg with str1 := str1, str2 := second.1, kind := e.kind }, true)
            else ({ cfg with str1 := str1, str2 := second.1 }, false)
      else ({ cfg with str1 := first.1 }, false)

/-- The URI formatted around a field, when there is a field and the buffer holds it. -/
def formatted (pfx rest : Frame) : Option Frame :=
  if rest = [] then none else if str1Max ≤ (pfx ++ rest).length then none else some (pfx ++ rest)

def mapsUri (destination : Bool) : Frame := if destination then mapsDirUri else mapsSearchUri

def Command.entry (rest : Frame) : Command → Option Entry
  | .url => some { kind := .urlHttps, uriId := uriPrefixHttps, first := some rest, https := true }
  | .text => some { kind := .plainText, first := some rest }
  | .phone => some { kind := .uriRaw, first := formatted (ascii "tel:") rest }
  | .sms => some { kind := .smsUri, first := some (splitPipe rest).1, second := some ((splitPipe rest).2.1.getD []) }
  | .mailto =>
      some
        { kind := .mailtoUri
          first := some (splitPipe rest).1
          second := some (joinFields (splitPipe rest).2.1 (splitPipe rest).2.2) }
  | .geo => some { kind := .geoUri, first := some rest }
  | .vcard =>
      some
        { kind := .vcardMime
          first := some (splitPipe rest).1
          second := some (joinFields (splitPipe rest).2.1 (splitPipe rest).2.2)
          needed := true }
  | .wifi =>
      some { kind := .wifiWsc, first := some (splitPipe rest).1, second := (splitPipe rest).2.1, needed := true }
  | .bt => some { kind := .btOob, first := some rest }
  | .search => some { kind := .uriRaw, first := formatted searchUri rest }
  | .address destination => some { kind := .uriRaw, first := formatted (mapsUri destination) rest }
  | .uri => some { kind := .uriRaw, first := some rest }
  | .ndefHex => none

theorem copyFormatted_enter (cfg : Config) (pfx rest : Frame) :
    cfg.copyFormatted pfx rest = cfg.enter { kind := .uriRaw, first := formatted pfx rest } := by
  rw [Config.copyFormatted, Config.enter, formatted, snprintfBuf]
  by_cases hrest : rest = []
  · rw [if_pos hrest, if_pos hrest]
    rfl
  · rw [if_neg hrest, if_neg hrest]
    by_cases hfits : str1Max ≤ (pfx ++ rest).length
    · rw [if_pos hfits, if_pos hfits]
      rfl
    · rw [if_neg hfits, if_neg hfits]
      rfl

/-- **Every command but one is its entry.** -/
theorem Command.apply_entry {c : Command} {rest : Frame} {e : Entry} (he : c.entry rest = some e) (cfg : Config) :
    c.apply cfg rest = cfg.enter e := by
  cases c with
  | phone =>
      cases he
      exact copyFormatted_enter cfg _ rest
  | search =>
      cases he
      exact copyFormatted_enter cfg _ rest
  | address destination =>
      cases he
      exact copyFormatted_enter cfg _ rest
  | ndefHex => cases he
  | mailto =>
      cases he
      simp [Command.apply, applyMailto, Config.enter]
  | sms =>
      cases he
      simp [Command.apply, applySms, Config.enter]
  | vcard =>
      cases he
      simp [Command.apply, applyVcard, Config.enter]
  | wifi =>
      cases he
      rw [Command.apply, applyWifi, Config.enter]
      cases hsecond : (splitPipe rest).2.1 with
      | none => simp [CharArray.copyField, str2Max]
      | some field => simp
  | url | text | geo | bt | uri =>
      cases he
      rfl

/-! ### Commands on payloads -/

def withoutHttps (s : Frame) : Frame := if startsCi s httpsPrefix then s.drop httpsPrefix.length else s

def Payload.enter (p : Payload) (e : Entry) : Payload × Bool :=
  match e.first with
  | none => ({ p with uriId := e.uriId }, false)
  | some field =>
      let kept := CharArray.stored str1Max field
      let first := if e.https then withoutHttps kept else kept
      if kept = [] then ({ p with uriId := e.uriId, first := [] }, false)
      else
        match e.second with
        | none => (⟨e.kind, first, [], p.rawNdef, e.uriId⟩, true)
        | some field =>
            let second := CharArray.stored str2Max field
            if second = [] ∧ e.needed = true then ({ p with uriId := e.uriId, first := first, second := [] }, false)
            else (⟨e.kind, first, second, p.rawNdef, e.uriId⟩, true)

def Payload.apply (p : Payload) (rest : Frame) (c : Command) : Payload × Bool :=
  match c.entry rest with
  | some e => p.enter e
  | none =>
      match parseHexBytes rest ndefMaxBytes with
      | none => (p, false)
      | some raw => (⟨.rawNdef, [], [], raw, p.uriId⟩, true)

/-- The command and the text of a line, when it has one. -/
def order (signed : Bool) (line : Frame) : Option (Command × Frame) :=
  match commandLine signed line with
  | none => none
  | some (cmd, rest) => (command cmd).map fun c => (c, rest)

def Payload.handle (p : Payload) (rest : Frame) (c : Command) : Payload × Bool :=
  let applied := p.apply rest c
  if applied.2 then
    let q := if applied.1.kind ≠ .rawNdef then { applied.1 with rawNdef := [] } else applied.1
    (q, decide (q.message.length ≠ 0))
  else applied

/-- `handle_line` on payloads. -/
def Payload.handleLine (signed : Bool) (p : Payload) (line : Frame) : Payload × Bool :=
  match order signed line with
  | none => (p, false)
  | some (c, rest) => p.handle rest c

/-! ### The arrays refine the texts -/

/-- A text the copies take whole. -/
structure IsText (s : Frame) : Prop where
  zero_notMem : (0 : Byte) ∉ s
  length_lt : s.length < lineCap

namespace IsText

variable {s t : Frame}

theorem sublist (h : IsText s) (hsub : t.Sublist s) : IsText t :=
  ⟨fun hmem => h.zero_notMem (hsub.mem hmem), lt_of_le_of_lt hsub.length_le h.length_lt⟩

theorem beforeBar (h : IsText s) : IsText (beforeBar s) := h.sublist (List.takeWhile_sublist _)

theorem behindBar (h : IsText s) : IsText (behindBar s) :=
  h.sublist ((List.tail_sublist _).trans (List.dropWhile_sublist _))

theorem nil : IsText [] := ⟨by simp, by decide⟩

end IsText

theorem startsCi_length {s pfx : Frame} (h : startsCi s pfx = true) : pfx.length ≤ s.length := by
  induction pfx generalizing s with
  | nil => exact Nat.zero_le _
  | cons b pfx ih =>
      cases s with
      | nil => cases h
      | cons a s =>
          rw [startsCi] at h
          split at h
          · cases h
          · exact Nat.succ_le_succ (ih h)

theorem CharArray.Holds.stripHttpsPrefix {s : CharArray str1Max} {text : Frame} (h : s.Holds text) :
    s.stripHttpsPrefix.Holds (withoutHttps text) := by
  rw [CharArray.stripHttpsPrefix, withoutHttps, h.cText_eq]
  by_cases hstarts : startsCi text httpsPrefix = true
  · rw [if_pos hstarts, if_pos hstarts, h.boundedStrlen_eq]
    dsimp only
    rw [if_pos (startsCi_length hstarts)]
    exact h.move_front (startsCi_length hstarts)
  · rw [if_neg hstarts, if_neg hstarts]
    exact h

/-- The fields of an entry are texts. -/
structure Entry.IsText (e : Entry) : Prop where
  first : ∀ field ∈ e.first, WriterPayload.IsText field
  second : ∀ field ∈ e.second, WriterPayload.IsText field

theorem Config.Holds.enter {cfg : Config} {p : Payload} {e : Entry} (h : cfg.Holds p) (he : e.IsText) :
    (cfg.enter e).1.Holds (p.enter e).1 ∧ (cfg.enter e).2 = (p.enter e).2 := by
  rw [Config.enter, Payload.enter]
  cases hfirst : e.first with
  | none => exact ⟨⟨h.kind_eq, h.str1, h.str2, h.rawNdef_eq, rfl⟩, rfl⟩
  | some field =>
      have hfield := he.first field hfirst
      obtain ⟨hstr1, hok⟩ := CharArray.copyField_holds cfg.str1 (by decide) hfield.zero_notMem hfield.length_lt
      have htidy : (if e.https then (cfg.str1.copyField (some field)).1.stripHttpsPrefix
          else (cfg.str1.copyField (some field)).1).Holds
          (if e.https then withoutHttps (CharArray.stored str1Max field) else CharArray.stored str1Max field) := by
        cases e.https with
        | true => exact hstr1.stripHttpsPrefix
        | false => exact hstr1
      dsimp only
      by_cases hkept : CharArray.stored str1Max field = []
      · rw [if_pos hkept, if_neg (by rw [hok]; exact not_not.mpr hkept)]
        rw [hkept] at hstr1
        exact ⟨⟨h.kind_eq, hstr1, h.str2, h.rawNdef_eq, rfl⟩, rfl⟩
      · rw [if_neg hkept, if_pos (hok.mpr hkept)]
        cases hsecond : e.second with
        | none => exact ⟨⟨rfl, htidy, CharArray.holds_empty _ (by decide), h.rawNdef_eq, rfl⟩, rfl⟩
        | some field2 =>
            have hfield2 := he.second field2 hsecond
            obtain ⟨hstr2, hok2⟩ :=
              CharArray.copyField_holds cfg.str2 (by decide) hfield2.zero_notMem hfield2.length_lt
            dsimp only
            by_cases hneeded : CharArray.stored str2Max field2 = [] ∧ e.needed = true
            · rw [if_pos hneeded, if_neg]
              · rw [hneeded.1] at hstr2
                exact ⟨⟨h.kind_eq, htidy, hstr2, h.rawNdef_eq, rfl⟩, rfl⟩
              · rw [Bool.or_eq_true, hok2, hneeded.2]
                simpa using hneeded.1
            · rw [if_neg hneeded, if_pos]
              · exact ⟨⟨rfl, htidy, hstr2, h.rawNdef_eq, rfl⟩, rfl⟩
              · rw [Bool.or_eq_true, hok2]
                by_cases hempty : CharArray.stored str2Max field2 = []
                · exact Or.inr (by simpa [hempty] using hneeded)
                · exact Or.inl hempty

theorem splitPipe_eq (rest : Frame) :
    (splitPipe rest).1 = beforeBar rest ∧
      (splitPipe rest).2.1 = (if bar ∈ rest then some (beforeBar (behindBar rest)) else none) ∧
      (splitPipe rest).2.2 = (if bar ∈ behindBar rest then some (behindBar (behindBar rest)) else none) := by
  rw [splitPipe]
  by_cases hbar : bar ∈ rest
  · rw [if_pos hbar, if_pos hbar]
    dsimp only
    by_cases hsecond : bar ∈ behindBar rest
    · rw [if_pos hsecond, if_pos hsecond]
      exact ⟨rfl, rfl, rfl⟩
    · rw [if_neg hsecond, if_neg hsecond, (no_bar hsecond).1]
      exact ⟨rfl, rfl, rfl⟩
  · rw [if_neg hbar, if_neg hbar, (no_bar hbar).1, (no_bar hbar).2, if_neg (by simp)]
    exact ⟨rfl, rfl, rfl⟩

/-- The fields behind the first bar are put together again as they stood, when they fit. -/
theorem joinFields_eq (rest : Frame) :
    joinFields (splitPipe rest).2.1 (splitPipe rest).2.2 =
      if str2Max ≤ (behindBar rest).length then [] else behindBar rest := by
  obtain ⟨-, hsecond, hthird⟩ := splitPipe_eq rest
  rw [hsecond, hthird]
  by_cases hbar : bar ∈ rest
  · rw [if_pos hbar]
    by_cases hmore : bar ∈ behindBar rest
    · rw [if_pos hmore]
      dsimp only [joinFields, snprintfBuf]
      rw [← split_at_bar hmore]
      split <;> rfl
    · rw [if_neg hmore, (no_bar hmore).1]
      dsimp only [joinFields, snprintfBuf]
      split <;> rfl
  · rw [if_neg hbar, (no_bar hbar).2]
    simp [joinFields]

theorem isText_formatted {pfx rest field : Frame} (hpfx : (0 : Byte) ∉ pfx) (h : IsText rest)
    (hfield : field ∈ formatted pfx rest) : IsText field := by
  rw [formatted] at hfield
  split at hfield
  · cases hfield
  split at hfield
  · cases hfield
  rename_i hfits
  cases hfield
  refine ⟨?_, ?_⟩
  · rw [List.mem_append]
    exact fun hmem => hmem.elim hpfx h.zero_notMem
  · rw [str1Max] at hfits
    rw [lineCap]
    omega

theorem isText_joinFields {rest : Frame} (h : IsText rest) :
    IsText (joinFields (splitPipe rest).2.1 (splitPipe rest).2.2) := by
  rw [joinFields_eq]
  split
  · exact .nil
  · exact h.behindBar

theorem Command.entry_isText {c : Command} {rest : Frame} {e : Entry} (h : IsText rest) (he : c.entry rest = some e) :
    e.IsText := by
  obtain ⟨hfirst, hsecond, -⟩ := splitPipe_eq rest
  have hbefore := h.beforeBar
  rw [← hfirst] at hbefore
  have hbehind : ∀ field ∈ (splitPipe rest).2.1, IsText field := by
    intro field hfield
    rw [hsecond] at hfield
    split at hfield
    · cases hfield
      exact h.behindBar.beforeBar
    · cases hfield
  cases c with
  | url | text | geo | bt | uri =>
      cases he
      refine ⟨?_, by rintro _ ⟨⟩⟩
      rintro _ ⟨⟩
      exact h
  | phone | search =>
      cases he
      exact ⟨fun _ hfield => isText_formatted (by decide) h hfield, by rintro _ ⟨⟩⟩
  | address destination =>
      cases he
      exact ⟨fun _ hfield => isText_formatted (by cases destination <;> decide) h hfield, by rintro _ ⟨⟩⟩
  | sms =>
      cases he
      constructor
      · rintro _ ⟨⟩
        exact hbefore
      · rintro _ ⟨⟩
        cases hgiven : (splitPipe rest).2.1 with
        | none => exact .nil
        | some field => exact hbehind field hgiven
  | mailto | vcard =>
      cases he
      constructor
      · rintro _ ⟨⟩
        exact hbefore
      · rintro _ ⟨⟩
        exact isText_joinFields h
  | wifi =>
      cases he
      refine ⟨?_, hbehind⟩
      rintro _ ⟨⟩
      exact hbefore
  | ndefHex => cases he

theorem Config.Holds.apply {cfg : Config} {p : Payload} {rest : Frame} (h : cfg.Holds p) (hrest : IsText rest)
    (c : Command) : (c.apply cfg rest).1.Holds (p.apply rest c).1 ∧ (c.apply cfg rest).2 = (p.apply rest c).2 := by
  rw [Payload.apply]
  cases he : c.entry rest with
  | some e =>
      rw [c.apply_entry he]
      exact h.enter (c.entry_isText hrest he)
  | none =>
      cases c <;> cases he
      dsimp only [Command.apply, applyNdefHex]
      cases parseHexBytes rest ndefMaxBytes with
      | none => exact ⟨h, rfl⟩
      | some raw =>
          exact ⟨⟨rfl, CharArray.holds_empty _ (by decide), CharArray.holds_empty _ (by decide), rfl, h.uriId_eq⟩, rfl⟩

/-! ### The text behind the command word -/

theorem IsText.trimText {s : Frame} (h : IsText s) : IsText (trimText s) :=
  h.sublist ((List.rdropWhile_prefix _ _).sublist.trans (List.dropWhile_sublist _))

theorem IsText.longOption {s : Frame} (h : IsText s) : IsText (longOption s) := by
  rw [WriterPayload.longOption]
  split
  · have hdropped := h.sublist (List.drop_sublist 2 s)
    dsimp only
    split
    · rename_i hequals
      have hmember : ∃ rest, (s.drop 2).dropWhile (· ≠ equals) = equals :: rest := by
        cases hrest : (s.drop 2).dropWhile (· ≠ equals) with
        | nil =>
            rw [List.dropWhile_eq_nil_iff] at hrest
            exact absurd (hrest equals hequals) (by simp)
        | cons ch rest =>
            have hne : (s.drop 2).dropWhile (· ≠ equals) ≠ [] := by
              rw [hrest]
              exact List.cons_ne_nil _ _
            have hhead := List.head_dropWhile_not (· ≠ equals) hne
            simp only [hrest, List.head_cons] at hhead
            exact ⟨rest, by rw [show ch = equals by simpa using hhead]⟩
      obtain ⟨rest, hrest⟩ := hmember
      have hsplit := List.takeWhile_append_dropWhile (p := (· ≠ equals)) (l := s.drop 2)
      rw [hrest] at hsplit ⊢
      rw [← hsplit] at hdropped
      refine ⟨?_, ?_⟩
      · have hzero := hdropped.zero_notMem
        simp only [List.mem_append, List.mem_cons, not_or, List.tail_cons] at hzero ⊢
        exact ⟨hzero.1, by decide, hzero.2.2⟩
      · have hlen := hdropped.length_lt
        simpa using hlen
    · exact hdropped
  · exact h

/-- The text behind a command word starts with no blank. -/
structure IsArgument (rest : Frame) : Prop extends IsText rest where
  dropWhile_eq : rest.dropWhile isBlank = rest

theorem order_isArgument {signed : Bool} {line rest : Frame} {c : Command} (hline : IsText line)
    (h : order signed line = some (c, rest)) : IsArgument rest := by
  rw [order] at h
  cases hcommand : commandLine signed line with
  | none =>
      rw [hcommand] at h
      cases h
  | some split =>
      obtain ⟨cmd, text⟩ := split
      rw [hcommand] at h
      obtain ⟨c', -, heq⟩ := Option.map_eq_some_iff.mp h
      cases heq
      rw [commandLine] at hcommand
      dsimp only at hcommand
      split at hcommand
      · cases hcommand
      split at hcommand
      · cases hcommand
      split at hcommand
      · cases hcommand
      rw [splitCommand, Option.some.injEq, Prod.mk.injEq] at hcommand
      obtain ⟨-, rfl⟩ := hcommand
      refine ⟨?_, List.dropWhile_idempotent _ _⟩
      apply hline.trimText.longOption.sublist
      exact (List.dropWhile_sublist _).trans ((List.tail_sublist _).trans (List.dropWhile_sublist _))

/-- `clear_raw_ndef`, where the kind is another one. -/
theorem Config.Holds.clearRawNdef {cfg : Config} {p : Payload} (h : cfg.Holds p) :
    (if cfg.kind ≠ .rawNdef then { cfg with rawNdef := [] } else cfg).Holds
      (if p.kind ≠ .rawNdef then { p with rawNdef := [] } else p) := by
  by_cases hkind : p.kind ≠ .rawNdef
  · rw [if_pos hkind, if_pos (by rw [h.kind_eq]; exact hkind)]
    exact ⟨h.kind_eq, h.str1, h.str2, rfl, h.uriId_eq⟩
  · rw [if_neg hkind, if_neg (by rw [h.kind_eq]; exact hkind)]
    exact h

/-- **The code refines the commands on payloads**, line by line. -/
theorem Config.Holds.handleLine {cfg : Config} {p : Payload} {signed : Bool} {line : Frame} (h : cfg.Holds p)
    (hline : IsText line) :
    (handleLine signed cfg line).1.Holds (p.handleLine signed line).1 ∧
      (handleLine signed cfg line).2 = (p.handleLine signed line).2 := by
  rw [WriterPayload.handleLine, Payload.handleLine]
  cases hcommand : commandLine signed line with
  | none =>
      rw [order, hcommand]
      exact ⟨h, rfl⟩
  | some split =>
      obtain ⟨cmd, rest⟩ := split
      rw [order, hcommand]
      dsimp only
      rw [applyCommand]
      cases hc : command cmd with
      | none => exact ⟨h, rfl⟩
      | some c =>
          have hgiven : order signed line = some (c, rest) := by
            rw [order, hcommand]
            dsimp only
            rw [hc, Option.map_some]
          have hrest := order_isArgument hline hgiven
          obtain ⟨hholds, hok⟩ := h.apply hrest.toIsText c
          dsimp only [Option.map_some]
          rw [Payload.handle, hok]
          cases (p.apply rest c).2 with
          | false => exact ⟨hholds, hok⟩
          | true =>
              refine ⟨hholds.clearRawNdef, ?_⟩
              rw [if_pos rfl, if_pos rfl]
              dsimp only
              rw [hholds.clearRawNdef.message_eq]

end NeroReader.WriterPayload
