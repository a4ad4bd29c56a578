import NeroReader.WriterCliPayload

/-!
When a line of the writer's serial input does what it should: an accepted line configures the complete payload it
asks for, and a line that is turned down leaves the payload as it was. A command writes its fields before it has looked
at all of them, so a line meets this exactly when it is not turned down behind a field that changes, and when no
field is cut (`kept_iff`). Over a run the message is then the last accepted line's.
-/

namespace NeroReader.WriterPayload

open Ndef

/-! ### What a line asks for -/

/-- The payload of a command with the complete text of each field, blanks around it apart. -/
def Command.asked (uriId : Byte) (rest : Frame) : Command → Payload
  | .url => ⟨.urlHttps, withoutHttps (trimText rest), [], [], uriPrefixHttps⟩
  | .text => ⟨.plainText, trimText rest, [], [], 0⟩
  | .phone => ⟨.uriRaw, trimText (ascii "tel:" ++ rest), [], [], 0⟩
  | .sms => ⟨.smsUri, trimText (beforeBar rest), trimText (behindBar rest), [], 0⟩
  | .mailto => ⟨.mailtoUri, trimText (beforeBar rest), trimText (behindBar rest), [], 0⟩
  | .geo => ⟨.geoUri, trimText rest, [], [], 0⟩
  | .vcard => ⟨.vcardMime, trimText (beforeBar rest), trimText (behindBar rest), [], 0⟩
  | .wifi => ⟨.wifiWsc, trimText (beforeBar rest), trimText (behindBar rest), [], 0⟩
  | .bt => ⟨.btOob, trimText rest, [], [], 0⟩
  | .search => ⟨.uriRaw, trimText (searchUri ++ rest), [], [], 0⟩
  | .address destination => ⟨.uriRaw, trimText (mapsUri destination ++ rest), [], [], 0⟩
  | .uri => ⟨.uriRaw, trimText rest, [], [], 0⟩
  | .ndefHex => ⟨.rawNdef, [], [], (parseHexBytes rest ndefMaxBytes).getD [], uriId⟩

/-- The encoder takes the complete payload. -/
def Command.Encodes (rest : Frame) (c : Command) : Prop := (c.asked 0 rest).message ≠ []

/-- Only blanks stand behind what the array takes. -/
def Whole (size : Nat) (field : Frame) : Prop := ∀ ch ∈ field.drop (size - 1), isBlank ch = true

/-- The payload has these values already. -/
def Payload.FirstIs (p : Payload) (uriId : Byte) (first : Frame) : Prop := p.uriId = uriId ∧ p.first = first
def Payload.FieldsAre (p : Payload) (uriId : Byte) (first second : Frame) : Prop :=
  p.uriId = uriId ∧ p.first = first ∧ p.second = second

/-- The condition on a formatted URI: a line that is turned down finds no other identifier. -/
def Command.MeetsFormatted (p : Payload) (pfx rest : Frame) (c : Command) : Prop :=
  if rest = [] ∨ str1Max ≤ (pfx ++ rest).length then p.uriId = 0 else c.Encodes rest

/-- **The condition.** Where a line is turned down in front of the encoder, what it has written by then was there
already; otherwise the encoder takes its complete payload, and nothing of the second field is lost. -/
def Command.Meets (p : Payload) (rest : Frame) (c : Command) : Prop :=
  match c with
  | .url => if rest = [] then p.FirstIs uriPrefixHttps [] else c.Encodes rest
  | .text | .geo | .bt | .uri => if rest = [] then p.FirstIs 0 [] else c.Encodes rest
  | .phone => c.MeetsFormatted p (ascii "tel:") rest
  | .search => c.MeetsFormatted p searchUri rest
  | .address destination => c.MeetsFormatted p (mapsUri destination) rest
  | .sms =>
      if beforeBar rest = [] then p.FirstIs 0 []
      else c.Encodes rest ∧ bar ∉ behindBar rest ∧ Whole str2Max (behindBar rest)
  | .mailto =>
      if beforeBar rest = [] then p.FirstIs 0 []
      else c.Encodes rest ∧ ((behindBar rest).length < str2Max ∨ trimText (behindBar rest) = [])
  | .vcard =>
      if beforeBar rest = [] then p.FirstIs 0 []
      else if str2Max ≤ (behindBar rest).length ∨ trimText (behindBar rest) = [] then
        p.FieldsAre 0 (CharArray.stored str1Max (beforeBar rest)) []
      else c.Encodes rest
  | .wifi =>
      if beforeBar rest = [] then p.FirstIs 0 []
      else if bar ∈ rest ∧ CharArray.stored str2Max (beforeBar (behindBar rest)) = [] then
        p.FieldsAre 0 (CharArray.stored str1Max (beforeBar rest)) []
      else c.Encodes rest ∧ bar ∉ behindBar rest ∧ Whole str2Max (behindBar rest)
  | .ndefHex => True

/-- What a line may leave: its payload when it is accepted, and otherwise what was there. -/
def Kept (p asked : Payload) (left : Payload × Bool) : Prop :=
  (left.2 = false → left.1 = p) ∧ (left.2 = true → left.1 = asked)

/-- Not set yet, or one the encoder takes. -/
def Payload.Settled (p : Payload) : Prop := p.kind = .none ∨ p.message ≠ []

/-! ### The texts of the fields -/

/-- A field that starts with no blank is cut only when its text is too long. -/
theorem stored_of_length {size : Nat} {field : Frame} (hlead : field.dropWhile isBlank = field)
    (hlen : (trimText field).length < size) : CharArray.stored size field = trimText field := by
  rw [stored_eq_iff]
  by_contra hlost
  have hlonger := rdropWhile_append_text (a := field.take (size - 1)) hlost
  have hsize : size - 1 < field.length := by
    by_contra hshort
    apply hlost
    rw [List.drop_of_length_le (Nat.not_lt.mp hshort)]
    simp
  rw [List.take_append_drop, List.length_take, Nat.min_eq_left hsize.le] at hlonger
  rw [trimText, hlead] at hlen
  omega

theorem not_isBlank_of_lead {ch : Byte} {field : Frame} (hlead : (ch :: field).dropWhile isBlank = ch :: field) :
    ¬ isBlank ch = true := by
  intro hblank
  rw [List.dropWhile_cons_of_pos hblank] at hlead
  have hlen := congrArg List.length hlead
  have hle := (List.dropWhile_sublist (l := field) isBlank).length_le
  rw [List.length_cons] at hlen
  omega

theorem stored_eq_nil {size : Nat} {field : Frame} (hlead : field.dropWhile isBlank = field) (hsize : 1 < size) :
    CharArray.stored size field = [] ↔ field = [] := by
  rw [CharArray.stored, trimText_eq_nil]
  cases field with
  | nil => simp
  | cons ch field =>
      obtain ⟨size, rfl⟩ := Nat.exists_eq_add_of_le' hsize
      have hch := not_isBlank_of_lead hlead
      simp [hch]

theorem beforeBar_lead {rest : Frame} (hlead : rest.dropWhile isBlank = rest) :
    (beforeBar rest).dropWhile isBlank = beforeBar rest := by
  cases rest with
  | nil => rfl
  | cons ch rest =>
      by_cases hbar : ch = bar
      · subst hbar
        rfl
      · have hbefore : beforeBar (ch :: rest) = ch :: beforeBar rest :=
          List.takeWhile_cons_of_pos (decide_eq_true hbar)
        rw [hbefore, List.dropWhile_cons_of_neg (not_isBlank_of_lead hlead)]

theorem mem_trimText {ch : Byte} {s : Frame} (h : ch ∈ s) (hch : ¬ isBlank ch = true) : ch ∈ trimText s := by
  have hdropped : ch ∈ s.dropWhile isBlank := by
    rw [← List.takeWhile_append_dropWhile (p := isBlank) (l := s), List.mem_append] at h
    exact h.resolve_left fun hmem => hch (List.mem_takeWhile_imp hmem)
  rw [← List.rdropWhile_append_rtakeWhile (p := isBlank) (l := s.dropWhile isBlank), List.mem_append] at hdropped
  exact hdropped.resolve_right fun hmem => hch (List.mem_rtakeWhile_imp hmem)

theorem mem_of_mem_trimText {ch : Byte} {s : Frame} (h : ch ∈ trimText s) : ch ∈ s :=
  ((List.rdropWhile_prefix _ _).sublist.trans (List.dropWhile_sublist _)).mem h

theorem stored_beforeBar_iff {size : Nat} {field : Frame} :
    CharArray.stored size (beforeBar field) = trimText field ↔ bar ∉ field ∧ Whole size field := by
  constructor
  · intro h
    have hbar : bar ∉ field := by
      intro hmem
      have hkept := mem_trimText hmem (by decide)
      rw [← h] at hkept
      have hbefore := List.mem_of_mem_take (mem_of_mem_trimText hkept)
      exact absurd (List.mem_takeWhile_imp hbefore) (by simp)
    rw [(no_bar hbar).1, stored_eq_iff] at h
    exact ⟨hbar, h⟩
  · rintro ⟨hbar, hwhole⟩
    rw [(no_bar hbar).1, stored_eq_iff]
    exact hwhole

/-! ### One line -/

theorem kept_refused {p q asked : Payload} : Kept p asked (q, false) ↔ q = p := by
  simp [Kept]

/-- A payload the encoder is asked about is kept when it is the complete one and the encoder takes it. -/
theorem kept_encoded {p q asked : Payload} (hkind : q.kind ≠ .none)
    (hp : p.Settled ∨ (q = asked ∧ asked.message ≠ [])) :
    Kept p asked (q, decide (q.message.length ≠ 0)) ↔ q = asked ∧ asked.message ≠ [] := by
  by_cases hmessage : q.message = []
  · rw [hmessage, show decide ((List.length ([] : Frame)) ≠ 0) = false from rfl, kept_refused]
    constructor
    · rintro rfl
      rcases hp with (hnone | htaken) | h
      · exact absurd hnone hkind
      · exact absurd hmessage htaken
      · exact h
    · rintro ⟨rfl, htaken⟩
      exact absurd hmessage htaken
  · have hlen : q.message.length ≠ 0 := mt List.length_eq_zero_iff.mp hmessage
    rw [decide_eq_true hlen]
    constructor
    · intro h
      have heq := h.2 rfl
      exact ⟨heq, by rw [← heq]; exact hmessage⟩
    · rintro ⟨heq, -⟩
      exact ⟨by rintro ⟨⟩, fun _ => heq⟩

theorem Payload.handle_refused {p q : Payload} {rest : Frame} {c : Command} (h : p.apply rest c = (q, false)) :
    p.handle rest c = (q, false) := by
  rw [Payload.handle, h]
  rfl

theorem Payload.handle_entered {p q : Payload} {rest : Frame} {c : Command} (h : p.apply rest c = (q, true))
    (hkind : q.kind ≠ .rawNdef) :
    p.handle rest c =
      ({ q with rawNdef := [] }, decide (({ q with rawNdef := [] } : Payload).message.length ≠ 0)) := by
  rw [Payload.handle, h]
  dsimp only
  rw [if_pos rfl, if_pos hkind]

theorem Payload.handle_raw {p q : Payload} {rest : Frame} {c : Command} (h : p.apply rest c = (q, true))
    (hkind : q.kind = .rawNdef) : p.handle rest c = (q, decide (q.message.length ≠ 0)) := by
  rw [Payload.handle, h]
  dsimp only
  rw [if_pos rfl, if_neg (not_not.mpr hkind)]

/-- What an entry configures when it goes through. -/
def Entry.payload (e : Entry) (field : Frame) : Payload where
  kind := e.kind
  first := if e.https then withoutHttps (CharArray.stored str1Max field) else CharArray.stored str1Max field
  second := (e.second.map (CharArray.stored str2Max)).getD []
  rawNdef := []
  uriId := e.uriId

/-- **An entry on a payload**: where it is turned down, and what it configures. -/
theorem Payload.handle_entry {p : Payload} {rest : Frame} {c : Command} {e : Entry} (he : c.entry rest = some e)
    (hkind : e.kind ≠ .rawNdef) :
    p.handle rest c =
      match e.first with
      | none => ({ p with uriId := e.uriId }, false)
      | some field =>
          if CharArray.stored str1Max field = [] then ({ p with uriId := e.uriId, first := [] }, false)
          else if (e.payload field).second = [] ∧ e.second ≠ none ∧ e.needed = true then
            ({ p with uriId := e.uriId, first := (e.payload field).first, second := [] }, false)
          else (e.payload field, decide ((e.payload field).message.length ≠ 0)) := by
  have happly : p.apply rest c = p.enter e := by
    rw [Payload.apply, he]
  cases hfirst : e.first with
  | none =>
      apply Payload.handle_refused
      rw [happly, Payload.enter, hfirst]
  | some field =>
      dsimp only
      by_cases hblank : CharArray.stored str1Max field = []
      · rw [if_pos hblank]
        apply Payload.handle_refused
        rw [happly, Payload.enter, hfirst]
        exact if_pos hblank
      · rw [if_neg hblank]
        cases hsecond : e.second with
        | none =>
            rw [if_neg (by simp)]
            have hentered : p.apply rest c = (⟨e.kind, (e.payload field).first, [], p.rawNdef, e.uriId⟩, true) := by
              rw [happly, Payload.enter, hfirst, hsecond]
              exact if_neg hblank
            rw [Payload.handle_entered hentered hkind, Entry.payload, hsecond]
            rfl
        | some field2 =>
            have hpayload : (e.payload field).second = CharArray.stored str2Max field2 := by
              rw [Entry.payload, hsecond]
              rfl
            by_cases hneeded : CharArray.stored str2Max field2 = [] ∧ e.needed = true
            · rw [if_pos ⟨by rw [hpayload]; exact hneeded.1, by simp, hneeded.2⟩]
              apply Payload.handle_refused
              rw [happly, Payload.enter, hfirst, hsecond]
              dsimp only
              rw [if_neg hblank, if_pos hneeded]
              rfl
            · rw [if_neg (by rw [hpayload]; exact fun h => hneeded ⟨h.1, h.2.2⟩)]
              have hentered : p.apply rest c =
                  (⟨e.kind, (e.payload field).first, (e.payload field).second, p.rawNdef, e.uriId⟩, true) := by
                rw [happly, Payload.enter, hfirst, hsecond, hpayload]
                dsimp only
                rw [if_neg hblank, if_neg hneeded]
                rfl
              rw [Payload.handle_entered hentered hkind]
              rfl

/-- The message says that the first text fits its array. -/
theorem Payload.length_first_lt {p : Payload} (h : p.message ≠ []) (hzero : (0 : Byte) ∉ p.first) :
    p.first.length < str1Max := by
  by_contra hlong
  have hbytes : p.config.str1.bytes = p.first.take str1Max := by
    have hlen : (p.first.take str1Max).length = str1Max := by
      rw [List.length_take]
      omega
    dsimp only [Payload.config, CharArray.ofText]
    rw [hlen, Nat.sub_self, List.replicate_zero, List.append_nil]
  have hunterminated : boundedStrlen p.config.str1.bytes str1Max = none := by
    cases hfound : boundedStrlen p.config.str1.bytes str1Max with
    | none => rfl
    | some len =>
        obtain ⟨⟨rest, hrest⟩, -⟩ := boundedStrlen_spec hfound
        rw [hbytes] at hrest
        have hmem : (0 : Byte) ∈ p.first.take str1Max := by
          rw [hrest]
          simp
        exact absurd (List.mem_of_mem_take hmem) hzero
  apply h
  rw [Payload.message, Config.message, buildNdefMessage, hunterminated]

/-- A URL the encoder takes is short. -/
theorem url_text_lt {rest : Frame} (hrest : IsArgument rest) (h : Command.url.Encodes rest) :
    (trimText rest).length < str1Max := by
  have hzero : (0 : Byte) ∉ withoutHttps (trimText rest) := by
    intro hmem
    apply hrest.zero_notMem
    apply mem_of_mem_trimText
    rw [withoutHttps] at hmem
    split at hmem
    · exact List.mem_of_mem_drop hmem
    · exact hmem
  have hlen := Payload.length_first_lt h hzero
  have hholds := Payload.config_holds (p := Command.url.asked 0 rest) hzero (by simp [Command.asked]) hlen
    (show 0 < str2Max by decide)
  have hshort : (withoutHttps (trimText rest)).length < rtdUriPayloadMax + 1 := by
    by_contra hlong
    apply h
    obtain ⟨tail, htail⟩ := hholds.str1.bytes_eq
    rw [Payload.message, Config.message, buildNdefMessage, hholds.str1.boundedStrlen_eq,
      hholds.str2.boundedStrlen_eq]
    dsimp only [Payload.config, Command.asked] at htail ⊢
    rw [htail, ndefEmitUri, boundedStrlen_none (Nat.not_lt.mp hlong) hzero, if_neg (by decide)]
  have hle : (trimText rest).length ≤ (withoutHttps (trimText rest)).length + httpsPrefix.length := by
    rw [withoutHttps]
    split
    · rw [List.length_drop]
      omega
    · exact Nat.le_add_right _ _
  have hprefix : httpsPrefix.length = 8 := by decide
  rw [rtdUriPayloadMax] at hshort
  rw [str1Max]
  omega

theorem uriId_eq_iff {p : Payload} {uriId : Byte} : ({ p with uriId := uriId } : Payload) = p ↔ p.uriId = uriId := by
  cases p
  simp only [Payload.mk.injEq, true_and]
  exact eq_comm

theorem firstIs_iff {p : Payload} {uriId : Byte} {first : Frame} :
    ({ p with uriId := uriId, first := first } : Payload) = p ↔ p.FirstIs uriId first := by
  cases p
  simp only [Payload.mk.injEq, Payload.FirstIs, true_and]
  constructor
  · rintro ⟨rfl, rfl⟩
    exact ⟨rfl, rfl⟩
  · rintro ⟨rfl, rfl⟩
    exact ⟨rfl, rfl⟩

theorem fieldsAre_iff {p : Payload} {uriId : Byte} {first second : Frame} :
    ({ p with uriId := uriId, first := first, second := second } : Payload) = p ↔
      p.FieldsAre uriId first second := by
  cases p
  simp only [Payload.mk.injEq, Payload.FieldsAre, true_and]
  constructor
  · rintro ⟨rfl, rfl, rfl⟩
    exact ⟨rfl, rfl, rfl⟩
  · rintro ⟨rfl, rfl, rfl⟩
    exact ⟨rfl, rfl, rfl⟩

section Entries

variable {p asked : Payload} {rest field : Frame} {c : Command} {e : Entry}

/-- What an entry keeps, by the place where it is turned down. -/
theorem kept_entry_iff {blank refused taken : Prop} [Decidable blank] [Decidable refused]
    (he : c.entry rest = some e) (hkind : e.kind ≠ .rawNdef ∧ e.kind ≠ .none) (hfirst : e.first = some field)
    (hblank : CharArray.stored str1Max field = [] ↔ blank)
    (hrefused : ((e.payload field).second = [] ∧ e.second ≠ none ∧ e.needed = true) ↔ refused)
    (htaken : ¬ refused → ((e.payload field = asked ∧ asked.message ≠ []) ↔ taken))
    (hp : p.Settled ∨
      if blank then p.FirstIs e.uriId []
      else if refused then p.FieldsAre e.uriId (e.payload field).first [] else taken) :
    Kept p asked (p.handle rest c) ↔
      if blank then p.FirstIs e.uriId []
      else if refused then p.FieldsAre e.uriId (e.payload field).first [] else taken := by
  rw [Payload.handle_entry he hkind.1, hfirst]
  dsimp only
  by_cases hb : blank
  · rw [if_pos (hblank.mpr hb), if_pos hb, kept_refused]
    exact firstIs_iff
  · rw [if_neg hb] at hp
    rw [if_neg (mt hblank.mp hb), if_neg hb]
    by_cases hr : refused
    · rw [if_pos (hrefused.mpr hr), if_pos hr, kept_refused]
      exact fieldsAre_iff
    · rw [if_neg hr] at hp
      rw [if_neg (mt hrefused.mp hr), if_neg hr, ← htaken hr]
      apply kept_encoded hkind.2
      rw [htaken hr]
      exact hp

/-- An entry that goes through configures the complete payload when its second text is complete. -/
theorem payload_eq_iff {second : Frame} (hfield : IsArgument field) (hhttps : e.https = false)
    (hasked : asked = ⟨e.kind, trimText field, second, [], e.uriId⟩) :
    (e.payload field = asked ∧ asked.message ≠ []) ↔ asked.message ≠ [] ∧ (e.payload field).second = second := by
  constructor
  · rintro ⟨heq, hmessage⟩
    exact ⟨hmessage, by rw [heq, hasked]⟩
  · rintro ⟨hmessage, hsecond⟩
    refine ⟨?_, hmessage⟩
    have hlen : (trimText field).length < str1Max := by
      have hlt := asked.length_first_lt hmessage
      rw [hasked] at hlt
      exact hlt fun hmem => hfield.zero_notMem (mem_of_mem_trimText hmem)
    have hstored := stored_of_length hfield.dropWhile_eq hlen
    rw [hasked, ← hsecond, Entry.payload, hhttps, hstored]
    rfl

theorem kept_single_iff {kind : Kind} (hfield : IsArgument field)
    (he : c.entry rest = some { kind := kind, first := some field }) (hkind : kind ≠ .rawNdef ∧ kind ≠ .none)
    (hasked : asked = ⟨kind, trimText field, [], [], 0⟩)
    (hp : p.Settled ∨ if field = [] then p.FirstIs 0 [] else asked.message ≠ []) :
    Kept p asked (p.handle rest c) ↔ if field = [] then p.FirstIs 0 [] else asked.message ≠ [] := by
  have hrefused : (((⟨kind, 0, some field, none, false, false⟩ : Entry).payload field).second = [] ∧
      (none : Option Frame) ≠ none ∧ false = true) ↔ False := by simp
  have htaken : ¬ False → (((⟨kind, 0, some field, none, false, false⟩ : Entry).payload field = asked ∧
      asked.message ≠ []) ↔ asked.message ≠ []) := by
    intro _
    rw [payload_eq_iff hfield rfl hasked]
    exact and_iff_left rfl
  have h := kept_entry_iff he hkind rfl (stored_eq_nil hfield.dropWhile_eq (by decide)) hrefused htaken
    (by simpa using hp)
  simpa using h

theorem kept_formatted_iff {pfx : Frame} (hrest : IsArgument rest) (hpfx : (0 : Byte) ∉ pfx)
    (hlead : (pfx ++ rest).dropWhile isBlank = pfx ++ rest) (hne : pfx ≠ [])
    (he : c.entry rest = some { kind := .uriRaw, first := formatted pfx rest })
    (hasked : asked = ⟨.uriRaw, trimText (pfx ++ rest), [], [], 0⟩)
    (hp : p.Settled ∨ if rest = [] ∨ str1Max ≤ (pfx ++ rest).length then p.uriId = 0 else asked.message ≠ []) :
    Kept p asked (p.handle rest c) ↔
      if rest = [] ∨ str1Max ≤ (pfx ++ rest).length then p.uriId = 0 else asked.message ≠ [] := by
  by_cases hout : rest = [] ∨ str1Max ≤ (pfx ++ rest).length
  · have hnone : formatted pfx rest = none := by
      rw [formatted]
      rcases hout with hempty | hlong
      · rw [if_pos hempty]
      · rw [if_pos hlong, ite_self]
    rw [Payload.handle_entry he (show Kind.uriRaw ≠ .rawNdef by decide), hnone, if_pos hout, kept_refused]
    exact uriId_eq_iff
  · rw [if_neg hout] at hp
    rw [if_neg hout]
    obtain ⟨hempty, hfits⟩ := not_or.mp hout
    have hsome : formatted pfx rest = some (pfx ++ rest) := by
      rw [formatted, if_neg hempty, if_neg hfits]
    rw [hsome] at he
    have hargument : IsArgument (pfx ++ rest) :=
      { zero_notMem := by
          rw [List.mem_append]
          exact fun hmem => hmem.elim hpfx hrest.zero_notMem
        length_lt := by
          rw [str1Max] at hfits
          rw [lineCap]
          omega
        dropWhile_eq := hlead }
    have hfield : pfx ++ rest ≠ [] := fun h => hne (List.append_eq_nil_iff.mp h).1
    have h := kept_single_iff hargument he (by decide) hasked (by rw [if_neg hfield]; exact hp)
    rwa [if_neg hfield] at h

theorem kept_fields_iff {kind : Kind} {second : Option Frame} {needed : Bool} {secondText : Frame}
    {refused whole : Prop} [Decidable refused] (hfield : IsArgument field)
    (he : c.entry rest = some { kind := kind, first := some field, second := second, needed := needed })
    (hkind : kind ≠ .rawNdef ∧ kind ≠ .none) (hasked : asked = ⟨kind, trimText field, secondText, [], 0⟩)
    (hrefused : ((second.map (CharArray.stored str2Max)).getD [] = [] ∧ second ≠ none ∧ needed = true) ↔ refused)
    (hsecond : ¬ refused → ((second.map (CharArray.stored str2Max)).getD [] = secondText ↔ whole))
    (hp : p.Settled ∨
      if field = [] then p.FirstIs 0 []
      else if refused then p.FieldsAre 0 (CharArray.stored str1Max field) [] else asked.message ≠ [] ∧ whole) :
    Kept p asked (p.handle rest c) ↔
      if field = [] then p.FirstIs 0 []
      else if refused then p.FieldsAre 0 (CharArray.stored str1Max field) [] else asked.message ≠ [] ∧ whole := by
  apply kept_entry_iff he hkind rfl (stored_eq_nil hfield.dropWhile_eq (by decide)) hrefused _ hp
  intro hr
  rw [payload_eq_iff hfield rfl hasked]
  exact and_congr_right fun _ => hsecond hr

/-- The same where the second field may be blank. -/
theorem kept_optional_iff {kind : Kind} {second : Frame} {secondText : Frame} {whole : Prop}
    (hfield : IsArgument field) (he : c.entry rest = some { kind := kind, first := some field, second := some second })
    (hkind : kind ≠ .rawNdef ∧ kind ≠ .none) (hasked : asked = ⟨kind, trimText field, secondText, [], 0⟩)
    (hsecond : CharArray.stored str2Max second = secondText ↔ whole)
    (hp : p.Settled ∨ if field = [] then p.FirstIs 0 [] else asked.message ≠ [] ∧ whole) :
    Kept p asked (p.handle rest c) ↔ if field = [] then p.FirstIs 0 [] else asked.message ≠ [] ∧ whole := by
  have hrefused : (((some second).map (CharArray.stored str2Max)).getD [] = [] ∧ some second ≠ none ∧ false = true) ↔
      False := by simp
  have h := kept_fields_iff hfield he hkind hasked hrefused (fun _ => hsecond) (by simpa only [if_false] using hp)
  simpa only [if_false] using h

theorem kept_url_iff (hrest : IsArgument rest)
    (hp : p.Settled ∨ if rest = [] then p.FirstIs uriPrefixHttps [] else Command.url.Encodes rest) :
    Kept p (Command.url.asked p.uriId rest) (p.handle rest .url) ↔
      if rest = [] then p.FirstIs uriPrefixHttps [] else Command.url.Encodes rest := by
  have hrefused : (((⟨.urlHttps, uriPrefixHttps, some rest, none, false, true⟩ : Entry).payload rest).second = [] ∧
      (none : Option Frame) ≠ none ∧ false = true) ↔ False := by simp
  have htaken : ¬ False → (((⟨.urlHttps, uriPrefixHttps, some rest, none, false, true⟩ : Entry).payload rest =
      Command.url.asked p.uriId rest ∧ (Command.url.asked p.uriId rest).message ≠ []) ↔
        Command.url.Encodes rest) := by
    intro _
    constructor
    · exact fun h => h.2
    · intro hmessage
      refine ⟨?_, hmessage⟩
      have hstored := stored_of_length hrest.dropWhile_eq (url_text_lt hrest hmessage)
      rw [Entry.payload, hstored]
      rfl
  have h := kept_entry_iff (c := .url) rfl (show Kind.urlHttps ≠ .rawNdef ∧ Kind.urlHttps ≠ .none by decide) rfl
    (stored_eq_nil hrest.dropWhile_eq (by decide)) hrefused htaken (by simpa using hp)
  simpa using h

end Entries

theorem parseHexFrom_length {cap : Nat} {hi : Option Byte} {out text raw : Frame} (hout : out.length ≤ cap)
    (h : parseHexFrom cap hi out text = some raw) : 0 < raw.length ∧ raw.length ≤ cap := by
  induction text generalizing hi out with
  | nil =>
      rw [parseHexFrom] at h
      split at h
      · cases h
      · rename_i hgood
        cases h
        exact ⟨Nat.pos_of_ne_zero (not_or.mp hgood).2, hout⟩
  | cons ch text ih =>
      rw [parseHexFrom.eq_def] at h
      dsimp only at h
      split at h
      · exact ih hout h
      cases hv : hexNibble ch with
      | none =>
          rw [hv] at h
          cases h
      | some v =>
          rw [hv] at h
          cases hi with
          | none => exact ih hout h
          | some hi =>
              dsimp only at h
              split at h
              · cases h
              · rename_i hroom
                apply ih _ h
                rw [List.length_append, List.length_singleton]
                omega

/-- Bad digits change nothing, and good ones are a message the encoder takes. -/
theorem kept_ndefHex {p : Payload} {rest : Frame} :
    Kept p (Command.ndefHex.asked p.uriId rest) (p.handle rest .ndefHex) := by
  have happly : p.apply rest .ndefHex =
      match parseHexBytes rest ndefMaxBytes with
      | none => (p, false)
      | some raw => (⟨.rawNdef, [], [], raw, p.uriId⟩, true) := rfl
  rw [Command.asked]
  cases hparsed : parseHexBytes rest ndefMaxBytes with
  | none =>
      rw [hparsed] at happly
      rw [Payload.handle_refused happly]
      exact kept_refused.mpr rfl
  | some raw =>
      rw [hparsed] at happly
      rw [parseHexBytes, if_neg (by decide)] at hparsed
      obtain ⟨hpos, hcap⟩ := parseHexFrom_length (Nat.zero_le _) hparsed
      have hmessage : (⟨.rawNdef, [], [], raw, p.uriId⟩ : Payload).message = raw := by
        have hholds : (⟨.rawNdef, [], [], raw, p.uriId⟩ : Payload).config.Holds ⟨.rawNdef, [], [], raw, p.uriId⟩ :=
          Payload.config_holds (by simp) (by simp) (show 0 < str1Max by decide) (show 0 < str2Max by decide)
        rw [Payload.message, Config.message, buildNdefMessage, hholds.str1.boundedStrlen_eq,
          hholds.str2.boundedStrlen_eq]
        dsimp only [Payload.config]
        exact if_neg (not_or.mpr ⟨Nat.ne_of_gt hpos, Nat.not_lt.mpr hcap⟩)
      rw [Payload.handle_raw happly rfl, hmessage, decide_eq_true (Nat.ne_of_gt hpos)]
      exact ⟨by rintro ⟨⟩, fun _ => rfl⟩

theorem splitPipe_second_getD (rest : Frame) : (splitPipe rest).2.1.getD [] = beforeBar (behindBar rest) := by
  rw [(splitPipe_eq rest).2.1]
  by_cases hbar : bar ∈ rest
  · rw [if_pos hbar, Option.getD_some]
  · rw [if_neg hbar, (no_bar hbar).2, Option.getD_none]
    rfl

theorem IsArgument.beforeBar {rest : Frame} (h : IsArgument rest) : IsArgument (beforeBar rest) :=
  ⟨h.toIsText.beforeBar, beforeBar_lead h.dropWhile_eq⟩

theorem stored_short {size : Nat} {field : Frame} (h : field.length < size) :
    CharArray.stored size field = trimText field := by
  rw [CharArray.stored, List.take_of_length_le (by omega)]

theorem stored_joined_iff {tail : Frame} :
    CharArray.stored str2Max (if str2Max ≤ tail.length then [] else tail) = trimText tail ↔
      tail.length < str2Max ∨ trimText tail = [] := by
  by_cases hlong : str2Max ≤ tail.length
  · rw [if_pos hlong, or_iff_right (Nat.not_lt.mpr hlong)]
    exact eq_comm
  · rw [if_neg hlong]
    exact iff_of_true (stored_short (Nat.not_le.mp hlong)) (Or.inl (Nat.not_le.mp hlong))

theorem stored_joined_eq_nil {tail : Frame} :
    CharArray.stored str2Max (if str2Max ≤ tail.length then [] else tail) = [] ↔
      str2Max ≤ tail.length ∨ trimText tail = [] := by
  by_cases hlong : str2Max ≤ tail.length
  · rw [if_pos hlong]
    exact iff_of_true rfl (Or.inl hlong)
  · rw [if_neg hlong, or_iff_right hlong, stored_short (Nat.not_le.mp hlong)]

/-- **A line keeps the payload exactly when it meets the condition.** -/
theorem Command.kept_iff {p : Payload} {rest : Frame} {c : Command} (hrest : IsArgument rest)
    (hp : p.Settled ∨ c.Meets p rest) : Kept p (c.asked p.uriId rest) (p.handle rest c) ↔ c.Meets p rest := by
  have hbefore := hrest.beforeBar
  have hfirst := (splitPipe_eq rest).1
  cases c with
  | url => exact kept_url_iff hrest hp
  | text => exact kept_single_iff hrest rfl (by decide) rfl hp
  | geo => exact kept_single_iff hrest rfl (by decide) rfl hp
  | bt => exact kept_single_iff hrest rfl (by decide) rfl hp
  | uri => exact kept_single_iff hrest rfl (by decide) rfl hp
  | phone => exact kept_formatted_iff hrest (by decide) rfl (by decide) rfl rfl hp
  | search => exact kept_formatted_iff hrest (by decide) rfl (by decide) rfl rfl hp
  | address destination =>
      cases destination with
      | false => exact kept_formatted_iff hrest (by decide) rfl (by decide) rfl rfl hp
      | true => exact kept_formatted_iff hrest (by decide) rfl (by decide) rfl rfl hp
  | sms =>
      have he : Command.sms.entry rest = some
          { kind := .smsUri, first := some (beforeBar rest), second := some (beforeBar (behindBar rest)) } := by
        rw [Command.entry, hfirst, splitPipe_second_getD]
      exact kept_optional_iff hbefore he (by decide) rfl stored_beforeBar_iff hp
  | mailto =>
      have he : Command.mailto.entry rest = some
          { kind := .mailtoUri
            first := some (beforeBar rest)
            second := some (if str2Max ≤ (behindBar rest).length then [] else behindBar rest) } := by
        rw [Command.entry, hfirst, joinFields_eq]
      exact kept_optional_iff hbefore he (by decide) rfl stored_joined_iff hp
  | vcard =>
      have he : Command.vcard.entry rest = some
          { kind := .vcardMime
            first := some (beforeBar rest)
            second := some (if str2Max ≤ (behindBar rest).length then [] else behindBar rest)
            needed := true } := by
        rw [Command.entry, hfirst, joinFields_eq]
      have hsecond : ¬ (str2Max ≤ (behindBar rest).length ∨ trimText (behindBar rest) = []) →
          (CharArray.stored str2Max (if str2Max ≤ (behindBar rest).length then [] else behindBar rest) =
            trimText (behindBar rest) ↔ True) := by
        intro hgiven
        rw [stored_joined_iff]
        exact iff_of_true (Or.inl (Nat.not_le.mp (not_or.mp hgiven).1)) trivial
      have h := kept_fields_iff (p := p) hbefore he (by decide) rfl (by simpa using stored_joined_eq_nil) hsecond
        (by rw [and_true]; exact hp)
      rw [and_true] at h
      exact h
  | wifi =>
      have he : Command.wifi.entry rest = some
          { kind := .wifiWsc
            first := some (beforeBar rest)
            second := if bar ∈ rest then some (beforeBar (behindBar rest)) else none
            needed := true } := by
        rw [Command.entry, hfirst, (splitPipe_eq rest).2.1]
      have hkey : ((if bar ∈ rest then some (beforeBar (behindBar rest)) else none).map
          (CharArray.stored str2Max)).getD [] = CharArray.stored str2Max (beforeBar (behindBar rest)) := by
        by_cases hbar : bar ∈ rest
        · rw [if_pos hbar]
          rfl
        · rw [if_neg hbar, (no_bar hbar).2]
          rfl
      apply kept_fields_iff hbefore he (by decide) rfl _ _ hp
      · rw [hkey]
        by_cases hbar : bar ∈ rest <;> simp [hbar]
      · intro _
        rw [hkey]
        exact stored_beforeBar_iff
  | ndefHex => exact iff_of_true kept_ndefHex trivial

end NeroReader.WriterPayload
