import NeroReader.HostNdef

/-!
What the host builds it parses. A record the builders accept is a short record, joining records gives
each the marks of its place, and the parser walks the message record by record; so it reports every
record with the type and payload it was built from, and shows the text or the URI that was asked for.
-/

namespace NeroReader.HostNdef

open Ndef

/-- What one of the builders is asked for. -/
inductive RecordCall where
  | text (content lang : Frame)
  | uri (content : Frame)
  | mime (type payload : Frame)
  deriving DecidableEq, Repr

namespace RecordCall

/-- The record the builder returns. -/
def build : RecordCall → Frame
  | .text content lang => buildNdefTextRecord content lang
  | .uri content => buildNdefUriRecord content
  | .mime type payload => buildNdefMimeRecord type payload

/-- The type name format, the type and the payload the record is to have. -/
def content : RecordCall → Byte × Frame × Frame
  | .text content lang => (tnfWellKnown, ascii "T", BitVec.ofNat 8 lang.length :: (lang ++ content))
  | .uri content =>
      (tnfWellKnown, ascii "U", BitVec.ofNat 8 (abbreviate content).1 :: (abbreviate content).2)
  | .mime type payload => (tnfMime, type, payload)

/-- The text of a text record and the URI of a URI record. -/
def original : RecordCall → Option Frame
  | .text content _ => some content
  | .uri content => some content
  | .mime _ _ => none

end RecordCall

/-- The parser reports the record the builder returned: the type name format, the type and the payload are
those asked for and those in the bytes of the record, and what is shown is the original. -/
structure Restores (call : RecordCall) (summary : NdefRecordSummary) : Prop where
  content : (summary.tnf, summary.type, summary.payload) = call.content
  encoded : call.build =
    (hdrMb ||| hdrMe ||| hdrSr ||| summary.tnf) :: BitVec.ofNat 8 summary.type.length ::
      BitVec.ofNat 8 summary.payload.length :: (summary.type ++ summary.payload)
  tnf_masked : summary.tnf &&& hdrTnfMask = summary.tnf
  type_fits : summary.type.length ≤ srPayloadMax
  payload_fits : summary.payload.length ≤ srPayloadMax
  shown : ∀ original, call.original = some original → summary.decoded = some original

/-! ### The prefix table -/

theorem abbreviateWith_spec {uri : Frame} {best : Nat × Frame} {code : Nat}
    (hcode : code < uriPrefixCodeCount)
    (hbest : best.1 < uriPrefixCodeCount ∧ uriPrefix best.1 ++ best.2 = uri) :
    (abbreviateWith uri best code).1 < uriPrefixCodeCount ∧
      uriPrefix (abbreviateWith uri best code).1 ++ (abbreviateWith uri best code).2 = uri := by
  rw [abbreviateWith]
  split
  · rename_i hlonger
    obtain ⟨rest, rfl⟩ := List.isPrefixOf_iff_prefix.mp hlonger.2.1
    exact ⟨hcode, by rw [List.drop_left]⟩
  · exact hbest

/-- **The abbreviation stands for the URI.** -/
theorem abbreviate_spec (uri : Frame) :
    (abbreviate uri).1 < uriPrefixCodeCount ∧ uriPrefix (abbreviate uri).1 ++ (abbreviate uri).2 = uri := by
  have hfold : ∀ codes : List Nat, (∀ code ∈ codes, code < uriPrefixCodeCount) → ∀ best : Nat × Frame,
      best.1 < uriPrefixCodeCount ∧ uriPrefix best.1 ++ best.2 = uri →
      (codes.foldl (abbreviateWith uri) best).1 < uriPrefixCodeCount ∧
        uriPrefix (codes.foldl (abbreviateWith uri) best).1 ++
          (codes.foldl (abbreviateWith uri) best).2 = uri := by
    intro codes
    induction codes with
    | nil => exact fun _ best hbest => hbest
    | cons code codes ih =>
        intro hcodes best hbest
        obtain ⟨hcode, hcodes⟩ := List.forall_mem_cons.mp hcodes
        exact ih hcodes _ (abbreviateWith_spec hcode hbest)
  refine hfold _ (fun code hmem => ?_) _ ⟨Nat.succ_pos _, rfl⟩
  obtain ⟨-, hlt⟩ := List.mem_range'_1.mp hmem
  exact hlt

/-! ### A built record is a short record -/

theorem appendShortRecord_eq (r : ShortRecord) :
    appendShortRecord [] r.tnf r.type r.payload = some (r.bytes true true) := by
  rw [appendShortRecord, if_neg (not_or.mpr ⟨Nat.not_lt.mpr r.type_fits, Nat.not_lt.mpr r.payload_fits⟩),
    r.tnf_masked]
  rfl

section Built

variable {content lang type payload : Frame}

theorem decodeRecordPayload_text (hlen : payload.length ≤ srPayloadMax) :
    decodeRecordPayload tnfWellKnown (ascii "T") payload = decodeTextPayload payload decodeOutMax := by
  rw [srPayloadMax] at hlen
  rw [decodeRecordPayload, if_neg (by rw [uint32Max]; omega), if_pos ⟨rfl, rfl⟩]

theorem decodeRecordPayload_uri (hlen : payload.length ≤ srPayloadMax) :
    decodeRecordPayload tnfWellKnown (ascii "U") payload = decodeUriPayload payload decodeOutMax := by
  rw [srPayloadMax] at hlen
  rw [decodeRecordPayload, if_neg (by rw [uint32Max]; omega), if_neg (by decide), if_pos ⟨rfl, rfl⟩]

theorem langLen_status {n : Nat} (h : n ≤ textLangMax) : (BitVec.ofNat 8 n : Byte) &&& textStatusUtf16 = 0 ∧
    ((BitVec.ofNat 8 n : Byte) &&& textStatusLangLenMask).toNat = n := by
  have hall : ∀ n ≤ textLangMax, (BitVec.ofNat 8 n : Byte) &&& textStatusUtf16 = 0 ∧
      ((BitVec.ofNat 8 n : Byte) &&& textStatusLangLenMask).toNat = n := by decide
  exact hall n h

/-- What an accepted text record is, and that its text can be shown again. -/
theorem buildNdefTextRecord_spec (h : buildNdefTextRecord content lang ≠ []) :
    ∃ r : ShortRecord, (r.tnf, r.type, r.payload) = (RecordCall.text content lang).content ∧
      buildNdefTextRecord content lang = r.bytes true true ∧
        decodeRecordPayload r.tnf r.type r.payload = some content := by
  rw [buildNdefTextRecord] at h ⊢
  split at h
  · simp at h
  rename_i hlang
  split at h
  · simp at h
  rename_i hsize
  rw [if_neg hlang, if_neg hsize]
  obtain ⟨hutf8, hlangLen⟩ := langLen_status (Nat.not_lt.mp hlang)
  have hfits : (BitVec.ofNat 8 lang.length :: (lang ++ content)).length ≤ srPayloadMax := by
    simp only [List.length_cons, List.length_append]
    omega
  let r : ShortRecord := ⟨tnfWellKnown, ascii "T", BitVec.ofNat 8 lang.length :: (lang ++ content), by decide,
    by decide, hfits⟩
  dsimp only at h ⊢
  cases hprobe : decodeTextPayload (BitVec.ofNat 8 lang.length :: (lang ++ content)) decodeOutMax with
  | none => simp [hprobe] at h
  | some shown =>
      obtain ⟨rfl, -⟩ := (decodeTextPayload_eq_some hutf8 hlangLen).mp hprobe
      exact ⟨r, rfl, by rw [appendShortRecord_eq r, Option.getD_some],
        (decodeRecordPayload_text hfits).trans hprobe⟩

/-- What an accepted URI record is, and that the whole URI can be shown again. -/
theorem buildNdefUriRecord_spec (h : buildNdefUriRecord content ≠ []) :
    ∃ r : ShortRecord, (r.tnf, r.type, r.payload) = (RecordCall.uri content).content ∧
      buildNdefUriRecord content = r.bytes true true ∧
        decodeRecordPayload r.tnf r.type r.payload = some content := by
  obtain ⟨hcode, hcontent⟩ := abbreviate_spec content
  rw [buildNdefUriRecord] at h ⊢
  dsimp only at h ⊢
  split at h
  · simp at h
  rename_i hsize
  rw [if_neg hsize]
  have hfits : (BitVec.ofNat 8 (abbreviate content).1 :: (abbreviate content).2).length ≤ srPayloadMax := by
    rw [Nat.not_lt, shortUriSuffixMax] at hsize
    rw [List.length_cons, srPayloadMax]
    omega
  let r : ShortRecord := ⟨tnfWellKnown, ascii "U", BitVec.ofNat 8 (abbreviate content).1 ::
    (abbreviate content).2, by decide, by decide, hfits⟩
  cases hprobe : decodeUriPayload (BitVec.ofNat 8 (abbreviate content).1 :: (abbreviate content).2)
      decodeOutMax with
  | none => simp [hprobe] at h
  | some shown =>
      have hcodeNat : (BitVec.ofNat 8 (abbreviate content).1 : Byte).toNat = (abbreviate content).1 := by
        rw [uriPrefixCodeCount] at hcode
        exact (BitVec.toNat_ofNat ..).trans (Nat.mod_eq_of_lt (by omega))
      obtain ⟨-, hshown, -⟩ := decodeUriPayload_eq_some.mp hprobe
      rw [hcodeNat, hcontent] at hshown
      subst hshown
      exact ⟨r, rfl, by rw [appendShortRecord_eq r, Option.getD_some],
        (decodeRecordPayload_uri hfits).trans hprobe⟩

theorem buildNdefMimeRecord_spec (h : buildNdefMimeRecord type payload ≠ []) :
    ∃ r : ShortRecord, (r.tnf, r.type, r.payload) = (RecordCall.mime type payload).content ∧
      buildNdefMimeRecord type payload = r.bytes true true := by
  rw [buildNdefMimeRecord] at h ⊢
  split at h
  · simp at h
  rename_i hsize
  rw [if_neg hsize]
  simp only [not_or, Nat.not_lt] at hsize
  let r : ShortRecord := ⟨tnfMime, type, payload, by decide, hsize.2.1, hsize.2.2⟩
  exact ⟨r, rfl, by rw [appendShortRecord_eq r, Option.getD_some]⟩

/-- **A record a builder returns is a short record**, and what is shown of it is what was asked for. -/
theorem built_record {call : RecordCall} (h : call.build ≠ []) : ∃ r : ShortRecord,
    (r.tnf, r.type, r.payload) = call.content ∧ call.build = r.bytes true true ∧
    ∀ original, call.original = some original →
      decodeRecordPayload r.tnf r.type r.payload = some original := by
  cases call with
  | text content lang =>
      obtain ⟨r, hcontent, hbytes, hshown⟩ := buildNdefTextRecord_spec h
      refine ⟨r, hcontent, hbytes, ?_⟩
      rintro original ⟨⟩
      exact hshown
  | uri content =>
      obtain ⟨r, hcontent, hbytes, hshown⟩ := buildNdefUriRecord_spec h
      refine ⟨r, hcontent, hbytes, ?_⟩
      rintro original ⟨⟩
      exact hshown
  | mime type payload =>
      obtain ⟨r, hcontent, hbytes⟩ := buildNdefMimeRecord_spec h
      exact ⟨r, hcontent, hbytes, fun original horiginal => by cases horiginal⟩

end Built

/-! ### Joining records -/

theorem markRecord_bytes (r : ShortRecord) (count i : Nat) :
    markRecord count i (r.bytes true true) = r.bytes (i = 0) (i + 1 = count) := by
  have hall : ∀ tnf : Byte, tnf &&& hdrTnfMask = tnf → ∀ first last : Bool,
      (let front := (hdrMb ||| hdrMe ||| hdrSr ||| tnf) &&& ~~~(hdrMb ||| hdrMe)
       let front := if first then front ||| hdrMb else front
       if last then front ||| hdrMe else front) =
        (if first then hdrMb else 0) ||| (if last then hdrMe else 0) ||| hdrSr ||| tnf := by
    decide
  have hmark := hall r.tnf r.tnf_masked (i = 0) (i + 1 = count)
  simp only [decide_eq_true_eq] at hmark
  rw [ShortRecord.bytes, ShortRecord.bytes, markRecord]
  simp only [ShortRecord.header, if_true, decide_eq_true_eq, hmark]

theorem markRecords (records : List ShortRecord) (i : Nat) :
    (((records.map fun r => r.bytes true true).zipIdx i).map fun (record, k) =>
      markRecord (i + records.length) k record).flatten = ShortRecord.message (i = 0) records := by
  induction records generalizing i with
  | nil => rfl
  | cons r records ih =>
      have hrest := ih (i + 1)
      rw [Nat.add_right_comm, Nat.add_assoc] at hrest
      rw [List.map_cons, List.zipIdx_cons, List.map_cons, List.flatten_cons, List.length_cons, hrest,
        ShortRecord.message]
      dsimp only
      rw [markRecord_bytes]
      have hlast : decide (i + 1 = i + (records.length + 1)) = records.isEmpty := by
        cases records <;> simp
      rw [hlast]
      simp

/-- **A message is its records with the marks of their places.** -/
theorem buildNdefMessage_eq (records : List ShortRecord) :
    buildNdefMessage (records.map fun r => r.bytes true true) = ShortRecord.message true records := by
  have hnone : (records.map fun r => r.bytes true true).any List.isEmpty = false := by
    rw [List.any_eq_false]
    intro record hmem
    obtain ⟨r, -, rfl⟩ := List.mem_map.mp hmem
    simp [ShortRecord.bytes]
  have hmarked := markRecords records 0
  rw [Nat.zero_add] at hmarked
  rw [buildNdefMessage, hnone, if_neg Bool.false_ne_true, List.length_map]
  exact hmarked

/-! ### Parsing a message -/

/-- What the parser reports of a short record. -/
def summaryOf (r : ShortRecord) : NdefRecordSummary where
  tnf := r.tnf
  type := r.type
  payload := r.payload
  decoded := decodeRecordPayload r.tnf r.type r.payload

theorem message_length_le (first : Bool) (records : List ShortRecord) :
    (ShortRecord.message first records).length ≤ 513 * records.length := by
  induction records generalizing first with
  | nil => simp [ShortRecord.message]
  | cons r records ih =>
      have hfirst := r.length_bytes_le first records.isEmpty
      have hrest := ih false
      rw [ShortRecord.message, List.length_append, List.length_cons]
      omega

/-- **The parser walks a message** from any record on. -/
theorem parse_message {front : Frame} {first : Bool} {records : List ShortRecord} {fuel total : Nat}
    {seen : List NdefRecordSummary} (hfuel : records.length ≤ fuel)
    (hcount : seen.length + records.length ≤ maxRecords) (htotal : total ≤ srPayloadMax * seen.length)
    (hlen : (front ++ ShortRecord.message first records).length ≤ uint16Max) :
    parseNdefRecordsFrom (front ++ ShortRecord.message first records) fuel seen total front.length =
      seen ++ records.map summaryOf := by
  induction records generalizing front first fuel total seen with
  | nil =>
      rw [ShortRecord.message, List.append_nil, List.map_nil, List.append_nil]
      cases fuel with
      | zero => rfl
      | succ fuel => rw [parseNdefRecordsFrom, if_neg (Nat.lt_irrefl _)]
  | cons r records ih =>
      obtain ⟨fuel, rfl⟩ := Nat.exists_eq_add_of_le' (Nat.lt_of_lt_of_le (Nat.succ_pos _) hfuel)
      have hpayload := r.payload_fits
      rw [List.length_cons] at hfuel hcount
      rw [maxRecords] at hcount
      rw [srPayloadMax] at hpayload htotal
      rw [ShortRecord.message] at hlen ⊢
      have hpos : front.length < (front ++ (r.bytes first records.isEmpty ++
          ShortRecord.message false records)).length := by
        rw [List.length_append, List.length_append, ShortRecord.length_bytes]
        omega
      rw [parseNdefRecordsFrom, if_pos hpos]
      simp only [ShortRecord.recordNext_short hlen, reduceCtorEq, if_false, ne_eq, not_true_eq_false,
        List.drop_left]
      have hsummary : summarize (r.walked first records.isEmpty)
          (r.bytes first records.isEmpty ++ ShortRecord.message false records) = summaryOf r := by
        rw [summarize, ShortRecord.walked_type, ShortRecord.walked_payload]
        rfl
      rw [if_neg (by rw [maxRecords]; omega),
        if_neg (by rw [maxTotalBytes, ShortRecord.walked]; dsimp only; omega), hsummary, List.map_cons]
      cases records with
      | nil => rfl
      | cons next records =>
          rw [if_neg (by simp [ShortRecord.walked])]
          have hseen : (seen ++ [summaryOf r]).length = seen.length + 1 := by simp
          have hnext : parseNdefRecordsFrom
              ((front ++ r.bytes first false) ++ ShortRecord.message false (next :: records)) fuel
              (seen ++ [summaryOf r]) (total + r.payload.length) (front ++ r.bytes first false).length =
                (seen ++ [summaryOf r]) ++ (next :: records).map summaryOf := by
            refine ih (by omega) (by rw [hseen, maxRecords]; omega) ?_ (by rwa [List.append_assoc])
            rw [hseen, srPayloadMax]
            omega
          rwa [List.append_assoc, List.append_assoc, List.length_append] at hnext

/-- The records behind a list of accepted calls. -/
theorem built_records {calls : List RecordCall} (hbuilt : ∀ call ∈ calls, call.build ≠ []) :
    ∃ records : List ShortRecord, calls.map RecordCall.build = records.map (fun r => r.bytes true true) ∧
      List.Forall₂ Restores calls (records.map summaryOf) := by
  induction calls with
  | nil => exact ⟨[], rfl, .nil⟩
  | cons call calls ih =>
      obtain ⟨hcall, hcalls⟩ := List.forall_mem_cons.mp hbuilt
      obtain ⟨r, hcontent, hbytes, hshown⟩ := built_record hcall
      obtain ⟨records, hrecords, hrestores⟩ := ih hcalls
      refine ⟨r :: records, by rw [List.map_cons, List.map_cons, hbytes, hrecords], .cons ?_ hrestores⟩
      exact ⟨hcontent, hbytes, r.tnf_masked, r.type_fits, r.payload_fits, hshown⟩

/-- **What the host builds it parses.** Of any message of up to as many records as the parser takes, each
accepted by its builder, the parser reports the same records in the same order. The bound on the size of a
message is met by any such list. -/
theorem host_ndef_round_trip (calls : List RecordCall) (hcount : calls.length ≤ maxRecords)
    (hbuilt : ∀ call ∈ calls, call.build ≠ []) :
    List.Forall₂ Restores calls (parseNdefRecords (buildNdefMessage (calls.map RecordCall.build))) := by
  obtain ⟨records, hrecords, hrestores⟩ := built_records hbuilt
  have hsame : calls.length = records.length := by
    have := congrArg List.length hrecords
    rwa [List.length_map, List.length_map] at this
  have hlen := message_length_le true records
  have hfuel : records.length ≤ (ShortRecord.message true records).length := by
    have hall : ∀ (rs : List ShortRecord) (first : Bool), rs.length ≤ (ShortRecord.message first rs).length := by
      intro rs
      induction rs with
      | nil => exact fun _ => Nat.le_refl _
      | cons r rs ih =>
          intro first
          have := ih false
          rw [ShortRecord.message, List.length_append, List.length_cons, ShortRecord.length_bytes]
          omega
    exact hall records true
  rw [hsame, maxRecords] at hcount
  have hparse : parseNdefRecordsFrom ([] ++ ShortRecord.message true records)
      (ShortRecord.message true records).length [] 0 ([] : Frame).length = [] ++ records.map summaryOf :=
    parse_message hfuel (by rw [List.length_nil, maxRecords]; omega) (Nat.zero_le _)
      (by rw [List.nil_append, uint16Max]; omega)
  rw [hrecords, buildNdefMessage_eq, parseNdefRecords,
    if_neg (by rw [maxTotalBytes, uint16Max]; omega)]
  rw [List.nil_append, List.nil_append, List.length_nil] at hparse
  rw [hparse]
  exact hrestores

/-- A text, a URI that the table abbreviates and a MIME record. -/
theorem host_ndef_round_trip_three :
    let calls : List RecordCall := [.text (ascii "hi") (ascii "en"), .uri (ascii "https://www.example.test/a%20b"),
      .mime (ascii "text/plain") []]
    List.Forall₂ Restores calls (parseNdefRecords (buildNdefMessage (calls.map RecordCall.build))) :=
  host_ndef_round_trip _ (by decide) (by decide)

end NeroReader.HostNdef
