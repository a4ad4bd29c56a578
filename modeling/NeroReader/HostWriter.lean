import NeroReader.HostNdefCodec
import NeroReader.PercentQuery
import NeroReader.WriterPayload

/-!
The records that the host builds from the fields of a command line option, separated by `|`. Mail and SMS become a
URI with the subject and the body as the fields of its query: these are percent-encoded, the address stands in front
as it was given. A reader of the URI finds the address and the fields again exactly when the address holds no
character that ends a path.
-/

namespace NeroReader.HostWriter

open HostNdef Ndef
open WriterPayload (bar)

/-! ### Building -/

/-- `SplitPipe`. -/
def splitPipe (value : Frame) : List Frame := value.splitOn bar

def isAlnum (c : Byte) : Bool := (0x30 ≤ c && c ≤ 0x39) || (0x41 ≤ c && c ≤ 0x5A) || (0x61 ≤ c && c ≤ 0x7A)

/-- The characters that `WriterUrlComponentEncode` leaves as they are. -/
def unreserved (c : Byte) : Bool := isAlnum c || c == 0x2D || c == 0x5F || c == 0x2E || c == 0x7E

/-- `WriterUrlComponentEncode`. -/
def writerUrlComponentEncode (text : Frame) : Frame :=
  text.flatMap fun c => if unreserved c then [c] else percent :: hexByte c

/-- A part of the value, empty where there is none. -/
def part (parts : List Frame) (i : Nat) : Frame := parts.getD i []

/-- `BuildWriterMailRecord`; a refusal is the empty record. -/
def buildWriterMailRecord (spec : Frame) : Frame :=
  let parts := splitPipe spec
  if (part parts 0).isEmpty then []
  else
    let uri := ascii "mailto:" ++ part parts 0
    let firstQuery := (part parts 1).isEmpty
    let uri := if (part parts 1).isEmpty then uri
      else uri ++ ascii "?" ++ ascii "subject=" ++ writerUrlComponentEncode (part parts 1)
    let uri := if (part parts 2).isEmpty then uri
      else uri ++ ascii (if firstQuery then "?" else "&") ++ ascii "body=" ++ writerUrlComponentEncode (part parts 2)
    buildNdefUriRecord uri

/-- `BuildWriterSmsRecord`. -/
def buildWriterSmsRecord (spec : Frame) : Frame :=
  let parts := splitPipe spec
  if (part parts 0).isEmpty then []
  else
    let uri := ascii "sms:" ++ part parts 0
    let uri := if (part parts 1).isEmpty then uri else uri ++ ascii "?body=" ++ writerUrlComponentEncode (part parts 1)
    buildNdefUriRecord uri

/-! ### Reading a URI -/

/-- The value of a hex digit. -/
def hexValue (ch : Byte) : Byte := if ch ≤ 0x39 then ch - 0x30 else (ch &&& 0xDF) - 0x37

/-- Percent-encoding with the characters above left plain. -/
def urlCode : PercentQuery.Code Byte where
  pct := percent
  plain := unreserved
  digits c := (u8At (hexByte c) 0, u8At (hexByte c) 1)
  value hi lo := hexValue hi <<< 4 ||| hexValue lo
  pct_not_plain := rfl
  value_digits := by decide

theorem writerUrlComponentEncode_eq : writerUrlComponentEncode = urlCode.encode := rfl

/-- A URI taken apart, without its fragment. -/
structure UriParts where
  scheme : Frame
  path : Frame
  params : List (Frame × Frame)
  deriving DecidableEq

/-- The scheme ends at a colon, the path at a question mark, both at the latest where a fragment starts; the query is
split into fields, and these are percent-decoded. -/
def readUri (uri : Frame) : UriParts :=
  let (scheme, rest) := PercentQuery.cut 0x3A (uri.takeWhile (· ≠ 0x23))
  { scheme
    path := rest.takeWhile (· ≠ 0x3F)
    params := match rest.dropWhile (· ≠ 0x3F) with
      | [] => []
      | _ :: query => (PercentQuery.fields 0x26 0x3D query).map fun param =>
          (urlCode.decode param.1, urlCode.decode param.2) }

/-! ### What is built -/

/-- A part of a value, which holds no separator. -/
abbrev Field := {text : Frame // bar ∉ text}

/-- What one of the two builders is asked for. -/
inductive Message where
  | mail (address subject body : Field)
  | sms (number body : Field)
  deriving DecidableEq

/-- A field of the query, left out when it is empty. -/
def param (name value : Frame) : List (Frame × Frame) := if value = [] then [] else [(name, value)]

namespace Message

/-- The value of the option. -/
def spec : Message → Frame
  | mail address subject body => address.1 ++ bar :: (subject.1 ++ bar :: body.1)
  | sms number body => number.1 ++ bar :: body.1

def record (m : Message) : Frame :=
  match m with
  | mail _ _ _ => buildWriterMailRecord m.spec
  | sms _ _ => buildWriterSmsRecord m.spec

def scheme : Message → Frame
  | mail _ _ _ => ascii "mailto"
  | sms _ _ => ascii "sms"

def address : Message → Frame
  | mail address _ _ => address.1
  | sms number _ => number.1

/-- The fields that the query is to have. -/
def params : Message → List (Frame × Frame)
  | mail _ subject body => param (ascii "subject") subject.1 ++ param (ascii "body") body.1
  | sms _ body => param (ascii "body") body.1

/-- The parts that a reader of the URI is to find. -/
def parts (m : Message) : UriParts := ⟨m.scheme, m.address, m.params⟩

def query (m : Message) : Frame :=
  if m.params = [] then []
  else 0x3F :: PercentQuery.join 0x26 0x3D (m.params.map fun param => (param.1, writerUrlComponentEncode param.2))

def uri (m : Message) : Frame := m.scheme ++ 0x3A :: (m.address ++ m.query)

end Message

theorem splitPipe_two (a b : Field) : splitPipe (a.1 ++ bar :: b.1) = [a.1, b.1] := by
  rw [splitPipe, List.splitOn_append_cons_self_of_not_mem a.2, List.splitOn_eq_singleton b.2]

theorem splitPipe_three (a b c : Field) : splitPipe (a.1 ++ bar :: (b.1 ++ bar :: c.1)) = [a.1, b.1, c.1] := by
  rw [splitPipe, List.splitOn_append_cons_self_of_not_mem a.2, List.splitOn_append_cons_self_of_not_mem b.2,
    List.splitOn_eq_singleton c.2]

/-- Without an address there is no record. -/
theorem Message.record_nil {m : Message} (h : m.address = []) : m.record = [] := by
  cases m with
  | mail address subject body =>
      have haddress : address.1 = [] := h
      rw [record, spec, buildWriterMailRecord, splitPipe_three]
      simp only [part, List.getD_cons_zero, List.isEmpty_iff]
      rw [if_pos haddress]
  | sms number body =>
      have haddress : number.1 = [] := h
      rw [record, spec, buildWriterSmsRecord, splitPipe_two]
      simp only [part, List.getD_cons_zero, List.isEmpty_iff]
      rw [if_pos haddress]

/-- **The URI that a record is built from.** -/
theorem Message.record_eq {m : Message} (h : m.address ≠ []) : m.record = buildNdefUriRecord m.uri := by
  cases m with
  | mail address subject body =>
      have haddress : address.1 ≠ [] := h
      rw [record, spec, buildWriterMailRecord, splitPipe_three]
      simp only [part, List.getD_cons_zero, List.getD_cons_succ, List.isEmpty_iff]
      rw [if_neg haddress]
      congr 1
      by_cases hsubject : subject.1 = [] <;> by_cases hbody : body.1 = [] <;>
        simp [uri, scheme, query, params, param, hsubject, hbody, Message.address, PercentQuery.join, ascii]
  | sms number body =>
      have haddress : number.1 ≠ [] := h
      rw [record, spec, buildWriterSmsRecord, splitPipe_two]
      simp only [part, List.getD_cons_zero, List.getD_cons_succ, List.isEmpty_iff]
      rw [if_neg haddress]
      congr 1
      by_cases hbody : body.1 = [] <;>
        simp [uri, scheme, query, params, param, hbody, Message.address, PercentQuery.join, ascii]

/-! ### Reading it back -/

/-- The characters of an encoded component. -/
theorem mem_encoded {text : Frame} {c : Byte} (h : c ∈ writerUrlComponentEncode text) :
    unreserved c = true ∨ c = percent ∨ isHexDigit c = true := by
  rw [writerUrlComponentEncode_eq] at h
  rcases PercentQuery.Code.mem_encode h with hplain | hpct | ⟨b, hdigit⟩
  · exact Or.inl hplain
  · exact Or.inr (Or.inl hpct)
  · have hall : ∀ b : Byte, isHexDigit (u8At (hexByte b) 0) = true ∧ isHexDigit (u8At (hexByte b) 1) = true := by
      decide
    rcases hdigit with rfl | rfl
    · exact Or.inr (Or.inr (hall b).1)
    · exact Or.inr (Or.inr (hall b).2)

/-- No character that takes a URI apart occurs in an encoded component. -/
theorem notMem_encoded {sep : Byte} (hsep : sep ∈ [0x23, 0x26, 0x3D, 0x3F] ) (text : Frame) :
    sep ∉ writerUrlComponentEncode text := by
  have hall : ∀ sep ∈ ([0x23, 0x26, 0x3D, 0x3F] : List Byte),
      unreserved sep = false ∧ sep ≠ percent ∧ isHexDigit sep = false := by decide
  obtain ⟨hplain, hpct, hdigit⟩ := hall sep hsep
  intro h
  rcases mem_encoded h with h | h | h
  · rw [hplain] at h
    cases h
  · exact hpct h
  · rw [hdigit] at h
    cases h

/-- No character in the address ends the path. -/
def Message.Clean (m : Message) : Prop := 0x3F ∉ m.address ∧ 0x23 ∉ m.address

instance (m : Message) : Decidable m.Clean := inferInstanceAs (Decidable (_ ∧ _))

/-- A record built from a message is parsed as one URI record, whose URI has the message's parts. -/
def Message.ParsesBack (m : Message) : Prop :=
  ∃ summary uri, parseNdefRecords m.record = [summary] ∧ summary.decoded = some uri ∧ readUri uri = m.parts

/-- A path holds no character that ends it. -/
theorem readUri_path (uri : Frame) : 0x3F ∉ (readUri uri).path ∧ 0x23 ∉ (readUri uri).path := by
  refine ⟨PercentQuery.notMem_takeWhile _ _, fun h => ?_⟩
  have hrest : 0x23 ∈ (PercentQuery.cut 0x3A (uri.takeWhile (· ≠ 0x23))).2 := (List.takeWhile_prefix _).subset h
  exact PercentQuery.notMem_takeWhile _ _ ((List.dropWhile_suffix _).subset (List.mem_of_mem_tail hrest))

theorem Message.name_of_params {m : Message} {p : Frame × Frame} (h : p ∈ m.params) :
    p.1 = ascii "subject" ∨ p.1 = ascii "body" := by
  have hparam : ∀ {name value : Frame}, p ∈ param name value → p.1 = name := by
    intro name value hp
    rw [param] at hp
    split at hp
    · cases hp
    · rw [List.mem_singleton.mp hp]
  cases m with
  | mail address subject body =>
      rcases List.mem_append.mp h with h | h
      · exact Or.inl (hparam h)
      · exact Or.inr (hparam h)
  | sms number body => exact Or.inr (hparam h)

/-- The fields as they stand in the query. -/
def Message.encodedParams (m : Message) : List (Frame × Frame) :=
  m.params.map fun param => (param.1, writerUrlComponentEncode param.2)

theorem Message.encodedParams_spec {m : Message} {p : Frame × Frame} (h : p ∈ m.encodedParams) :
    ∃ value, p.2 = writerUrlComponentEncode value ∧
      (0x26 ∉ p.1 ∧ 0x3D ∉ p.1) ∧ 0x23 ∉ p.1 ∧ urlCode.decode p.1 = p.1 := by
  obtain ⟨param, hparam, rfl⟩ := List.mem_map.mp h
  refine ⟨param.2, rfl, ?_⟩
  rcases m.name_of_params hparam with hname | hname
  · dsimp only
    rw [hname]
    decide
  · dsimp only
    rw [hname]
    decide

/-- The fields of the query are read and decoded. -/
theorem Message.fields_query {m : Message} (hne : m.params ≠ []) :
    (PercentQuery.fields 0x26 0x3D (PercentQuery.join 0x26 0x3D m.encodedParams)).map
      (fun param => (urlCode.decode param.1, urlCode.decode param.2)) = m.params := by
  rw [PercentQuery.fields_join]
  · rw [encodedParams, List.map_map]
    refine (List.map_congr_left fun param hparam => ?_).trans (List.map_id m.params)
    obtain ⟨value, -, -, -, hname⟩ := m.encodedParams_spec (List.mem_map.mpr ⟨param, hparam, rfl⟩)
    exact Prod.ext hname (PercentQuery.Code.decode_encode param.2)
  · rwa [encodedParams, ne_eq, List.map_eq_nil_iff]
  · decide
  · intro param hparam
    obtain ⟨value, -, hname, -⟩ := m.encodedParams_spec hparam
    exact hname
  · intro param hparam
    obtain ⟨value, hvalue, -⟩ := m.encodedParams_spec hparam
    rw [hvalue]
    exact notMem_encoded (by decide) value

/-- No fragment starts in the query. -/
theorem Message.notMem_query (m : Message) : 0x23 ∉ m.query := by
  rw [query]
  split
  · exact List.not_mem_nil
  · intro h
    rcases List.mem_cons.mp h with h | h
    · cases h
    rcases PercentQuery.mem_join h with h | h | ⟨p, hp, hfield⟩
    · cases h
    · cases h
    · obtain ⟨value, hvalue, -, hname, -⟩ := m.encodedParams_spec hp
      rcases hfield with h | h
      · exact hname h
      · rw [hvalue] at h
        exact notMem_encoded (by decide) value h

/-- **The URI of a clean message has the message's parts.** -/
theorem Message.readUri_uri {m : Message} (h : m.Clean) : readUri m.uri = m.parts := by
  obtain ⟨hquestion, hhash⟩ := h
  have hscheme : 0x23 ∉ m.scheme ∧ 0x3A ∉ m.scheme := by
    cases m with
    | mail address subject body =>
        show 0x23 ∉ ascii "mailto" ∧ 0x3A ∉ ascii "mailto"
        decide
    | sms number body =>
        show 0x23 ∉ ascii "sms" ∧ 0x3A ∉ ascii "sms"
        decide
  have hfragment : 0x23 ∉ m.uri := by
    rw [uri, List.mem_append, List.mem_cons, List.mem_append]
    rintro (h | h | h | h)
    · exact hscheme.1 h
    · cases h
    · exact hhash h
    · exact m.notMem_query h
  rw [readUri, (PercentQuery.takeWhile_of_notMem hfragment).1, uri, PercentQuery.cut_append hscheme.2]
  dsimp only
  by_cases hne : m.params = []
  · obtain ⟨htake, hdrop⟩ := PercentQuery.takeWhile_of_notMem hquestion
    rw [query, if_pos hne, List.append_nil, htake, hdrop, parts, hne]
  · obtain ⟨htake, hdrop⟩ := PercentQuery.takeWhile_append_sep hquestion (PercentQuery.join 0x26 0x3D m.encodedParams)
    rw [query, if_neg hne, ← encodedParams, htake, hdrop, parts, ← m.fields_query hne]

/-- A record is parsed as the one URI record it is. -/
theorem parse_record {m : Message} (h : m.record ≠ []) :
    ∃ summary, parseNdefRecords m.record = [summary] ∧ summary.decoded = some m.uri := by
  have haddress : m.address ≠ [] := fun haddress => h (m.record_nil haddress)
  rw [m.record_eq haddress] at h ⊢
  obtain ⟨r, -, hbytes, hshown⟩ := buildNdefUriRecord_spec h
  refine ⟨summaryOf r, ?_, hshown⟩
  have hlen := r.length_bytes_le true true
  have hparse : parseNdefRecordsFrom ([] ++ ShortRecord.message true [r]) (r.bytes true true).length [] 0
      ([] : Frame).length = [] ++ [r].map summaryOf := by
    apply parse_message
    · rw [ShortRecord.length_bytes, List.length_singleton]
      omega
    · exact (by decide : 1 ≤ maxRecords)
    · exact Nat.zero_le _
    · rw [ShortRecord.message, ShortRecord.message, List.nil_append, List.append_nil, uint16Max, List.isEmpty_nil]
      omega
  rw [ShortRecord.message, ShortRecord.message, List.nil_append, List.append_nil, List.isEmpty_nil] at hparse
  rw [hbytes, parseNdefRecords, if_neg (by rw [maxTotalBytes, uint16Max]; omega)]
  exact hparse

theorem parsesBack_of_uri {m : Message} (h : m.record ≠ []) : m.ParsesBack ↔ readUri m.uri = m.parts := by
  obtain ⟨summary, hparse, hdecoded⟩ := parse_record h
  constructor
  · rintro ⟨summary', uri, hparse', hdecoded', hparts⟩
    rw [hparse] at hparse'
    obtain rfl := List.singleton_inj.mp hparse'
    rw [hdecoded] at hdecoded'
    obtain rfl := Option.some.inj hdecoded'
    exact hparts
  · intro hparts
    exact ⟨summary, m.uri, hparse, hdecoded, hparts⟩

theorem parsesBack_iff_clean {m : Message} (h : m.record ≠ []) : m.ParsesBack ↔ m.Clean := by
  rw [parsesBack_of_uri h]
  constructor
  · intro hparts
    have hpath := readUri_path m.uri
    rw [hparts] at hpath
    exact hpath
  · exact m.readUri_uri

theorem lookup_param {name : Frame} (value : Frame) {rest : List (Frame × Frame)} (h : rest.lookup name = none) :
    ((param name value ++ rest).lookup name).getD [] = value := by
  rw [param]
  split
  · rename_i hempty
    rw [List.nil_append, h, hempty]
    rfl
  · rw [List.singleton_append, List.lookup_cons_self, Option.getD_some]

theorem lookup_param_alone (name value : Frame) : ((param name value).lookup name).getD [] = value := by
  have hfound : ((param name value ++ []).lookup name).getD [] = value := lookup_param value rfl
  rwa [List.append_nil] at hfound

theorem lookup_param_ne {name other : Frame} (h : name ≠ other) (value : Frame) (rest : List (Frame × Frame)) :
    (param other value ++ rest).lookup name = rest.lookup name := by
  rw [param]
  split
  · rw [List.nil_append]
  · rw [List.singleton_append, List.lookup_cons, beq_false_of_ne h]

/-- The parts of a message say which message it is. -/
theorem Message.eq_of_parts {m m' : Message} (h : m.parts = m'.parts) : m = m' := by
  have hscheme : m.scheme = m'.scheme := congrArg UriParts.scheme h
  have haddress : m.address = m'.address := congrArg UriParts.path h
  have hparams : m.params = m'.params := congrArg UriParts.params h
  have hnames : ascii "subject" ≠ ascii "body" := by decide
  cases m with
  | mail address subject body =>
      cases m' with
      | mail address' subject' body' =>
          obtain rfl := Subtype.ext haddress
          have hboth : subject.1 = subject'.1 ∧ body.1 = body'.1 := by
            have hsubject := congrArg (fun params => (params.lookup (ascii "subject")).getD []) hparams
            have hbody := congrArg (fun params => (params.lookup (ascii "body")).getD []) hparams
            have hlast : ∀ value, (param (ascii "body") value).lookup (ascii "subject") = none := by
              intro value
              have hrest := lookup_param_ne hnames value []
              rwa [List.append_nil] at hrest
            simp only [params] at hsubject hbody
            rw [lookup_param _ (hlast _), lookup_param _ (hlast _)] at hsubject
            rw [lookup_param_ne hnames.symm, lookup_param_ne hnames.symm, lookup_param_alone,
              lookup_param_alone] at hbody
            exact ⟨hsubject, hbody⟩
          obtain rfl := Subtype.ext hboth.1
          obtain rfl := Subtype.ext hboth.2
          rfl
      | sms number body' =>
          have hne : ascii "mailto" ≠ ascii "sms" := by decide
          exact absurd hscheme hne
  | sms number body =>
      cases m' with
      | mail address' subject' body' =>
          have hne : ascii "sms" ≠ ascii "mailto" := by decide
          exact absurd hscheme hne
      | sms number' body' =>
          obtain rfl := Subtype.ext haddress
          have hbody := congrArg (fun params => (params.lookup (ascii "body")).getD []) hparams
          simp only [params] at hbody
          rw [lookup_param_alone, lookup_param_alone] at hbody
          obtain rfl := Subtype.ext hbody
          rfl

end NeroReader.HostWriter
