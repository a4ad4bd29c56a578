import Mathlib.Data.List.Basic

/-!
Streams of type-length-value blocks, with one length byte up to 254 and three from there on, null bytes
between the blocks and a terminator behind the last. Reading such a stream from the front either reaches
a block, or the terminator, or the end, or a block that is cut off. What a prefix of a stream already
says is final unless the prefix ends inside a block or without a terminator (`find_append`).
-/

namespace Tlv

abbrev Octet := BitVec 8

def nullType : Octet := 0x00
def terminatorType : Octet := 0xFE
def longForm : Octet := 0xFF

/-- What comes first in a stream. -/
inductive Head where
  | finished
  | terminator
  | truncated
  | block (type : Octet) (value rest : List Octet)
  deriving DecidableEq, Repr

def splitLong : List Octet → Option (Nat × List Octet)
  | hi :: lo :: rest => some (256 * hi.toNat + lo.toNat, rest)
  | _ => none

/-- The length field, and what stands behind it. -/
def splitLength : List Octet → Option (Nat × List Octet)
  | [] => none
  | first :: rest => if first = longForm then splitLong rest else some (first.toNat, rest)

def splitValue (type : Octet) (rest : List Octet) : Head :=
  match splitLength rest with
  | none => .truncated
  | some (n, rest) => if n ≤ rest.length then .block type (rest.take n) (rest.drop n) else .truncated

def head : List Octet → Head
  | [] => .finished
  | type :: rest =>
      if type = nullType then head rest
      else if type = terminatorType then .terminator
      else splitValue type rest

theorem splitLong_eq_some {stream rest : List Octet} {n : Nat} (h : splitLong stream = some (n, rest)) :
    ∃ hi lo : Octet, stream = hi :: lo :: rest ∧ n = 256 * hi.toNat + lo.toNat := by
  match stream, h with
  | hi :: lo :: tail, h =>
      simp only [splitLong, Option.some.injEq, Prod.mk.injEq] at h
      obtain ⟨rfl, rfl⟩ := h
      exact ⟨hi, lo, rfl, rfl⟩

theorem splitLength_length {stream rest : List Octet} {n : Nat} (h : splitLength stream = some (n, rest)) :
    rest.length < stream.length := by
  cases stream with
  | nil => simp [splitLength] at h
  | cons first stream =>
      rw [splitLength] at h
      split at h
      · obtain ⟨hi, lo, rfl, -⟩ := splitLong_eq_some h
        simp only [List.length_cons]
        omega
      · simp only [Option.some.injEq, Prod.mk.injEq] at h
        obtain ⟨-, rfl⟩ := h
        exact Nat.lt_succ_self _

theorem splitValue_length {type t : Octet} {stream value rest : List Octet}
    (h : splitValue type stream = .block t value rest) : rest.length < stream.length := by
  unfold splitValue at h
  split at h
  · simp at h
  · rename_i n behind hsplit
    split at h
    · simp only [Head.block.injEq] at h
      obtain ⟨-, -, rfl⟩ := h
      have hbehind := splitLength_length hsplit
      simp only [List.length_drop]
      omega
    · simp at h

theorem head_length {type : Octet} {stream value rest : List Octet} (h : head stream = .block type value rest) :
    rest.length < stream.length := by
  induction stream with
  | nil => simp [head] at h
  | cons first stream ih =>
      rw [head] at h
      split at h
      · exact Nat.lt_succ_of_lt (ih h)
      split at h
      · simp at h
      · exact Nat.lt_succ_of_lt (splitValue_length h)

/-- What looking for a block of one type in a stream comes to. -/
inductive Found where
  | value (value : List Octet)
  | terminated
  | exhausted
  | truncated
  deriving DecidableEq, Repr

/-- The first block of the wanted type, other blocks stepped over. -/
def find (wanted : Octet) (stream : List Octet) : Found :=
  match _h : head stream with
  | .finished => .exhausted
  | .terminator => .terminated
  | .truncated => .truncated
  | .block type value rest => if type = wanted then .value value else find wanted rest
termination_by stream.length
decreasing_by exact head_length _h

section Find

variable {wanted type : Octet} {stream value rest : List Octet}

theorem find_of_finished (h : head stream = .finished) : find wanted stream = .exhausted := by
  rw [find]
  split <;> simp_all

theorem find_of_terminator (h : head stream = .terminator) : find wanted stream = .terminated := by
  rw [find]
  split <;> simp_all

theorem find_of_truncated (h : head stream = .truncated) : find wanted stream = .truncated := by
  rw [find]
  split <;> simp_all

theorem find_of_block (h : head stream = .block type value rest) :
    find wanted stream = if type = wanted then .value value else find wanted rest := by
  rw [find]
  split <;> simp_all

end Find

/-! ### Reading a prefix -/

theorem splitLength_append {stream rest : List Octet} {n : Nat} (more : List Octet)
    (h : splitLength stream = some (n, rest)) : splitLength (stream ++ more) = some (n, rest ++ more) := by
  cases stream with
  | nil => simp [splitLength] at h
  | cons first stream =>
      rw [List.cons_append, splitLength]
      rw [splitLength] at h
      by_cases hlong : first = longForm
      · rw [if_pos hlong] at h ⊢
        obtain ⟨hi, lo, rfl, rfl⟩ := splitLong_eq_some h
        rfl
      · rw [if_neg hlong] at h ⊢
        simp only [Option.some.injEq, Prod.mk.injEq] at h
        obtain ⟨rfl, rfl⟩ := h
        rfl

theorem splitValue_append {type t : Octet} {stream value rest : List Octet} (more : List Octet)
    (h : splitValue type stream = .block t value rest) :
    splitValue type (stream ++ more) = .block t value (rest ++ more) := by
  unfold splitValue at h
  split at h
  · simp at h
  · rename_i n behind hsplit
    split at h
    · rename_i hfits
      simp only [Head.block.injEq] at h
      obtain ⟨rfl, rfl, rfl⟩ := h
      have hmore : n ≤ (behind ++ more).length := by
        rw [List.length_append]
        omega
      rw [splitValue, splitLength_append more hsplit]
      show (if _ then _ else _) = _
      rw [if_pos hmore, List.take_append_of_le_length hfits, List.drop_append_of_le_length hfits]
    · simp at h

theorem head_append_block {type : Octet} {stream value rest : List Octet} (more : List Octet)
    (h : head stream = .block type value rest) : head (stream ++ more) = .block type value (rest ++ more) := by
  induction stream with
  | nil => simp [head] at h
  | cons first stream ih =>
      rw [List.cons_append, head]
      rw [head] at h
      by_cases hnull : first = nullType
      · rw [if_pos hnull] at h ⊢
        exact ih h
      rw [if_neg hnull] at h ⊢
      by_cases hterm : first = terminatorType
      · rw [if_pos hterm] at h
        simp at h
      · rw [if_neg hterm] at h ⊢
        exact splitValue_append more h

theorem head_append_terminator {stream : List Octet} (more : List Octet) (h : head stream = .terminator) :
    head (stream ++ more) = .terminator := by
  induction stream with
  | nil => simp [head] at h
  | cons first stream ih =>
      rw [List.cons_append, head]
      rw [head] at h
      by_cases hnull : first = nullType
      · rw [if_pos hnull] at h ⊢
        exact ih h
      rw [if_neg hnull] at h ⊢
      by_cases hterm : first = terminatorType
      · rw [if_pos hterm]
      · rw [if_neg hterm] at h
        unfold splitValue at h
        split at h
        · simp at h
        · split at h <;> simp at h

/-- A result that reading more of the stream does not change. -/
def Found.Final : Found → Prop
  | .value _ | .terminated => True
  | .exhausted | .truncated => False

/-- **A prefix that has found the block, or a terminator before it, has settled the search.** -/
theorem find_append {wanted : Octet} (stream more : List Octet) (h : (find wanted stream).Final) :
    find wanted (stream ++ more) = find wanted stream := by
  induction stream using (measure List.length).wf.induction with
  | _ stream ih =>
      cases hhead : head stream with
      | finished => simp [find_of_finished hhead, Found.Final] at h
      | truncated => simp [find_of_truncated hhead, Found.Final] at h
      | terminator =>
          rw [find_of_terminator hhead, find_of_terminator (head_append_terminator more hhead)]
      | block type value rest =>
          rw [find_of_block hhead] at h ⊢
          rw [find_of_block (head_append_block more hhead)]
          by_cases hwanted : type = wanted
          · rw [if_pos hwanted, if_pos hwanted]
          · rw [if_neg hwanted] at h ⊢
            rw [if_neg hwanted]
            exact ih rest (head_length hhead) h

/-! ### Blocks and what may stand before one -/

/-- `field` states the length `n`, in one byte or in three. -/
inductive LengthField : List Octet → Nat → Prop where
  | short {n : Octet} (h : n ≠ longForm) : LengthField [n] n.toNat
  | long (hi lo : Octet) : LengthField [longForm, hi, lo] (256 * hi.toNat + lo.toNat)

theorem LengthField.length_pos {field : List Octet} {n : Nat} (h : LengthField field n) : 0 < field.length := by
  cases h with
  | short h => exact Nat.succ_pos _
  | long hi lo => exact Nat.succ_pos _

/-- Null bytes and complete blocks of types other than `wanted`. -/
inductive Foreign (wanted : Octet) : List Octet → Prop where
  | nil : Foreign wanted []
  | null {stream : List Octet} (rest : Foreign wanted stream) : Foreign wanted (nullType :: stream)
  | block {type : Octet} {field value stream : List Octet} (hnull : type ≠ nullType)
      (hterm : type ≠ terminatorType) (hwanted : type ≠ wanted) (hfield : LengthField field value.length)
      (rest : Foreign wanted stream) : Foreign wanted (type :: field ++ value ++ stream)

/-- A single block with a short length. -/
theorem Foreign.short {wanted type n : Octet} {value : List Octet} (hnull : type ≠ nullType)
    (hterm : type ≠ terminatorType) (hwanted : type ≠ wanted) (hn : n ≠ longForm) (hlen : value.length = n.toNat) :
    Foreign wanted (type :: n :: value) := by
  have hfield := LengthField.short hn
  rw [← hlen] at hfield
  have hblock := Foreign.block hnull hterm hwanted hfield .nil
  rwa [List.append_nil] at hblock

theorem splitLength_field {field : List Octet} {n : Nat} (h : LengthField field n) (rest : List Octet) :
    splitLength (field ++ rest) = some (n, rest) := by
  cases h with
  | short h => exact if_neg h
  | long hi lo => rfl

theorem head_block {type : Octet} {field value : List Octet} (hnull : type ≠ nullType)
    (hterm : type ≠ terminatorType) (hfield : LengthField field value.length) (rest : List Octet) :
    head (type :: field ++ value ++ rest) = .block type value rest := by
  have hfits : value.length ≤ (value ++ rest).length := by simp
  rw [List.cons_append, List.cons_append, List.append_assoc, head, if_neg hnull, if_neg hterm, splitValue,
    splitLength_field hfield]
  show (if _ then _ else _) = _
  rw [if_pos hfits, List.take_left, List.drop_left]

theorem find_other_block {wanted type : Octet} {field value : List Octet} (hnull : type ≠ nullType)
    (hterm : type ≠ terminatorType) (hwanted : type ≠ wanted) (hfield : LengthField field value.length)
    (rest : List Octet) : find wanted (type :: field ++ value ++ rest) = find wanted rest := by
  rw [find_of_block (head_block hnull hterm hfield rest), if_neg hwanted]

theorem find_null {wanted : Octet} (rest : List Octet) : find wanted (nullType :: rest) = find wanted rest := by
  rw [find.eq_def, find.eq_def]
  rfl

/-- **Foreign blocks are stepped over**, whatever bytes their values hold. -/
theorem find_foreign {wanted : Octet} {before : List Octet} (h : Foreign wanted before) (rest : List Octet) :
    find wanted (before ++ rest) = find wanted rest := by
  induction h with
  | nil => rfl
  | null _ ih => rw [List.cons_append, find_null, ih]
  | block hnull hterm hwanted hfield _ ih =>
      rw [List.append_assoc, find_other_block hnull hterm hwanted hfield, ih]

theorem find_block {wanted : Octet} {field value : List Octet} (hnull : wanted ≠ nullType)
    (hterm : wanted ≠ terminatorType) (hfield : LengthField field value.length) (rest : List Octet) :
    find wanted (wanted :: field ++ value ++ rest) = .value value := by
  rw [find_of_block (head_block hnull hterm hfield rest), if_pos rfl]

theorem splitLength_take {field : List Octet} {n k : Nat} (h : LengthField field n) (hk : k < field.length) :
    splitLength (field.take k) = none := by
  cases h with
  | short h =>
      obtain rfl : k = 0 := Nat.lt_one_iff.mp hk
      rfl
  | long hi lo =>
      match k, hk with
      | 0, _ => rfl
      | 1, _ => rfl
      | 2, _ => rfl

/-- A block that is cut off is not reported, and neither is anything else. -/
theorem head_take_block {type : Octet} {field value : List Octet} (hnull : type ≠ nullType)
    (hterm : type ≠ terminatorType) (hfield : LengthField field value.length) {n : Nat}
    (hn : n < (type :: field ++ value).length) :
    head ((type :: field ++ value).take n) = .finished ∨ head ((type :: field ++ value).take n) = .truncated := by
  cases n with
  | zero => exact Or.inl rfl
  | succ n =>
      right
      rw [List.cons_append, List.take_succ_cons, head, if_neg hnull, if_neg hterm]
      rw [List.cons_append, List.length_cons, List.length_append] at hn
      by_cases hbehind : field.length ≤ n
      · have hshort : ¬ value.length ≤ (value.take (n - field.length)).length := by
          rw [List.length_take]
          omega
        rw [List.take_append, List.take_of_length_le hbehind, splitValue, splitLength_field hfield]
        exact if_neg hshort
      · rw [List.take_append_of_le_length (Nat.le_of_not_le hbehind), splitValue,
          splitLength_take hfield (Nat.lt_of_not_le hbehind)]

/-- **A message that is not complete is not found**, and nothing else is found in its place. -/
theorem not_final_take {wanted : Octet} {before field value : List Octet} (hnull : wanted ≠ nullType)
    (hterm : wanted ≠ terminatorType) (h : Foreign wanted before) (hfield : LengthField field value.length) :
    ∀ n < (before ++ (wanted :: field ++ value)).length,
      ¬ (find wanted ((before ++ (wanted :: field ++ value)).take n)).Final := by
  have hcut : ∀ {stream : List Octet}, head stream = .finished ∨ head stream = .truncated →
      ¬ (find wanted stream).Final := by
    rintro stream (hhead | hhead)
    · rw [find_of_finished hhead]
      exact id
    · rw [find_of_truncated hhead]
      exact id
  induction h with
  | nil =>
      intro n hn
      exact hcut (head_take_block hnull hterm hfield hn)
  | @null stream _ ih =>
      intro n hn
      cases n with
      | zero => exact hcut (Or.inl rfl)
      | succ n =>
          rw [List.cons_append, List.length_cons, Nat.succ_lt_succ_iff] at hn
          rw [List.cons_append, List.take_succ_cons, find_null]
          exact ih n hn
  | @block type own content stream hnull' hterm' hwanted hown _ ih =>
      intro n hn
      rw [List.append_assoc] at hn ⊢
      by_cases hinside : n < (type :: own ++ content).length
      · rw [List.take_append_of_le_length (Nat.le_of_lt hinside)]
        exact hcut (head_take_block hnull' hterm' hown hinside)
      · rw [List.length_append] at hn
        rw [List.take_append, List.take_of_length_le (Nat.le_of_not_lt hinside),
          find_other_block hnull' hterm' hwanted hown]
        exact ih _ (by omega)

theorem splitLength_eq_some {stream rest : List Octet} {n : Nat} (h : splitLength stream = some (n, rest)) :
    ∃ field, LengthField field n ∧ stream = field ++ rest := by
  cases stream with
  | nil => simp [splitLength] at h
  | cons first stream =>
      rw [splitLength] at h
      by_cases hlong : first = longForm
      · rw [if_pos hlong] at h
        obtain ⟨hi, lo, rfl, rfl⟩ := splitLong_eq_some h
        exact ⟨[longForm, hi, lo], .long hi lo, by rw [hlong]; rfl⟩
      · rw [if_neg hlong, Option.some.injEq, Prod.mk.injEq] at h
        obtain ⟨rfl, rfl⟩ := h
        exact ⟨[first], .short hlong, rfl⟩

theorem splitValue_eq_block {type t : Octet} {stream value rest : List Octet}
    (h : splitValue type stream = .block t value rest) :
    t = type ∧ ∃ field, LengthField field value.length ∧ stream = field ++ value ++ rest := by
  unfold splitValue at h
  split at h
  · simp at h
  · rename_i n behind hsplit
    split at h
    · rename_i hfits
      simp only [Head.block.injEq] at h
      obtain ⟨rfl, rfl, rfl⟩ := h
      obtain ⟨field, hfield, rfl⟩ := splitLength_eq_some hsplit
      refine ⟨rfl, field, ?_, ?_⟩
      · rwa [List.length_take, Nat.min_eq_left hfits]
      · rw [List.append_assoc, List.take_append_drop]
    · simp at h

theorem splitValue_ne_finished (type : Octet) (stream : List Octet) : splitValue type stream ≠ .finished := by
  unfold splitValue
  split
  · simp
  · split <;> simp

theorem splitValue_ne_terminator (type : Octet) (stream : List Octet) : splitValue type stream ≠ .terminator := by
  unfold splitValue
  split
  · simp
  · split <;> simp

theorem mem_of_head_terminator {stream : List Octet} (h : head stream = .terminator) :
    terminatorType ∈ stream := by
  induction stream with
  | nil => cases h
  | cons type stream ih =>
      rw [head] at h
      split at h
      · exact List.mem_cons_of_mem _ (ih h)
      split at h
      · rename_i hterm
        exact hterm ▸ List.mem_cons_self
      · exact absurd h (splitValue_ne_terminator type stream)

theorem block_suffix {type : Octet} {stream value rest : List Octet} (h : head stream = .block type value rest) :
    rest <:+ stream := by
  induction stream with
  | nil => cases h
  | cons first stream ih =>
      rw [head] at h
      split at h
      · exact (ih h).trans (List.suffix_cons first stream)
      split at h
      · cases h
      · obtain ⟨-, field, -, rfl⟩ := splitValue_eq_block h
        exact ⟨first :: field ++ value, rfl⟩

/-- A walk that ends at a terminator has the terminator's byte in it. -/
theorem mem_of_terminated {wanted : Octet} {stream : List Octet} (h : find wanted stream = .terminated) :
    terminatorType ∈ stream := by
  induction stream using (measure List.length).wf.induction with
  | _ stream ih =>
      cases hhead : head stream with
      | finished => simp [find_of_finished hhead] at h
      | truncated => simp [find_of_truncated hhead] at h
      | terminator => exact mem_of_head_terminator hhead
      | block type value rest =>
          rw [find_of_block hhead] at h
          by_cases hwanted : type = wanted
          · rw [if_pos hwanted] at h
            cases h
          · rw [if_neg hwanted] at h
            exact (block_suffix hhead).subset (ih rest (head_length hhead) h)

/-- **A search runs out of input exactly when nothing but null bytes and complete foreign blocks is there.** -/
theorem find_eq_exhausted_iff {wanted : Octet} (stream : List Octet) :
    find wanted stream = .exhausted ↔ Foreign wanted stream := by
  constructor
  swap
  · intro h
    have hrest := find_foreign h []
    rwa [List.append_nil, find_of_finished (show head [] = .finished from rfl)] at hrest
  induction stream using (measure List.length).wf.induction with
  | _ stream ih =>
      intro h
      cases stream with
      | nil => exact .nil
      | cons type stream =>
          by_cases hnull : type = nullType
          · subst hnull
            rw [find_null] at h
            exact .null (ih stream (Nat.lt_succ_self _) h)
          by_cases hterm : type = terminatorType
          · rw [find_of_terminator (by rw [head, if_neg hnull, if_pos hterm])] at h
            cases h
          have hhead : head (type :: stream) = splitValue type stream := by
            rw [head, if_neg hnull, if_neg hterm]
          cases hvalue : splitValue type stream with
          | finished => exact absurd hvalue (splitValue_ne_finished type stream)
          | terminator =>
              rw [find_of_terminator (hhead.trans hvalue)] at h
              cases h
          | truncated =>
              rw [find_of_truncated (hhead.trans hvalue)] at h
              cases h
          | block t value rest =>
              rw [find_of_block (hhead.trans hvalue)] at h
              obtain ⟨rfl, field, hfield, rfl⟩ := splitValue_eq_block hvalue
              by_cases hwanted : t = wanted
              · rw [if_pos hwanted] at h
                cases h
              · rw [if_neg hwanted] at h
                have hrest := ih rest (head_length (hhead.trans hvalue)) h
                rw [← List.cons_append, ← List.cons_append]
                exact .block hnull hterm hwanted hfield hrest

end Tlv
