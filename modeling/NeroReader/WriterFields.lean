import Mathlib.Data.List.DropRight
import NeroReader.WriterPayload

/-!
Character arrays edited in place. A field of a serial command is cut to the size of its array, copied and trimmed
there; the bytes behind the new terminator stay what they were. `copyField_holds` says which text the array then holds,
and `stored_eq_iff` when that text is the whole field.
-/

namespace NeroReader.WriterPayload

def lineCap : Nat := 880 * 2 + 16

def isBlank (ch : Byte) : Bool := decide (ch ≤ 0x20)

/-- What `trim` makes of a text. -/
def trimText (s : Frame) : Frame := (s.dropWhile isBlank).rdropWhile isBlank

namespace CharArray

variable {size : Nat}

/-- Bytes copied into the array, when they lie inside it. -/
def put (dst : CharArray size) (off : Nat) (bs : Frame) : CharArray size :=
  if h : off + bs.length ≤ size then
    { bytes := dst.bytes.take off ++ (bs ++ dst.bytes.drop (off + bs.length))
      length_bytes := by
        have hlen := dst.length_bytes
        rw [List.length_append, List.length_append, List.length_take, List.length_drop]
        omega }
  else dst

/-- The blanks at the end of the text are overwritten one after another. -/
def trimEnd (s : CharArray size) : Nat → CharArray size
  | 0 => s
  | n + 1 => if isBlank (u8At s.bytes n) then (s.put n [0]).trimEnd n else s

/-- `trim`. -/
def trim (s : CharArray size) : CharArray size :=
  match boundedStrlen s.bytes size with
  | none => s
  | some n =>
      let consumed := ((s.bytes.take n).takeWhile isBlank).length
      let s := if consumed = 0 then s else s.put 0 ((s.bytes.drop consumed).take (n - consumed + 1))
      s.trimEnd (n - consumed)

/-- `copy_field`: the array left behind, and whether a field was there. -/
def copyField (dst : CharArray size) (src : Option Frame) : CharArray size × Bool :=
  if size = 0 then (dst, false)
  else
    match src with
    | none => (dst.put 0 [0], true)
    | some src =>
        if lineCap ≤ src.length then (dst.put 0 [0], false)
        else
          let n := if size ≤ src.length then size - 1 else src.length
          let dst := ((dst.put 0 (src.take n)).put n [0]).trim
          (dst, decide (u8At dst.bytes 0 ≠ 0))

/-! ### The text an array holds -/

structure Holds (s : CharArray size) (text : Frame) : Prop where
  zero_notMem : (0 : Byte) ∉ text
  bytes_eq : ∃ rest, s.bytes = text ++ 0 :: rest

namespace Holds

variable {s : CharArray size} {text : Frame}

theorem length_lt (h : s.Holds text) : text.length < size := by
  obtain ⟨rest, hrest⟩ := h.bytes_eq
  have hlen := s.length_bytes
  rw [hrest, List.length_append, List.length_cons] at hlen
  omega

theorem cText_eq (h : s.Holds text) : cText s.bytes = text := by
  obtain ⟨rest, hrest⟩ := h.bytes_eq
  rw [hrest, cText_append h.zero_notMem]

theorem boundedStrlen_eq (h : s.Holds text) : boundedStrlen s.bytes size = some text.length := by
  obtain ⟨rest, hrest⟩ := h.bytes_eq
  rw [hrest]
  exact boundedStrlen_text h.zero_notMem h.length_lt

theorem u8At_zero (h : s.Holds text) : u8At s.bytes 0 ≠ 0 ↔ text ≠ [] := by
  obtain ⟨rest, hrest⟩ := h.bytes_eq
  rw [hrest]
  cases text with
  | nil => simp [u8At]
  | cons ch text =>
      have hch : ch ≠ 0 := (List.ne_and_not_mem_of_not_mem_cons h.zero_notMem).1.symm
      simpa [u8At] using hch

/-- A text is ended where a zero is put. -/
theorem put_zero (h : s.Holds text) {n : Nat} (hn : n ≤ text.length) : (s.put n [0]).Holds (text.take n) := by
  have hsize := h.length_lt
  obtain ⟨rest, hrest⟩ := h.bytes_eq
  refine ⟨fun hmem => h.zero_notMem (List.mem_of_mem_take hmem), s.bytes.drop (n + 1), ?_⟩
  rw [put, dif_pos (by rw [List.length_singleton]; omega)]
  dsimp only
  rw [List.length_singleton, hrest, List.take_append_of_le_length hn, List.singleton_append]

/-- The text is taken to the front, with its terminator. -/
theorem move_front (h : s.Holds text) {n : Nat} (hn : n ≤ text.length) :
    (s.put 0 ((s.bytes.drop n).take (text.length - n + 1))).Holds (text.drop n) := by
  have hsize := h.length_lt
  obtain ⟨rest, hrest⟩ := h.bytes_eq
  have hmoved : (s.bytes.drop n).take (text.length - n + 1) = text.drop n ++ [0] := by
    have hall : (text.drop n ++ [0] : Frame).length = text.length - n + 1 := by simp
    rw [hrest, List.drop_append_of_le_length hn, ← List.singleton_append, ← List.append_assoc, ← hall,
      List.take_left]
  refine ⟨fun hmem => h.zero_notMem (List.mem_of_mem_drop hmem), ?_⟩
  rw [hmoved, put, dif_pos (by simp; omega)]
  dsimp only
  rw [List.take_zero, List.nil_append, List.append_assoc, List.singleton_append]
  exact ⟨_, rfl⟩

theorem trimEnd (h : s.Holds text) : (s.trimEnd text.length).Holds (text.rdropWhile isBlank) := by
  induction text using List.reverseRecOn generalizing s with
  | nil => simpa [CharArray.trimEnd] using h
  | append_singleton text ch ih =>
      have hlast : u8At s.bytes text.length = ch := by
        obtain ⟨rest, hrest⟩ := h.bytes_eq
        rw [hrest, u8At, List.append_assoc]
        simp
      rw [List.length_append, List.length_singleton, CharArray.trimEnd, hlast]
      by_cases hch : isBlank ch = true
      · rw [if_pos hch, List.rdropWhile_concat_pos _ _ _ hch]
        apply ih
        have hshorter := h.put_zero (show text.length ≤ (text ++ [ch]).length by simp)
        rwa [List.take_left] at hshorter
      · rw [if_neg hch, List.rdropWhile_concat_neg _ _ _ hch]
        exact h

theorem trim (h : s.Holds text) : s.trim.Holds (trimText text) := by
  have hlen := h.boundedStrlen_eq
  have htake : s.bytes.take text.length = text := by
    obtain ⟨rest, hrest⟩ := h.bytes_eq
    rw [hrest, List.take_left]
  have hle : (text.takeWhile isBlank).length ≤ text.length := (List.takeWhile_prefix _).length_le
  have hdrop : text.drop (text.takeWhile isBlank).length = text.dropWhile isBlank := by
    calc
      text.drop (text.takeWhile isBlank).length
          = (text.takeWhile isBlank ++ text.dropWhile isBlank).drop (text.takeWhile isBlank).length := by
            rw [List.takeWhile_append_dropWhile]
      _ = text.dropWhile isBlank := List.drop_left
  rw [CharArray.trim, hlen]
  dsimp only
  rw [htake, trimText, ← hdrop, ← List.length_drop]
  apply Holds.trimEnd
  by_cases hzero : (text.takeWhile isBlank).length = 0
  · rw [if_pos hzero, hzero, List.drop_zero]
    exact h
  · rw [if_neg hzero, List.length_drop]
    exact h.move_front hle

end Holds

/-! ### What a copied field leaves -/

/-- The text kept of a field. -/
def stored (size : Nat) (src : Frame) : Frame := trimText (src.take (size - 1))

theorem holds_put {text : Frame} (dst : CharArray size) (hzero : (0 : Byte) ∉ text) (hlen : text.length < size) :
    ((dst.put 0 text).put text.length [0]).Holds text := by
  have hbytes : (dst.put 0 text).bytes = text ++ dst.bytes.drop text.length := by
    rw [put, dif_pos (by omega)]
    simp
  refine ⟨hzero, ?_⟩
  rw [put, dif_pos (by rw [List.length_singleton]; omega)]
  dsimp only
  rw [hbytes, List.take_left, List.singleton_append]
  exact ⟨_, rfl⟩

theorem holds_empty (dst : CharArray size) (hsize : 0 < size) : (dst.put 0 [0]).Holds [] := by
  refine ⟨by simp, ?_⟩
  rw [put, dif_pos (by rw [List.length_singleton]; omega)]
  exact ⟨_, rfl⟩

/-- **A copied field**: the array holds what is kept of it, and the answer says whether that is anything. -/
theorem copyField_holds {src : Frame} (dst : CharArray size) (hsize : 0 < size) (hzero : (0 : Byte) ∉ src)
    (hlen : src.length < lineCap) :
    (dst.copyField (some src)).1.Holds (stored size src) ∧
      ((dst.copyField (some src)).2 = true ↔ stored size src ≠ []) := by
  have hn : (if size ≤ src.length then size - 1 else src.length) = (src.take (size - 1)).length := by
    rw [List.length_take]
    split <;> omega
  have htake : src.take (src.take (size - 1)).length = src.take (size - 1) := by
    rw [List.take_eq_take_iff, List.length_take]
    omega
  have hheld : (((dst.put 0 (src.take (size - 1))).put (src.take (size - 1)).length [0]).trim).Holds
      (stored size src) := by
    apply Holds.trim
    apply holds_put
    · exact fun hmem => hzero (List.mem_of_mem_take hmem)
    · rw [List.length_take]
      omega
  rw [copyField, if_neg (by omega)]
  dsimp only
  rw [if_neg (by omega), hn, htake]
  exact ⟨hheld, by rw [decide_eq_true_iff]; exact hheld.u8At_zero⟩

end CharArray

/-! ### What is lost of a field -/

theorem trimText_eq_nil {s : Frame} : trimText s = [] ↔ ∀ ch ∈ s, isBlank ch = true := by
  rw [trimText, List.rdropWhile_eq_nil_iff]
  constructor
  · intro h ch hmem
    by_contra hch
    rw [← List.takeWhile_append_dropWhile (p := isBlank) (l := s), List.mem_append] at hmem
    rcases hmem with hmem | hmem
    · exact hch (List.mem_takeWhile_imp hmem)
    · exact hch (h ch hmem)
  · intro h ch hmem
    exact h ch ((List.dropWhile_sublist _).mem hmem)

theorem rdropWhile_append_blank {a b : Frame} (h : ∀ ch ∈ b, isBlank ch = true) :
    (a ++ b).rdropWhile isBlank = a.rdropWhile isBlank := by
  induction b using List.reverseRecOn with
  | nil => rw [List.append_nil]
  | append_singleton b ch ih =>
      rw [← List.append_assoc, List.rdropWhile_concat_pos _ _ _ (h ch (by simp))]
      exact ih fun ch hmem => h ch (List.mem_append_left _ hmem)

theorem rdropWhile_append_text {a b : Frame} (h : ¬ ∀ ch ∈ b, isBlank ch = true) :
    a.length < ((a ++ b).rdropWhile isBlank).length := by
  induction b using List.reverseRecOn with
  | nil => exact absurd (by simp) h
  | append_singleton b ch ih =>
      rw [← List.append_assoc]
      by_cases hch : isBlank ch = true
      · rw [List.rdropWhile_concat_pos _ _ _ hch]
        apply ih
        intro hall
        apply h
        intro ch' hmem
        rcases List.mem_append.mp hmem with hmem | hmem
        · exact hall ch' hmem
        · rw [List.mem_singleton.mp hmem]
          exact hch
      · rw [List.rdropWhile_concat_neg _ _ _ hch]
        simp

/-- **Nothing of a field is lost** exactly when only blanks stand behind what its array takes. -/
theorem stored_eq_iff {size : Nat} {src : Frame} :
    CharArray.stored size src = trimText src ↔ ∀ ch ∈ src.drop (size - 1), isBlank ch = true := by
  have hsplit := List.take_append_drop (size - 1) src
  rw [CharArray.stored]
  generalize src.take (size - 1) = a at *
  generalize src.drop (size - 1) = b at *
  subst hsplit
  by_cases hblank : ∀ ch ∈ a, isBlank ch = true
  · rw [trimText_eq_nil.mpr hblank, eq_comm, trimText_eq_nil]
    constructor
    · exact fun h ch hmem => h ch (List.mem_append_right _ hmem)
    · intro h ch hmem
      exact (List.mem_append.mp hmem).elim (hblank ch) (h ch)
  · have hdrop : (a ++ b).dropWhile isBlank = a.dropWhile isBlank ++ b := by
      rw [List.dropWhile_append, if_neg]
      rw [List.isEmpty_iff, List.dropWhile_eq_nil_iff]
      exact hblank
    rw [trimText, trimText, hdrop]
    constructor
    · intro h
      by_contra hlost
      have hlonger := rdropWhile_append_text (a := a.dropWhile isBlank) hlost
      rw [← h] at hlonger
      exact absurd (List.rdropWhile_prefix _ _).length_le (Nat.not_le.mpr hlonger)
    · exact fun h => (rdropWhile_append_blank h).symm

end NeroReader.WriterPayload
