import Mathlib.Data.List.Basic

/-!
Percent-encoded text over any alphabet: every percent sign introduces two hex digits. Whether a text is
well formed can be read off its parts when they meet at a character that is no hex digit
(`triplets_stop`), so a text put together from fixed words and free fields is as good as its fields.
-/

namespace PercentText

variable {α : Type*} (pct : α) (hex : α → Bool)

/-- Two hex digits stand at the front. -/
def DigitsFirst : List α → Bool
  | hi :: lo :: _ => hex hi && hex lo
  | _ => false

variable {hex} in
/-- Behind a stop that is no hex digit nothing is looked at. -/
theorem digitsFirst_stop {c : α} {front rest : List α} (hc : hex c = false) :
    DigitsFirst hex (front ++ c :: rest) = DigitsFirst hex front := by
  match front with
  | [] => cases rest <;> simp [DigitsFirst, hc]
  | [x] => simp [DigitsFirst, hc]
  | x :: y :: tail => rfl

variable [DecidableEq α]

/-- Every percent sign introduces two hex digits. -/
def Triplets : List α → Bool
  | [] => true
  | c :: rest => (c != pct || DigitsFirst hex rest) && Triplets rest

/-- All characters are admitted and every percent sign introduces two hex digits. -/
def WellFormed (safe : α → Bool) (text : List α) : Bool := text.all safe && Triplets pct hex text

variable {pct hex} {c : α} {front rest : List α}

theorem triplets_cons : Triplets pct hex (c :: rest) = true ↔
    (c = pct → DigitsFirst hex rest = true) ∧ Triplets pct hex rest = true := by
  rw [Triplets, Bool.and_eq_true, Bool.or_eq_true, bne_iff_ne, imp_iff_not_or]

/-- **Text falls apart at a character that is no hex digit.** -/
theorem triplets_stop (hc : hex c = false) : Triplets pct hex (front ++ c :: rest) = true ↔
    Triplets pct hex front = true ∧ Triplets pct hex (c :: rest) = true := by
  induction front with
  | nil => simp [Triplets]
  | cons x front ih =>
      rw [List.cons_append, triplets_cons, triplets_cons, digitsFirst_stop hc, ih, and_assoc]

/-- Characters other than the percent sign in front ask for nothing. -/
theorem triplets_plain (hfront : pct ∉ front) :
    Triplets pct hex (front ++ rest) = Triplets pct hex rest := by
  induction front with
  | nil => rfl
  | cons x front ih =>
      obtain ⟨hx, hrest⟩ := List.ne_and_not_mem_of_not_mem_cons hfront
      rw [List.cons_append, Triplets, ih hrest, bne_iff_ne.mpr hx.symm, Bool.true_or, Bool.true_and]

section WellFormed

variable {safe : α → Bool}

theorem wellFormed_iff {text : List α} : WellFormed pct hex safe text = true ↔
    (∀ c ∈ text, safe c = true) ∧ Triplets pct hex text = true := by
  rw [WellFormed, Bool.and_eq_true, List.all_eq_true]

theorem wellFormed_cons : WellFormed pct hex safe (c :: rest) = true ↔
    safe c = true ∧ (c = pct → DigitsFirst hex rest = true) ∧ WellFormed pct hex safe rest = true := by
  rw [wellFormed_iff, wellFormed_iff, triplets_cons, List.forall_mem_cons]
  tauto

/-- **A fixed word in front of a field**, of admitted characters and without a percent sign. -/
theorem wellFormed_word (hsafe : front.all safe = true) (hplain : pct ∉ front) :
    WellFormed pct hex safe (front ++ rest) = WellFormed pct hex safe rest := by
  rw [WellFormed, WellFormed, List.all_append, hsafe, Bool.true_and, triplets_plain hplain]

/-- **A field in front of a fixed word** that starts with no hex digit. -/
theorem wellFormed_field (hc : hex c = false) :
    WellFormed pct hex safe (front ++ c :: rest) = true ↔
      WellFormed pct hex safe front = true ∧ WellFormed pct hex safe (c :: rest) = true := by
  rw [wellFormed_iff, wellFormed_iff, wellFormed_iff, triplets_stop hc, List.forall_mem_append]
  tauto

/-- **A fixed word between two fields**, of admitted characters, without a percent sign, and starting with no
hex digit: the text is as good as the two fields. -/
theorem wellFormed_between {field word : List α} (hstop : word.head?.map hex = some false)
    (hsafe : word.all safe = true) (hplain : pct ∉ word) :
    WellFormed pct hex safe (field ++ (word ++ rest)) = true ↔
      WellFormed pct hex safe field = true ∧ WellFormed pct hex safe rest = true := by
  cases word with
  | nil => simp at hstop
  | cons c word =>
      have hc : hex c = false := by simpa using hstop
      rw [List.cons_append, wellFormed_field hc, ← List.cons_append, wellFormed_word hsafe hplain]

end WellFormed

end PercentText
