import Mathlib.Computability.Language
import Mathlib.Order.CompletePartialOrder

/-!
Words of a language between two positions of a string. A recogniser that goes through a string by positions is
specified by the stretches it passes over; the rules follow the operations on languages, so that a recogniser made
of recognisers is specified by the product, the power or the iteration of their languages.
-/

namespace LanguageSpans

open scoped Computability

variable {α : Type} {s : List α} {L M : Language α} {i j k : Nat}

/-- The string holds a word of the language from one position up to another. -/
structure Spans (s : List α) (L : Language α) (i j : Nat) : Prop where
  le : i ≤ j
  inside : j ≤ s.length
  word : (s.take j).drop i ∈ L

/-- The rest of a string starts with the word. -/
theorem Spans.of_drop {w rest : List α} (hw : w ∈ L) (hi : i ≤ s.length) (h : s.drop i = w ++ rest) :
    Spans s L i (i + w.length) := by
  have hlen : s.length = i + w.length + rest.length := by
    have hdrop := congrArg List.length h
    rw [List.length_drop, List.length_append] at hdrop
    omega
  refine ⟨Nat.le_add_right _ _, by omega, ?_⟩
  have hword : (s.take (i + w.length)).drop i = w := by
    rw [List.drop_take, h, Nat.add_sub_cancel_left, List.take_left]
  rw [hword]
  exact hw

theorem Spans.drop_eq (h : Spans s L i j) : ∃ w ∈ L, j = i + w.length ∧ s.drop i = w ++ s.drop j := by
  have hle := h.le
  have hinside := h.inside
  refine ⟨(s.take j).drop i, h.word, ?_, ?_⟩
  · rw [List.length_drop, List.length_take]
    omega
  · conv_lhs => rw [← List.take_append_drop j s]
    rw [List.drop_append_of_le_length (by rw [List.length_take]; omega)]

theorem Spans.mono (h : Spans s L i j) (hLM : L ≤ M) : Spans s M i j := ⟨h.le, h.inside, hLM h.word⟩

/-! ### The operations on languages -/

theorem not_spans_zero : ¬Spans s 0 i j := fun h => Language.notMem_zero _ h.word

theorem spans_singleton {x : α} : Spans s {[x]} i j ↔ j = i + 1 ∧ ∃ rest, s.drop i = x :: rest := by
  constructor
  · intro h
    obtain ⟨w, hw, rfl, hdrop⟩ := h.drop_eq
    obtain rfl : w = [x] := hw
    exact ⟨rfl, _, hdrop⟩
  · rintro ⟨rfl, rest, hdrop⟩
    have hi : i < s.length := by
      by_contra hge
      rw [List.drop_eq_nil_of_le (by omega)] at hdrop
      cases hdrop
    have hword : [x] ∈ ({[x]} : Language α) := rfl
    exact .of_drop hword (by omega) hdrop

/-- A word at a position. -/
theorem spans_word {w : List α} : Spans s {w} i j ↔ j = i + w.length ∧ j ≤ s.length ∧ w <+: s.drop i := by
  constructor
  · intro h
    obtain ⟨w', hw, hj, hdrop⟩ := h.drop_eq
    obtain rfl : w' = w := hw
    exact ⟨hj, h.inside, _, hdrop.symm⟩
  · rintro ⟨rfl, hinside, rest, hdrop⟩
    have hword : w ∈ ({w} : Language α) := rfl
    exact .of_drop hword (by omega) hdrop.symm

@[simp] theorem spans_one : Spans s 1 i j ↔ i = j ∧ i ≤ s.length := by
  constructor
  · intro h
    obtain ⟨w, hw, rfl, -⟩ := h.drop_eq
    rw [Language.mem_one] at hw
    subst hw
    exact ⟨rfl, h.inside⟩
  · rintro ⟨rfl, hi⟩
    exact ⟨Nat.le_refl i, hi, by simp⟩

theorem spans_add : Spans s (L + M) i j ↔ Spans s L i j ∨ Spans s M i j := by
  constructor
  · intro h
    rcases (Language.mem_add _ _ _).mp h.word with hw | hw
    · exact Or.inl ⟨h.le, h.inside, hw⟩
    · exact Or.inr ⟨h.le, h.inside, hw⟩
  · rintro (h | h)
    · exact ⟨h.le, h.inside, (Language.mem_add _ _ _).mpr (Or.inl h.word)⟩
    · exact ⟨h.le, h.inside, (Language.mem_add _ _ _).mpr (Or.inr h.word)⟩

/-- **Words one behind the other.** -/
theorem spans_mul : Spans s (L * M) i k ↔ ∃ j, Spans s L i j ∧ Spans s M j k := by
  constructor
  · intro h
    obtain ⟨w, hw, rfl, hdrop⟩ := h.drop_eq
    obtain ⟨a, ha, b, hb, rfl⟩ := Language.mem_mul.mp hw
    have hinside := h.inside
    rw [List.length_append] at hinside
    rw [List.append_assoc] at hdrop
    have hrest : s.drop (i + a.length) = b ++ s.drop (i + (a ++ b).length) := by
      rw [← List.drop_drop, hdrop, List.drop_left]
    refine ⟨i + a.length, .of_drop ha (by omega) hdrop, ?_⟩
    rw [List.length_append, ← Nat.add_assoc]
    exact .of_drop hb (by omega) hrest
  · rintro ⟨j, hL, hM⟩
    obtain ⟨a, ha, rfl, hdropA⟩ := hL.drop_eq
    obtain ⟨b, hb, rfl, hdropB⟩ := hM.drop_eq
    have hinside := hL.inside
    have hdrop : s.drop i = a ++ b ++ s.drop (i + a.length + b.length) := by
      rw [hdropA, hdropB, List.append_assoc]
    rw [Nat.add_assoc, ← List.length_append]
    exact .of_drop (Language.append_mem_mul ha hb) (by omega) hdrop

/-- An iteration is over, or one more word comes first. -/
theorem spans_kstar : Spans s (L∗ * M) i k ↔ Spans s M i k ∨ ∃ j, Spans s L i j ∧ Spans s (L∗ * M) j k := by
  conv_lhs => rw [← Language.one_add_self_mul_kstar_eq_kstar, add_mul, one_mul, mul_assoc, spans_add, spans_mul]

end LanguageSpans
