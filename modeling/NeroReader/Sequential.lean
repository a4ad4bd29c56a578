import Mathlib.Data.List.Basic

/-!
Effects performed in order. Numbered items are attempted one after the other; the sequence ends
before the first item that is blocked and behind the first item that fails.
-/

namespace Sequential

variable {α : Type}

/-- The attempts from item `k` on, `n` items at most, each with its success, and whether the sequence
came to its end. -/
def perform (item : Nat → α) (blocked done : Nat → Bool) : Nat → Nat → List (α × Bool) × Bool
  | 0, _ => ([], true)
  | n + 1, k =>
      if blocked k then ([], false)
      else if done k then
        ((item k, true) :: (perform item blocked done n (k + 1)).1,
          (perform item blocked done n (k + 1)).2)
      else ([(item k, false)], false)

section Perform

variable (item : Nat → α) (blocked done : Nat → Bool)

theorem perform_length_le (n k : Nat) : (perform item blocked done n k).1.length ≤ n := by
  induction n generalizing k with
  | zero => exact Nat.le_refl 0
  | succ n ih =>
      rw [perform]
      split
      · exact Nat.zero_le _
      split
      · exact Nat.succ_le_succ (ih (k + 1))
      · exact Nat.succ_le_succ (Nat.zero_le n)

/-- Items are attempted in order and without gaps. -/
theorem perform_getElem (n k i : Nat) (hi : i < (perform item blocked done n k).1.length) :
    (perform item blocked done n k).1[i] = (item (k + i), done (k + i)) := by
  induction n generalizing k i with
  | zero => exact absurd hi (Nat.not_lt_zero i)
  | succ n ih =>
      simp only [perform] at hi ⊢
      split at hi
      · exact absurd hi (Nat.not_lt_zero i)
      rename_i hblocked
      simp only [hblocked, Bool.false_eq_true, if_false]
      split at hi
      · rename_i hdone
        simp only [hdone, if_true]
        cases i with
        | zero => simp only [List.getElem_cons_zero, Nat.add_zero, hdone]
        | succ i =>
            rw [List.getElem_cons_succ, ih (k + 1) i (Nat.lt_of_succ_lt_succ hi), Nat.add_right_comm,
              Nat.add_assoc]
      · rename_i hdone
        have hzero : i = 0 := Nat.lt_one_iff.mp hi
        subst hzero
        simp only [hdone, Bool.false_eq_true, if_false, List.getElem_cons_zero, Nat.add_zero]

/-- No attempted item is blocked, and all before it succeeded. -/
theorem perform_stops (n k i : Nat) (hi : i < (perform item blocked done n k).1.length) :
    blocked (k + i) = false ∧ ∀ j < i, done (k + j) = true := by
  induction n generalizing k i with
  | zero => exact absurd hi (Nat.not_lt_zero i)
  | succ n ih =>
      rw [perform] at hi
      split at hi
      · exact absurd hi (Nat.not_lt_zero i)
      rename_i hblocked
      have hfree : blocked k = false := Bool.eq_false_iff.mpr hblocked
      cases i with
      | zero => exact ⟨hfree, fun j hj => absurd hj (Nat.not_lt_zero j)⟩
      | succ i =>
          split at hi
          · rename_i hdone
            obtain ⟨hlater, hbefore⟩ := ih (k + 1) i (Nat.lt_of_succ_lt_succ hi)
            refine ⟨by rwa [Nat.add_right_comm, Nat.add_assoc] at hlater, ?_⟩
            intro j hj
            cases j with
            | zero => exact hdone
            | succ j =>
                have := hbefore j (Nat.lt_of_succ_lt_succ hj)
                rwa [Nat.add_right_comm, Nat.add_assoc] at this
          · exact absurd (Nat.lt_of_succ_lt_succ hi) (Nat.not_lt_zero i)

/-- The sequence came to its end exactly when all items succeeded. -/
theorem perform_complete_iff (n k : Nat) :
    (perform item blocked done n k).2 = true ↔ (perform item blocked done n k).1.countP Prod.snd = n := by
  induction n generalizing k with
  | zero => simp [perform]
  | succ n ih =>
      rw [perform]
      split
      · simp
      split
      · rw [List.countP_cons_of_pos rfl, Nat.succ_inj]
        exact ih (k + 1)
      · simp

/-- A sequence that did not come to its end was blocked at the next item, or its last item failed. -/
theorem perform_incomplete (n k : Nat) (h : (perform item blocked done n k).2 = false) :
    blocked (k + (perform item blocked done n k).1.length) = true ∨
      ∃ a, (perform item blocked done n k).1.getLast? = some (a, false) := by
  induction n generalizing k with
  | zero => cases h
  | succ n ih =>
      rw [perform] at h ⊢
      split at h
      · rename_i hblocked
        rw [if_pos hblocked]
        exact Or.inl hblocked
      rename_i hblocked
      rw [if_neg hblocked]
      split at h
      · rename_i hdone
        rw [if_pos hdone]
        rcases ih (k + 1) h with hnext | ⟨a, hlast⟩
        · rw [List.length_cons, ← Nat.add_assoc, Nat.add_right_comm]
          exact Or.inl hnext
        · exact Or.inr ⟨a, by rw [List.getLast?_cons, hlast]; rfl⟩
      · rename_i hdone
        rw [if_neg hdone]
        exact Or.inr ⟨item k, rfl⟩

end Perform

end Sequential
