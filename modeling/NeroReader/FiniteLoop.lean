import Mathlib.Data.Finset.Card
import Mathlib.Logic.Relation

/-!
Loops over finitely many states. A round goes on with another state or leaves with a result. Such a loop ends if and
only if no state that it reaches leads back to itself, and then it has left after as many rounds as there are states.
-/

namespace FiniteLoop

open Relation

variable {σ ρ : Type}

/-- The loop, as many rounds of it. -/
def run (round : σ → σ ⊕ ρ) : Nat → σ → Option ρ
  | 0, _ => none
  | fuel + 1, s =>
      match round s with
      | .inl t => run round fuel t
      | .inr result => some result

def GoesOn (round : σ → σ ⊕ ρ) (s t : σ) : Prop := round s = .inl t

/-- Some state that the loop reaches leads back to itself. -/
def Circles (next : σ → σ → Prop) (s : σ) : Prop := ∃ t, ReflTransGen next s t ∧ TransGen next t t

theorem Circles.of_next {next : σ → σ → Prop} {s t : σ} (hnext : next s t) (h : Circles next t) : Circles next s := by
  obtain ⟨u, hreach, hcycle⟩ := h
  exact ⟨u, hreach.head hnext, hcycle⟩

variable {round : σ → σ ⊕ ρ} {s t : σ} {result : ρ} {fuel : Nat}

theorem run_goesOn (h : GoesOn round s t) (fuel : Nat) : run round (fuel + 1) s = run round fuel t := by
  rw [GoesOn] at h
  rw [run, h]

theorem run_leaves (h : round s = .inr result) (fuel : Nat) : run round (fuel + 1) s = some result := by
  rw [run, h]

/-- What a state reaches ends with it. -/
theorem run_of_reach (h : ReflTransGen (GoesOn round) s t) (hrun : run round fuel s = some result) :
    ∃ fuel' ≤ fuel, run round fuel' t = some result := by
  induction h using ReflTransGen.head_induction_on generalizing fuel with
  | refl => exact ⟨fuel, Nat.le_refl fuel, hrun⟩
  | head hnext _ ih =>
      cases fuel with
      | zero => cases hrun
      | succ fuel =>
          rw [run_goesOn hnext] at hrun
          obtain ⟨fuel', hle, hrest⟩ := ih hrun
          exact ⟨fuel', Nat.le_succ_of_le hle, hrest⟩

/-- A state on a circle never leaves it: every round that would leave is one round further on. -/
theorem run_of_cycle (h : TransGen (GoesOn round) t t) (fuel : Nat) : run round fuel t = none := by
  induction fuel using Nat.strong_induction_on with
  | _ fuel ih =>
      obtain ⟨u, hnext, hback⟩ := TransGen.head'_iff.mp h
      cases fuel with
      | zero => rfl
      | succ fuel =>
          rw [run_goesOn hnext]
          cases hrun : run round fuel u with
          | none => rfl
          | some result =>
              obtain ⟨fuel', hle, hrest⟩ := run_of_reach hback hrun
              rw [ih fuel' (Nat.lt_succ_of_le hle)] at hrest
              cases hrest

/-- Without a circle every round leaves one state behind for good. -/
theorem run_of_not_circles {states : Finset σ} (hcard : states.card ≤ fuel)
    (hstates : ∀ t, ReflTransGen (GoesOn round) s t → t ∈ states) (h : ¬Circles (GoesOn round) s) :
    ∃ result, run round fuel s = some result := by
  classical
  induction fuel generalizing states s with
  | zero =>
      have hempty := Finset.card_eq_zero.mp (Nat.le_zero.mp hcard)
      have hmem := hstates s .refl
      rw [hempty] at hmem
      exact absurd hmem (Finset.notMem_empty s)
  | succ fuel ih =>
      cases hround : round s with
      | inr result => exact ⟨result, run_leaves hround fuel⟩
      | inl t =>
          rw [run_goesOn hround]
          have herase := Finset.card_erase_of_mem (hstates s .refl)
          apply ih (show (states.erase s).card ≤ fuel by omega)
          · intro u hreach
            refine Finset.mem_erase.mpr ⟨?_, hstates u (hreach.head hround)⟩
            rintro rfl
            exact h ⟨u, .refl, TransGen.head' hround hreach⟩
          · intro hcircles
            exact h (hcircles.of_next hround)

/-- **Loops over finitely many states.** -/
theorem ends_iff {states : Finset σ} (hstates : ∀ t, ReflTransGen (GoesOn round) s t → t ∈ states) :
    (∃ fuel result, run round fuel s = some result) ↔ ¬Circles (GoesOn round) s := by
  constructor
  · rintro ⟨fuel, result, hrun⟩ ⟨t, hreach, hcycle⟩
    obtain ⟨fuel', -, hrest⟩ := run_of_reach hreach hrun
    rw [run_of_cycle hcycle] at hrest
    cases hrest
  · intro h
    exact ⟨states.card, run_of_not_circles (Nat.le_refl _) hstates h⟩

end FiniteLoop
