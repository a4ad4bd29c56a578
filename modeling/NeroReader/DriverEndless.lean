import Mathlib.Data.List.Range
import Mathlib.Data.Prod.Lex
import NeroReader.Driver

/-!
Drivers against a peer that answers for ever. Such a run ends if every answer moves a well-founded measure of the
state down; where some answers leave it as it is, the run ends exactly if these come to an end (`ends_iff`).
-/

namespace Driver

variable {Req Ans St Res : Type}

section Endless

variable (step : St → Ans → Next Req St Res) (next : Next Req St Res) (peer : Nat → Ans)

/-- The action behind the first answers of the peer. -/
def behind (n : Nat) : Next Req St Res := (run step next ((List.range n).map peer)).final

def WaitsAt (n : Nat) (state : St) : Prop := ∃ request, behind step next peer n = .send request state

def Ends : Prop := ∃ n result, behind step next peer n = .stop result

variable {step next peer}

theorem final_append_of_stop {first : List Ans} {result : Res} (h : (run step next first).final = .stop result)
    (second : List Ans) : (run step next (first ++ second)).final = .stop result := by
  induction first generalizing next with
  | nil =>
      cases next with
      | send request state => cases h
      | stop value =>
          rw [List.nil_append, run_stop]
          rwa [run_stop] at h
  | cons a first ih =>
      cases next with
      | send request state =>
          rw [run_send_cons, Outcome.after_final] at h
          rw [List.cons_append, run_send_cons, Outcome.after_final]
          exact ih h
      | stop value =>
          rw [run_stop] at h ⊢
          exact h

theorem behind_zero : behind step next peer 0 = next := by
  cases next <;> rfl

theorem behind_succ_of_send {n : Nat} {request : Req} {state : St} (h : behind step next peer n = .send request state) :
    behind step next peer (n + 1) = step state (peer n) := by
  rw [behind, List.range_succ, List.map_append, run_append_of_waiting step h, Outcome.after_final]
  cases hstep : step state (peer n) with
  | send request' state' =>
      simp only [List.map_cons, List.map_nil, run_send_cons, hstep, run_send_nil, Outcome.after_final]
  | stop result => simp only [List.map_cons, List.map_nil, run_send_cons, hstep, run_stop, Outcome.after_final]

theorem behind_add_of_stop {n : Nat} {result : Res} (h : behind step next peer n = .stop result) (k : Nat) :
    behind step next peer (n + k) = .stop result := by
  induction k with
  | zero => exact h
  | succ k ih =>
      rw [← Nat.add_assoc, behind, List.range_succ, List.map_append]
      exact final_append_of_stop ih _

/-- A driver that has stopped waits for nothing more. -/
theorem not_waitsAt_of_stop {n m : Nat} {result : Res} {state : St} (h : behind step next peer n = .stop result)
    (hle : n ≤ m) : ¬WaitsAt step next peer m state := by
  rintro ⟨request, hwait⟩
  obtain ⟨k, rfl⟩ := Nat.exists_eq_add_of_le hle
  rw [behind_add_of_stop h k] at hwait
  cases hwait

variable {inv : St → Prop}

theorem WaitsAt.invariant (hinit : ∀ request state, next = .send request state → inv state)
    (hstep : ∀ state answer request state', inv state → step state answer = .send request state' → inv state')
    {n : Nat} {state : St} (h : WaitsAt step next peer n state) : inv state := by
  induction n generalizing state with
  | zero =>
      obtain ⟨request, h⟩ := h
      rw [behind_zero] at h
      exact hinit request state h
  | succ n ih =>
      obtain ⟨request, h⟩ := h
      cases hbefore : behind step next peer n with
      | send request' state' =>
          rw [behind_succ_of_send hbefore] at h
          exact hstep state' (peer n) request state (ih ⟨request', hbefore⟩) h
      | stop result =>
          rw [behind_add_of_stop hbefore 1] at h
          cases h

variable {α : Type} [Preorder α] [WellFoundedLT α] {idle : Nat → Prop} (measure : Nat → St → α)

/-- From an answer on behind which no answer is idle, the measure takes the run to its end. -/
theorem ends_of_waitsAt
    (hdescend : ∀ n state request state', WaitsAt step next peer n state → ¬idle n →
      step state (peer n) = .send request state' → measure (n + 1) state' < measure n state)
    {first : Nat} (hbusy : ∀ n state, first ≤ n → WaitsAt step next peer n state → ¬idle n) {n : Nat} {state : St}
    (hn : first ≤ n) (hwait : WaitsAt step next peer n state) : Ends step next peer := by
  induction hm : measure n state using WellFoundedLT.induction generalizing n state with
  | ind m ih =>
      obtain ⟨request, hsend⟩ := hwait
      have hnext := behind_succ_of_send hsend
      cases hstep : step state (peer n) with
      | stop result => exact ⟨n + 1, result, hnext.trans hstep⟩
      | send request' state' =>
          have hlt := hdescend n state request' state' ⟨request, hsend⟩ (hbusy n state hn ⟨request, hsend⟩) hstep
          exact ih _ (hm ▸ hlt) (Nat.le_succ_of_le hn) ⟨request', hnext.trans hstep⟩ rfl

/-- **The termination rule.** If every answer but the idle ones moves the measure down, the run ends exactly if the
driver waits for finitely many idle ones. -/
theorem ends_iff
    (hdescend : ∀ n state request state', WaitsAt step next peer n state → ¬idle n →
      step state (peer n) = .send request state' → measure (n + 1) state' < measure n state) :
    Ends step next peer ↔ ∃ first, ∀ n state, first ≤ n → WaitsAt step next peer n state → ¬idle n := by
  constructor
  · rintro ⟨n, result, hstop⟩
    exact ⟨n, fun m state hm hwait => absurd hwait (not_waitsAt_of_stop hstop hm)⟩
  · rintro ⟨first, hbusy⟩
    cases hfirst : behind step next peer first with
    | stop result => exact ⟨first, result, hfirst⟩
    | send request state => exact ends_of_waitsAt measure hdescend hbusy (Nat.le_refl first) ⟨request, hfirst⟩

end Endless

end Driver
