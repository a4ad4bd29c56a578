import Mathlib.Data.List.Basic

/-!
What must lie between two entries of a log. Entries come in at the end. An entry is followed by what stands behind it,
and two kinds of entries are separated when behind each one of the first kind the log has seen enough before one of the
second kind comes.
-/

variable {α : Type}

/-- The entry stands in the log, and these stand behind it. -/
def Follows (log : List α) (x : α) (behind : List α) : Prop := ∃ front, log = front ++ x :: behind

/-- Each entry of the second kind that comes behind one of the first has found enough between. -/
def Separated (first second : α → Prop) (enough : α → List α → Prop) (log : List α) : Prop :=
  ∀ x between y behind, Follows log x (between ++ y :: behind) → first x → second y → enough x between

theorem follows_snoc {log : List α} {v x : α} {behind : List α} :
    Follows (log ++ [v]) x behind ↔ (∃ earlier, behind = earlier ++ [v] ∧ Follows log x earlier) ∨
      x = v ∧ behind = [] := by
  constructor
  · rintro ⟨front, h⟩
    rcases List.eq_nil_or_concat behind with rfl | ⟨earlier, last, rfl⟩
    · exact .inr ⟨(List.singleton_inj.mp (List.append_inj' h rfl).2).symm, rfl⟩
    · rw [List.concat_eq_append, ← List.cons_append, ← List.append_assoc] at h
      obtain ⟨hlog, hlast⟩ := List.append_inj' h rfl
      rw [List.singleton_inj.mp hlast, List.concat_eq_append]
      exact .inl ⟨earlier, rfl, front, hlog⟩
  · rintro (⟨earlier, rfl, front, rfl⟩ | ⟨rfl, rfl⟩)
    · exact ⟨front, by rw [List.append_assoc, List.cons_append]⟩
    · exact ⟨log, rfl⟩

theorem not_follows_nil {x : α} {behind : List α} : ¬ Follows [] x behind := by
  rintro ⟨front, h⟩
  exact absurd h.symm (List.append_ne_nil_of_right_ne_nil _ (List.cons_ne_nil _ _))

theorem separated_nil {first second : α → Prop} {enough : α → List α → Prop} : Separated first second enough [] :=
  fun _ _ _ _ h => absurd h not_follows_nil

/-- **The rule of separation.** A log stays separated when an entry of the second kind finds enough behind every entry
of the first. -/
theorem Separated.snoc {first second : α → Prop} {enough : α → List α → Prop} {log : List α} {v : α}
    (h : Separated first second enough log)
    (hv : second v → ∀ x behind, Follows log x behind → first x → enough x behind) :
    Separated first second enough (log ++ [v]) := by
  intro x between y behind hfollows hx hy
  rcases follows_snoc.mp hfollows with ⟨earlier, hsplit, hearlier⟩ | ⟨-, hnil⟩
  · rcases List.eq_nil_or_concat behind with rfl | ⟨init, last, rfl⟩
    · obtain ⟨rfl, hlast⟩ := List.append_inj' hsplit rfl
      exact hv (List.singleton_inj.mp hlast ▸ hy) x between hearlier hx
    · rw [List.concat_eq_append, ← List.cons_append, ← List.append_assoc] at hsplit
      exact h x between y init ((List.append_inj' hsplit rfl).1 ▸ hearlier) hx hy
  · exact absurd hnil (List.append_ne_nil_of_right_ne_nil _ (List.cons_ne_nil _ _))
