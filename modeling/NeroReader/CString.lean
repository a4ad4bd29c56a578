import Mathlib.Data.List.TakeWhile
import NeroReader.IsoDepFrame

/-!
C strings: the text of a buffer ends in front of its first zero, and a bounded search finds this end when it
lies within the bound.
-/

namespace NeroReader

/-- `nero_nfc_bounded_strlen`. -/
def boundedStrlen : Frame → Nat → Option Nat
  | _, 0 => none
  | [], _ + 1 => none
  | ch :: rest, cap + 1 => if ch = 0 then some 0 else (boundedStrlen rest cap).map (· + 1)

/-- The text of a C string. -/
def cText (s : Frame) : Frame := s.takeWhile (· ≠ 0)

theorem zero_notMem_cText (s : Frame) : (0 : Byte) ∉ cText s := by
  intro h
  simpa using List.mem_takeWhile_imp h

theorem cText_append {text rest : Frame} (h : (0 : Byte) ∉ text) : cText (text ++ 0 :: rest) = text := by
  have htext : ∀ ch ∈ text, decide (ch ≠ 0) = true := by
    rintro ch hmem
    exact decide_eq_true fun hzero => h (hzero ▸ hmem)
  rw [cText, List.takeWhile_append_of_pos htext, List.takeWhile_cons_of_neg (by simp), List.append_nil]

theorem boundedStrlen_text {text rest : Frame} {cap : Nat} (hzero : (0 : Byte) ∉ text) (hcap : text.length < cap) :
    boundedStrlen (text ++ 0 :: rest) cap = some text.length := by
  induction text generalizing cap with
  | nil =>
      obtain ⟨cap, rfl⟩ := Nat.exists_eq_add_of_le' hcap
      rfl
  | cons ch text ih =>
      obtain ⟨hch, htext⟩ := List.ne_and_not_mem_of_not_mem_cons hzero
      rw [List.length_cons] at hcap
      obtain ⟨cap, rfl⟩ := Nat.exists_eq_add_of_le' (Nat.lt_of_lt_of_le (Nat.succ_pos _) hcap)
      rw [List.cons_append, boundedStrlen, if_neg hch.symm, ih htext (by omega), Option.map_some,
        List.length_cons]

/-- A string found by its terminator. -/
theorem boundedStrlen_spec {s : Frame} {cap len : Nat} (h : boundedStrlen s cap = some len) :
    (∃ rest, s = cText s ++ 0 :: rest) ∧ (cText s).length = len ∧ len < cap := by
  induction cap generalizing s len with
  | zero => cases s <;> simp [boundedStrlen] at h
  | succ cap ih =>
      cases s with
      | nil => simp [boundedStrlen] at h
      | cons ch s =>
          rw [boundedStrlen] at h
          by_cases hch : ch = 0
          · subst hch
            rw [if_pos rfl, Option.some.injEq] at h
            subst h
            exact ⟨⟨s, rfl⟩, rfl, Nat.succ_pos _⟩
          · rw [if_neg hch] at h
            obtain ⟨n, hn, rfl⟩ := Option.map_eq_some_iff.mp h
            obtain ⟨⟨rest, hrest⟩, hlen, hlt⟩ := ih hn
            have hcons : cText (ch :: s) = ch :: cText s := List.takeWhile_cons_of_pos (by simpa using hch)
            rw [hcons, List.length_cons, hlen]
            exact ⟨⟨rest, by rw [List.cons_append, ← hrest]⟩, rfl, Nat.succ_lt_succ hlt⟩

theorem boundedStrlen_take {s : Frame} {cap len : Nat} (h : boundedStrlen s cap = some len) :
    s.take len = cText s := by
  obtain ⟨⟨rest, hrest⟩, hlen, -⟩ := boundedStrlen_spec h
  rw [hrest, cText_append (zero_notMem_cText s), ← hlen, List.take_left]

end NeroReader
