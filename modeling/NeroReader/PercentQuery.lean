import Mathlib.Data.List.TakeWhile

/-!
Query strings over any alphabet. A component is encoded character by character, a character that may not stand
plain as a percent sign and two digits; a query is made of fields with one separator between them and another
between a name and its value. What was encoded is decoded again, and the fields that were joined are found again
when no separator occurs in them.
-/

namespace PercentQuery

variable {α : Type*}

/-- How characters are encoded: those that stand plain, and the two digits of the others. -/
structure Code (α : Type*) where
  pct : α
  plain : α → Bool
  digits : α → α × α
  value : α → α → α
  pct_not_plain : plain pct = false
  value_digits : ∀ c, value (digits c).1 (digits c).2 = c

namespace Code

variable (code : Code α)

def encode (text : List α) : List α :=
  text.flatMap fun c => if code.plain c then [c] else [code.pct, (code.digits c).1, (code.digits c).2]

variable [DecidableEq α]

def decode : List α → List α
  | c :: hi :: lo :: rest => if c = code.pct then code.value hi lo :: decode rest else c :: decode (hi :: lo :: rest)
  | rest => rest

variable {code}

theorem decode_cons {c : α} (h : c ≠ code.pct) (rest : List α) : code.decode (c :: rest) = c :: code.decode rest := by
  match rest with
  | [] => rfl
  | [x] => rfl
  | hi :: lo :: rest => rw [decode, if_neg h]

/-- **What was encoded is decoded again.** -/
theorem decode_encode (text : List α) : code.decode (code.encode text) = text := by
  induction text with
  | nil => rfl
  | cons c text ih =>
      rw [encode, List.flatMap_cons, ← encode]
      by_cases hplain : code.plain c = true
      · have hne : c ≠ code.pct := by
          rintro rfl
          rw [code.pct_not_plain] at hplain
          cases hplain
        rw [if_pos hplain, List.singleton_append, decode_cons hne, ih]
      · rw [if_neg hplain]
        show code.decode (code.pct :: (code.digits c).1 :: (code.digits c).2 :: code.encode text) = c :: text
        rw [decode, if_pos rfl, code.value_digits, ih]

omit [DecidableEq α] in
/-- The characters of an encoded text. -/
theorem mem_encode {x : α} {text : List α} (h : x ∈ code.encode text) :
    code.plain x = true ∨ x = code.pct ∨ ∃ c, x = (code.digits c).1 ∨ x = (code.digits c).2 := by
  obtain ⟨c, -, hx⟩ := List.mem_flatMap.mp h
  by_cases hplain : code.plain c = true
  · rw [if_pos hplain, List.mem_singleton] at hx
    subst hx
    exact Or.inl hplain
  · rw [if_neg hplain, List.mem_cons, List.mem_cons, List.mem_singleton] at hx
    rcases hx with hpct | hhi | hlo
    · exact Or.inr (Or.inl hpct)
    · exact Or.inr (Or.inr ⟨c, Or.inl hhi⟩)
    · exact Or.inr (Or.inr ⟨c, Or.inr hlo⟩)

end Code

/-! ### Fields -/

section Fields

variable [DecidableEq α] {amp eq : α}

/-- What stands in front of the first separator, and what behind it. -/
def cut (sep : α) (text : List α) : List α × List α := (text.takeWhile (· ≠ sep), (text.dropWhile (· ≠ sep)).tail)

theorem takeWhile_append_sep {sep : α} {name : List α} (h : sep ∉ name) (value : List α) :
    (name ++ sep :: value).takeWhile (· ≠ sep) = name ∧ (name ++ sep :: value).dropWhile (· ≠ sep) = sep :: value := by
  have hall : ∀ c ∈ name, decide (c ≠ sep) = true := by
    intro c hc
    rw [decide_eq_true_eq]
    rintro rfl
    exact h hc
  rw [List.takeWhile_append_of_pos hall, List.dropWhile_append_of_pos hall]
  simp

theorem takeWhile_of_notMem {sep : α} {text : List α} (h : sep ∉ text) :
    text.takeWhile (· ≠ sep) = text ∧ text.dropWhile (· ≠ sep) = [] := by
  have hall : ∀ c ∈ text, decide (c ≠ sep) = true := by
    intro c hc
    rw [decide_eq_true_eq]
    rintro rfl
    exact h hc
  exact ⟨List.takeWhile_eq_self_iff.mpr hall, List.dropWhile_eq_nil_iff.mpr hall⟩

theorem notMem_takeWhile (sep : α) (text : List α) : sep ∉ text.takeWhile (· ≠ sep) := by
  intro h
  have hne := List.mem_takeWhile_imp h
  rw [decide_eq_true_eq] at hne
  exact hne rfl

theorem cut_append {sep : α} {name : List α} (h : sep ∉ name) (value : List α) :
    cut sep (name ++ sep :: value) = (name, value) := by
  obtain ⟨htake, hdrop⟩ := takeWhile_append_sep h value
  rw [cut, htake, hdrop]
  rfl

variable (amp eq)

/-- The fields of a query, each a name and a value. -/
def fields (query : List α) : List (List α × List α) := (query.splitOn amp).map (cut eq)

def join (params : List (List α × List α)) : List α :=
  [amp].intercalate (params.map fun param => param.1 ++ eq :: param.2)

variable {amp eq}

omit [DecidableEq α] in
/-- The characters of a query are its separators and those of its fields. -/
theorem mem_join {x : α} {params : List (List α × List α)} (h : x ∈ join amp eq params) :
    x = amp ∨ x = eq ∨ ∃ param ∈ params, x ∈ param.1 ∨ x ∈ param.2 := by
  induction params with
  | nil => cases h
  | cons param params ih =>
      have hfirst : x ∈ param.1 ++ eq :: param.2 → x = eq ∨ x ∈ param.1 ∨ x ∈ param.2 := by
        intro hx
        rcases List.mem_append.mp hx with hname | hvalue
        · exact Or.inr (Or.inl hname)
        · rcases List.mem_cons.mp hvalue with heq | hvalue
          · exact Or.inl heq
          · exact Or.inr (Or.inr hvalue)
      cases params with
      | nil =>
          rw [join, List.map_singleton, List.intercalate_singleton] at h
          rcases hfirst h with heq | hfield
          · exact Or.inr (Or.inl heq)
          · exact Or.inr (Or.inr ⟨param, List.mem_cons_self, hfield⟩)
      | cons next params =>
          rw [join, List.map_cons, List.map_cons, List.intercalate_cons_cons, List.append_assoc] at h
          rcases List.mem_append.mp h with hx | h
          · rcases hfirst hx with heq | hfield
            · exact Or.inr (Or.inl heq)
            · exact Or.inr (Or.inr ⟨param, List.mem_cons_self, hfield⟩)
          rcases List.mem_append.mp h with hamp | hrest
          · exact Or.inl (List.mem_singleton.mp hamp)
          · rcases ih hrest with hamp | heq | ⟨other, hother, hfield⟩
            · exact Or.inl hamp
            · exact Or.inr (Or.inl heq)
            · exact Or.inr (Or.inr ⟨other, List.mem_cons_of_mem _ hother, hfield⟩)

/-- **Fields that were joined are found again.** -/
theorem fields_join {params : List (List α × List α)} (hne : params ≠ []) (hseps : amp ≠ eq)
    (hname : ∀ param ∈ params, amp ∉ param.1 ∧ eq ∉ param.1) (hvalue : ∀ param ∈ params, amp ∉ param.2) :
    fields amp eq (join amp eq params) = params := by
  rw [fields, join, List.splitOn_intercalate, List.map_map]
  · have hcut : ∀ param ∈ params, (cut eq ∘ fun param => param.1 ++ eq :: param.2) param = param :=
      fun param hparam => cut_append (hname param hparam).2 param.2
    exact (List.map_congr_left hcut).trans (List.map_id params)
  · intro part hpart hmem
    obtain ⟨param, hparam, rfl⟩ := List.mem_map.mp hpart
    rcases List.mem_append.mp hmem with h | h
    · exact (hname param hparam).1 h
    · rcases List.mem_cons.mp h with h | h
      · exact hseps h
      · exact hvalue param hparam h
  · rwa [ne_eq, List.map_eq_nil_iff]

end Fields

end PercentQuery
