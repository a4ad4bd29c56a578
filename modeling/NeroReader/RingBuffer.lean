import Mathlib.Data.List.Basic
import Mathlib.Data.List.Range
import Mathlib.Logic.Function.Basic
import Mathlib.Tactic.SplitIfs

/-!
Ring buffers. A head and a tail go round a memory of fixed size, one cell of which stays free, so that equal positions
mean an empty ring. Values come in at the tail or, given back, at the head, and leave at the head. As long as there is
room a ring is the list of its contents.
-/

/-- A ring of `cap` cells. -/
structure RingBuffer (α : Type) (cap : Nat) where
  mem : Nat → α
  head : Nat
  tail : Nat
  head_lt : head < cap
  tail_lt : tail < cap

namespace RingBuffer

variable {α : Type} {cap : Nat}

theorem mod_of_lt_two {n : Nat} (h : n < 2 * cap) : n % cap = if n < cap then n else n - cap := by
  split
  · exact Nat.mod_eq_of_lt ‹_›
  · rw [Nat.mod_eq_sub_mod (Nat.le_of_not_lt ‹_›), Nat.mod_eq_of_lt (by omega)]

theorem cap_pos (r : RingBuffer α cap) : 0 < cap := Nat.lt_of_le_of_lt (Nat.zero_le _) r.head_lt

def count (r : RingBuffer α cap) : Nat := (r.tail + cap - r.head) % cap

def free (r : RingBuffer α cap) : Nat := cap - 1 - r.count

def pushTail (r : RingBuffer α cap) (value : α) : RingBuffer α cap :=
  ⟨Function.update r.mem r.tail value, r.head, (r.tail + 1) % cap, r.head_lt, Nat.mod_lt _ r.cap_pos⟩

def popHead (r : RingBuffer α cap) : α × RingBuffer α cap :=
  (r.mem r.head, ⟨r.mem, (r.head + 1) % cap, r.tail, Nat.mod_lt _ r.cap_pos, r.tail_lt⟩)

def prependHead (r : RingBuffer α cap) (value : α) : RingBuffer α cap :=
  ⟨Function.update r.mem ((r.head + cap - 1) % cap) value, (r.head + cap - 1) % cap, r.tail,
    Nat.mod_lt _ r.cap_pos, r.tail_lt⟩

/-- The values in the ring, the next one first. -/
def contents (r : RingBuffer α cap) : List α := (List.range r.count).map fun i => r.mem ((r.head + i) % cap)

theorem count_eq (r : RingBuffer α cap) :
    r.count = if r.head ≤ r.tail then r.tail - r.head else r.tail + cap - r.head := by
  have := r.head_lt
  have := r.tail_lt
  rw [count, mod_of_lt_two (by omega)]
  split_ifs <;> omega

theorem count_lt (r : RingBuffer α cap) : r.count < cap := Nat.mod_lt _ r.cap_pos

@[simp] theorem contents_length (r : RingBuffer α cap) : r.contents.length = r.count := by
  rw [contents, List.length_map, List.length_range]

theorem free_eq (r : RingBuffer α cap) : r.free = cap - 1 - r.contents.length := by rw [free, contents_length]

theorem contents_eq_nil {r : RingBuffer α cap} : r.contents = [] ↔ r.count = 0 := by
  rw [← List.length_eq_zero_iff, contents_length]

/-- A cell of the contents. -/
theorem cell_eq (r : RingBuffer α cap) {i : Nat} (hi : i < cap) :
    (r.head + i) % cap = if r.head + i < cap then r.head + i else r.head + i - cap := by
  have := r.head_lt
  exact mod_of_lt_two (by omega)

section Room

variable (r : RingBuffer α cap) (value : α)

theorem count_pushTail (h : r.count + 1 < cap) : (r.pushTail value).count = r.count + 1 := by
  have := r.head_lt
  have := r.tail_lt
  have hnext : (r.pushTail value).tail = if r.tail + 1 < cap then r.tail + 1 else r.tail + 1 - cap :=
    mod_of_lt_two (by omega)
  rw [count_eq] at h ⊢
  rw [hnext, count_eq]
  change (if r.head ≤ _ then _ - r.head else _ + cap - r.head) = _
  split_ifs at h ⊢ <;> omega

theorem count_prependHead (h : r.count + 1 < cap) : (r.prependHead value).count = r.count + 1 := by
  have := r.head_lt
  have := r.tail_lt
  have hnext : (r.prependHead value).head =
      if r.head + cap - 1 < cap then r.head + cap - 1 else r.head + cap - 1 - cap := mod_of_lt_two (by omega)
  rw [count_eq] at h ⊢
  rw [hnext, count_eq]
  change (if _ ≤ r.tail then r.tail - _ else r.tail + cap - _) = _
  split_ifs at h ⊢ <;> omega

theorem count_popHead (h : r.count ≠ 0) : r.popHead.2.count + 1 = r.count := by
  have := r.head_lt
  have := r.tail_lt
  have hnext : r.popHead.2.head = if r.head + 1 < cap then r.head + 1 else r.head + 1 - cap := mod_of_lt_two (by omega)
  rw [count_eq] at h ⊢
  rw [hnext, count_eq]
  change (if _ ≤ r.tail then r.tail - _ else r.tail + cap - _) + 1 = _
  split_ifs at h ⊢ <;> omega

/-- **A value pushed comes last.** -/
theorem contents_pushTail (h : r.count + 1 < cap) : (r.pushTail value).contents = r.contents ++ [value] := by
  have hhead := r.head_lt
  have htail := r.tail_lt
  have hcount := r.count_eq
  have hcell {i : Nat} (hi : i < cap) := r.cell_eq hi
  have hlast : (r.head + r.count) % cap = r.tail := by
    rw [hcell (Nat.lt_of_succ_lt h), hcount]
    split_ifs <;> omega
  rw [contents, count_pushTail r value h, List.range_succ, List.map_append, List.map_singleton]
  congr 1
  · apply List.map_congr_left
    intro i hi
    have hlt : i < r.count := List.mem_range.mp hi
    refine Function.update_of_ne ?_ _ _
    change (r.head + i) % cap ≠ r.tail
    rw [hcell (by omega)]
    rw [hcount] at hlt
    split_ifs at hlt ⊢ <;> omega
  · change [Function.update r.mem r.tail value ((r.head + r.count) % cap)] = [value]
    rw [hlast, Function.update_self]

/-- **A value given back comes first.** -/
theorem contents_prependHead (h : r.count + 1 < cap) : (r.prependHead value).contents = value :: r.contents := by
  have hhead := r.head_lt
  have htail := r.tail_lt
  have hcount := r.count_eq
  have hnew : (r.prependHead value).head =
      if r.head + cap - 1 < cap then r.head + cap - 1 else r.head + cap - 1 - cap := mod_of_lt_two (by omega)
  have hnewCell {i : Nat} (hi : i < cap) := (r.prependHead value).cell_eq hi
  have hcell {i : Nat} (hi : i < cap) := r.cell_eq hi
  rw [contents, count_prependHead r value h, List.range_succ_eq_map, List.map_cons, List.map_map]
  congr 1
  · have hfirst : ((r.prependHead value).head + 0) % cap = (r.head + cap - 1) % cap := by
      rw [Nat.add_zero, Nat.mod_eq_of_lt (r.prependHead value).head_lt]
      rfl
    rw [hfirst]
    exact Function.update_self ..
  · apply List.map_congr_left
    intro i hi
    have hlt : i < r.count := List.mem_range.mp hi
    have hsame : ((r.prependHead value).head + (i + 1)) % cap = (r.head + i) % cap := by
      rw [hnewCell (by omega), hcell (by omega), hnew]
      split_ifs <;> omega
    change Function.update r.mem ((r.head + cap - 1) % cap) value (((r.prependHead value).head + (i + 1)) % cap) = _
    rw [hsame]
    refine Function.update_of_ne ?_ _ _
    have hother : (r.head + cap - 1) % cap = if r.head + cap - 1 <
        cap then r.head + cap - 1 else r.head + cap - 1 - cap :=
      mod_of_lt_two (by omega)
    rw [hother, hcell (by omega)]
    split_ifs <;> omega

/-- **The first value is popped.** -/
theorem contents_popHead (h : r.count ≠ 0) : r.contents = r.popHead.1 :: r.popHead.2.contents := by
  have hhead := r.head_lt
  have htail := r.tail_lt
  have hcountLt := r.count_lt
  have hnext : r.popHead.2.head = if r.head + 1 < cap then r.head + 1 else r.head + 1 - cap := mod_of_lt_two (by omega)
  have hnextCell {i : Nat} (hi : i < cap) := r.popHead.2.cell_eq hi
  have hcell {i : Nat} (hi : i < cap) := r.cell_eq hi
  have hrest := count_popHead r h
  rw [contents, ← hrest, List.range_succ_eq_map, List.map_cons, List.map_map]
  congr 1
  · rw [Nat.add_zero, Nat.mod_eq_of_lt hhead]
    rfl
  · apply List.map_congr_left
    intro i hi
    have hlt : i < r.popHead.2.count := List.mem_range.mp hi
    have hsame : (r.head + (i + 1)) % cap = (r.popHead.2.head + i) % cap := by
      rw [hnextCell (by omega), hcell (by omega), hnext]
      split_ifs <;> omega
    change r.mem ((r.head + (i + 1)) % cap) = r.mem ((r.popHead.2.head + i) % cap)
    rw [hsame]

end Room

theorem popHead_of_contents {r : RingBuffer α cap} {value : α} {rest : List α} (h : r.contents = value :: rest) :
    r.popHead.1 = value ∧ r.popHead.2.contents = rest := by
  have hcount : r.count ≠ 0 := by
    rw [← contents_length, h]
    exact Nat.succ_ne_zero _
  rw [contents_popHead r hcount] at h
  exact List.cons.inj h

end RingBuffer
