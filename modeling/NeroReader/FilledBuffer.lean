import Mathlib.Data.List.Basic
import Mathlib.Data.List.Range
import Mathlib.Logic.Function.Basic

/-!
Buffers filled from their front. A store puts a value at the next offset, wherever the buffer ends; the record of the
offsets says whether the memory behind it was left alone. A run of stores is as good as the list of its values: what
lies in front of the next offset, and which offsets were stored to.
-/

/-- Memory from a buffer's base on, the next offset to fill, and the offsets stored to so far. -/
structure FilledBuffer (β : Type) where
  mem : Nat → β
  next : Nat
  stores : List Nat

namespace FilledBuffer

variable {β : Type}

def fresh (mem : Nat → β) : FilledBuffer β := ⟨mem, 0, []⟩

def push (buf : FilledBuffer β) (value : β) : FilledBuffer β :=
  ⟨Function.update buf.mem buf.next value, buf.next + 1, buf.stores ++ [buf.next]⟩

/-- What has been filled in. -/
def contents (buf : FilledBuffer β) : List β := (List.range buf.next).map buf.mem

/-- Every store was inside a buffer of this capacity. -/
def Inside (cap : Nat) (buf : FilledBuffer β) : Prop := ∀ offset ∈ buf.stores, offset < cap

variable {buf : FilledBuffer β}

theorem contents_length (buf : FilledBuffer β) : buf.contents.length = buf.next := by
  rw [contents, List.length_map, List.length_range]

@[simp] theorem contents_fresh (mem : Nat → β) : (fresh mem).contents = [] := rfl

@[simp] theorem contents_push (buf : FilledBuffer β) (value : β) :
    (buf.push value).contents = buf.contents ++ [value] := by
  have hbefore : (List.range buf.next).map (Function.update buf.mem buf.next value) =
      (List.range buf.next).map buf.mem := by
    apply List.map_congr_left
    intro offset hoffset
    exact Function.update_of_ne (Nat.ne_of_lt (List.mem_range.mp hoffset)) _ _
  have hlast : (buf.push value).mem buf.next = value := Function.update_self ..
  have hmem : (buf.push value).mem = Function.update buf.mem buf.next value := rfl
  rw [contents, show (buf.push value).next = buf.next + 1 from rfl, List.range_succ, List.map_append,
    List.map_singleton, hlast, hmem, hbefore]
  rfl

theorem contents_foldl {γ : Type} (value : γ → β) (keys : List γ) (buf : FilledBuffer β) :
    (keys.foldl (fun buf key => buf.push (value key)) buf).contents = buf.contents ++ keys.map value := by
  induction keys generalizing buf with
  | nil => exact (List.append_nil _).symm
  | cons key keys ih => rw [List.foldl_cons, ih, contents_push, List.map_cons, List.append_assoc, List.singleton_append]

/-- Filled in order, without a gap. -/
def InOrder (buf : FilledBuffer β) : Prop := buf.stores = List.range buf.next

theorem inOrder_fresh (mem : Nat → β) : (fresh mem).InOrder := rfl

theorem InOrder.push (h : buf.InOrder) (value : β) : (buf.push value).InOrder := by
  rw [InOrder, FilledBuffer.push, h, List.range_succ]

theorem InOrder.foldl {γ : Type} (value : γ → β) (keys : List γ) (h : buf.InOrder) :
    (keys.foldl (fun buf key => buf.push (value key)) buf).InOrder := by
  induction keys generalizing buf with
  | nil => exact h
  | cons key keys ih => exact ih (h.push (value key))

/-- **Stores in order stay inside exactly when the contents fit.** -/
theorem InOrder.inside_iff (h : buf.InOrder) (cap : Nat) : buf.Inside cap ↔ buf.contents.length ≤ cap := by
  rw [Inside, h, contents_length]
  constructor
  · intro hall
    by_contra hlong
    have hlast := hall (buf.next - 1) (List.mem_range.mpr (by omega))
    omega
  · intro hle offset hoffset
    exact Nat.lt_of_lt_of_le (List.mem_range.mp hoffset) hle

end FilledBuffer
