import Mathlib.Data.List.Basic

/-!
Computations over a buffer that remember where they looked. A buffer is a stretch of memory with a
length; the memory goes on behind it, and a plain load does not know the length. The value of a
computation and the offsets it read are two projections, so that a claim about the one does not
carry the other along.
-/

/-- A value, and the offsets that were read on the way to it. -/
structure Looked (α : Type) where
  value : α
  reads : List Nat

namespace Looked

variable {α β : Type}

instance : Monad Looked where
  pure a := ⟨a, []⟩
  bind x f := ⟨(f x.value).value, x.reads ++ (f x.value).reads⟩

@[simp] theorem pure_value (a : α) : (pure a : Looked α).value = a := rfl

@[simp] theorem pure_reads (a : α) : (pure a : Looked α).reads = [] := rfl

@[simp] theorem bind_value (x : Looked α) (f : α → Looked β) : (x >>= f).value = (f x.value).value := rfl

@[simp] theorem bind_reads (x : Looked α) (f : α → Looked β) :
    (x >>= f).reads = x.reads ++ (f x.value).reads := rfl

/-- All reads lie below a bound. -/
def Within (n : Nat) (x : Looked α) : Prop := ∀ i ∈ x.reads, i < n

theorem within_pure (n : Nat) (a : α) : (pure a : Looked α).Within n := nofun

theorem within_bind {n : Nat} {x : Looked α} {f : α → Looked β} (hx : x.Within n)
    (hf : (f x.value).Within n) : (x >>= f).Within n := by
  intro i hi
  rcases List.mem_append.mp hi with h | h
  · exact hx i h
  · exact hf i h

theorem within_bind_iff {n : Nat} {x : Looked α} {f : α → Looked β} :
    (x >>= f).Within n ↔ x.Within n ∧ (f x.value).Within n := by
  constructor
  · intro h
    exact ⟨fun i hi => h i (List.mem_append_left _ hi), fun i hi => h i (List.mem_append_right _ hi)⟩
  · rintro ⟨hx, hf⟩
    exact within_bind hx hf

end Looked

/-- Memory from a base address on, and how much of it belongs to the buffer. -/
structure Buffer (β : Type) where
  mem : Nat → β
  len : Nat

namespace Buffer

variable {β : Type} (buf : Buffer β)

/-- The memory at an offset, as a list of this length. -/
def slice : Nat → Nat → List β
  | _, 0 => []
  | off, n + 1 => buf.mem off :: slice (off + 1) n

/-- What the buffer holds. -/
def contents : List β := buf.slice 0 buf.len

@[simp] theorem slice_zero (off : Nat) : buf.slice off 0 = [] := rfl

@[simp] theorem slice_succ (off n : Nat) :
    buf.slice off (n + 1) = buf.mem off :: buf.slice (off + 1) n := rfl

@[simp] theorem slice_length (off n : Nat) : (buf.slice off n).length = n := by
  induction n generalizing off with
  | zero => rfl
  | succ n ih => rw [slice_succ, List.length_cons, ih]

theorem slice_append (off m n : Nat) :
    buf.slice off (m + n) = buf.slice off m ++ buf.slice (off + m) n := by
  induction m generalizing off with
  | zero => rw [Nat.zero_add, slice_zero, List.nil_append, Nat.add_zero]
  | succ m ih =>
      rw [Nat.add_right_comm, slice_succ, slice_succ, ih, List.cons_append, Nat.add_assoc off 1 m,
        Nat.add_comm 1 m]

/-- The buffer cut at an offset inside it. -/
theorem contents_split {k : Nat} (h : k ≤ buf.len) :
    buf.contents = buf.slice 0 k ++ buf.slice k (buf.len - k) := by
  have hlen : buf.len = k + (buf.len - k) := by omega
  rw [contents, hlen, slice_append, Nat.zero_add, ← hlen]

/-- A load that does not know the length. -/
def load (i : Nat) : Looked β := ⟨buf.mem i, [i]⟩

/-- A load that answers with a default outside the buffer. -/
def loadAt (default : β) (i : Nat) : Looked β := if i < buf.len then buf.load i else pure default

/-- Copy a stretch of memory. -/
def copy (off n : Nat) : Looked (List β) := ⟨buf.slice off n, List.range' off n⟩

@[simp] theorem load_value (i : Nat) : (buf.load i).value = buf.mem i := rfl

@[simp] theorem copy_value (off n : Nat) : (buf.copy off n).value = buf.slice off n := rfl

theorem loadAt_value {default : β} {i : Nat} (h : i < buf.len) :
    (buf.loadAt default i).value = buf.mem i := by
  rw [loadAt, if_pos h, load_value]

theorem within_load {n i : Nat} : (buf.load i).Within n ↔ i < n := by
  constructor
  · intro h
    exact h i (List.mem_singleton.mpr rfl)
  · intro h j hj
    rwa [List.mem_singleton.mp hj]

theorem within_loadAt (default : β) (i : Nat) : (buf.loadAt default i).Within buf.len := by
  rw [loadAt]
  split
  · exact buf.within_load.mpr ‹_›
  · exact Looked.within_pure _ _

theorem within_copy {off n : Nat} (h : off + n ≤ buf.len) : (buf.copy off n).Within buf.len := by
  intro i hi
  obtain ⟨hlow, hhigh⟩ := List.mem_range'_1.mp hi
  exact Nat.lt_of_lt_of_le hhigh h

end Buffer
