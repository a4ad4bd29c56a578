import Mathlib.Data.List.Basic

/-!
Files under positional updates. A file has a value at every position; an update replaces a stretch of it. A
message behind a length field is written tear-safely by blanking the field, writing the message, and setting the
field last: whichever updates were made, the file is as it was, blank, or complete.
-/

namespace FileUpdate

variable {α : Type}

abbrev File (α : Type) := Nat → α

structure Update (α : Type) where
  offset : Nat
  data : List α

/-- The file with an update made. -/
def patch (f : File α) (u : Update α) : File α := fun i =>
  if u.offset ≤ i then (u.data[i - u.offset]?).getD (f i) else f i

/-- The file has these data at an offset. -/
def Has (f : File α) (offset : Nat) (data : List α) : Prop := ∀ i (hi : i < data.length), f (offset + i) = data[i]

theorem patch_outside (f : File α) (u : Update α) {i : Nat} (h : i < u.offset ∨ u.offset + u.data.length ≤ i) :
    patch f u i = f i := by
  unfold patch
  split
  · rw [List.getElem?_eq_none (by omega)]
    rfl
  · rfl

theorem has_patch (f : File α) (u : Update α) : Has (patch f u) u.offset u.data := by
  intro i hi
  unfold patch
  rw [if_pos (Nat.le_add_right _ _), Nat.add_sub_cancel_left, List.getElem?_eq_getElem hi]
  rfl

/-- An update elsewhere leaves data in place. -/
theorem Has.patch_outside {f : File α} {offset : Nat} {data : List α} (h : Has f offset data) (u : Update α)
    (hout : offset + data.length ≤ u.offset ∨ u.offset + u.data.length ≤ offset) : Has (patch f u) offset data := by
  intro i hi
  rw [FileUpdate.patch_outside f u (by omega)]
  exact h i hi

theorem has_append {f : File α} {offset : Nat} {front back : List α} :
    Has f offset (front ++ back) ↔ Has f offset front ∧ Has f (offset + front.length) back := by
  constructor
  · intro h
    refine ⟨fun i hi => ?_, fun i hi => ?_⟩
    · rw [h i (by rw [List.length_append]; omega), List.getElem_append_left hi]
    · have := h (front.length + i) (by rw [List.length_append]; omega)
      rw [← Nat.add_assoc] at this
      rw [this, List.getElem_append_right (Nat.le_add_right _ _)]
      simp
  · rintro ⟨hfront, hback⟩ i hi
    by_cases hlt : i < front.length
    · rw [hfront i hlt, List.getElem_append_left hlt]
    · rw [List.getElem_append_right (by omega)]
      rw [← hback (i - front.length) (by rw [List.length_append] at hi; omega)]
      congr 1
      omega

/-- Two files agree outside a stretch. -/
def AgreeOutside (f g : File α) (lo hi : Nat) : Prop := ∀ i, i < lo ∨ hi ≤ i → g i = f i

theorem AgreeOutside.refl (f : File α) (lo hi : Nat) : AgreeOutside f f lo hi := fun _ _ => rfl

theorem AgreeOutside.trans {f g h : File α} {lo hi : Nat} (hfg : AgreeOutside f g lo hi)
    (hgh : AgreeOutside g h lo hi) :
    AgreeOutside f h lo hi := fun i hi => (hgh i hi).trans (hfg i hi)

theorem AgreeOutside.mono {f g : File α} {lo hi lo' hi' : Nat} (h : AgreeOutside f g lo hi) (hlo : lo' ≤ lo)
    (hhi : hi ≤ hi') :
    AgreeOutside f g lo' hi' := fun i hi => h i (by omega)

theorem agreeOutside_patch (f : File α) (u : Update α) {hi : Nat} (h : u.offset + u.data.length ≤ hi) :
    AgreeOutside f (patch f u) u.offset hi := fun _ hi => patch_outside f u (by omega)

/-- Data elsewhere stay in place. -/
theorem Has.of_agree {f g : File α} {offset : Nat} {data : List α} (h : Has f offset data) {lo hi : Nat}
    (hagree : AgreeOutside f g lo hi) (hout : offset + data.length ≤ lo ∨ hi ≤ offset) : Has g offset data := by
  intro i hi
  rw [hagree (offset + i) (by omega)]
  exact h i hi

/-- Updates that follow each other without gap or overlap. -/
def Tiles : Nat → List (Update α) → Prop
  | _, [] => True
  | start, u :: us => u.offset = start ∧ Tiles (start + u.data.length) us

def written (us : List (Update α)) : List α := us.flatMap Update.data

@[simp] theorem written_nil : written ([] : List (Update α)) = [] := rfl

theorem written_snoc (us : List (Update α)) (u : Update α) : written (us ++ [u]) = written us ++ u.data := by
  simp [written]

theorem tiles_snoc {start : Nat} {us : List (Update α)} {u : Update α} :
    Tiles start (us ++ [u]) ↔ Tiles start us ∧ u.offset = start + (written us).length := by
  induction us generalizing start with
  | nil => simp [Tiles]
  | cons v us ih =>
      rw [List.cons_append, Tiles, ih, Tiles, and_assoc]
      simp only [written, List.flatMap_cons, List.length_append, Nat.add_assoc]

/-! ### A message behind its length -/

/-- What the writer works with: the file as it was, the blank and the new length field, and the message. -/
structure Commit (α : Type) where
  old : File α
  blank : List α
  field : List α
  message : List α
  field_length : field.length = blank.length

namespace Commit

variable (c : Commit α)

def clear : Update α := ⟨0, c.blank⟩
def set : Update α := ⟨0, c.field⟩

/-- The file is whole: as it was, blank, or complete. -/
def Whole (f : File α) : Prop := f = c.old ∨ Has f 0 c.blank ∨ Has f 0 (c.field ++ c.message)

/-- The field is blank and so much of the message is in place. -/
def Blank (f : File α) (k : Nat) : Prop := Has f 0 c.blank ∧ Has f c.blank.length (c.message.take k)

variable {c}

theorem blank_clear (f : File α) : c.Blank (patch f c.clear) 0 :=
  ⟨has_patch f c.clear, fun i hi => by simp at hi⟩

/-- The next stretch of the message, put behind what is there. -/
theorem Blank.patch {f : File α} {k n : Nat} (h : c.Blank f k) (hk : k ≤ c.message.length) {u : Update α}
    (hoffset : u.offset = c.blank.length + k) (hdata : u.data = (c.message.drop k).take n) :
    c.Blank (patch f u) (k + n) := by
  obtain ⟨hblank, hmessage⟩ := h
  have hlen : (c.message.take k).length = k := List.length_take_of_le hk
  refine ⟨hblank.patch_outside u (Or.inl (by omega)), ?_⟩
  rw [List.take_add, has_append, hlen, ← hdata, ← hoffset]
  exact ⟨hmessage.patch_outside u (Or.inl (by omega)), has_patch f u⟩

/-- Setting the field completes the file. -/
theorem Blank.set {f : File α} {k : Nat} (h : c.Blank f k) (hk : c.message.length ≤ k) :
    Has (FileUpdate.patch f c.set) 0 (c.field ++ c.message) := by
  rw [has_append]
  refine ⟨has_patch f c.set, ?_⟩
  have hmessage := h.2
  rw [List.take_of_length_le hk, ← c.field_length] at hmessage
  rw [Nat.zero_add]
  exact hmessage.patch_outside c.set (Or.inr (Nat.le_of_eq (Nat.zero_add _)))

/-- The blanking, and stretches that tile so much of the message. -/
def Tiled (c : Commit α) (bound : Nat) (us : List (Update α)) (k : Nat) : Prop :=
  ∃ data, us = c.clear :: data ∧ Tiles c.blank.length data ∧ written data = c.message.take k ∧
    ∀ u ∈ data, u.data.length ≤ bound

/-- The updates of a tear-safe write so far: nothing, or the blanking with stretches of the message, or these
and the new field behind the whole message. -/
def Sequence (c : Commit α) (bound : Nat) (us : List (Update α)) : Prop :=
  us = [] ∨ (∃ k ≤ c.message.length, c.Tiled bound us k) ∨
    ∃ front, us = front ++ [c.set] ∧ c.Tiled bound front c.message.length

theorem tiled_clear (c : Commit α) (bound : Nat) : c.Tiled bound [c.clear] 0 :=
  ⟨[], rfl, trivial, rfl, by simp⟩

theorem Tiled.snoc {bound : Nat} {us : List (Update α)} {k n : Nat} (h : c.Tiled bound us k)
    (hk : k ≤ c.message.length) {u : Update α} (hoffset : u.offset = c.blank.length + k)
    (hdata : u.data = (c.message.drop k).take n) (hbound : u.data.length ≤ bound) :
    c.Tiled bound (us ++ [u]) (k + n) := by
  obtain ⟨data, rfl, htiles, hwritten, hdatas⟩ := h
  refine ⟨data ++ [u], by simp, tiles_snoc.mpr ⟨htiles, ?_⟩, ?_, fun v hv => ?_⟩
  · rw [hoffset, hwritten, List.length_take_of_le hk]
  · rw [written_snoc, hwritten, hdata, List.take_add]
  · rcases List.mem_append.mp hv with hv | hv
    · exact hdatas v hv
    · obtain rfl := List.mem_singleton.mp hv
      exact hbound

end Commit

end FileUpdate
