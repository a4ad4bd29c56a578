import Mathlib.Data.List.Basic

/-!
Codes with blocks of one length. Each letter becomes a block of the same width, and a block stands for at most one
letter; a text is the blocks of its letters one after the other. Such a text is read back block by block, and nothing
else is read at all (`decode_iff`).
-/

/-- A code of letters by blocks of one width, with a reader that knows the blocks and nothing else. -/
structure BlockCode (α σ : Type) where
  width : Nat
  width_pos : 0 < width
  encode : α → List σ
  encode_length : ∀ a, (encode a).length = width
  decodeBlock : List σ → Option α
  decodeBlock_iff : ∀ block a, decodeBlock block = some a ↔ block = encode a

namespace BlockCode

variable {α σ : Type} (code : BlockCode α σ)

def encodeAll (text : List α) : List σ := text.flatMap code.encode

/-- The text in a list of symbols, read block by block. -/
def decode (symbols : List σ) : Option (List α) :=
  if symbols.length = 0 then some []
  else
    match code.decodeBlock (symbols.take code.width) with
    | none => none
    | some a => (decode (symbols.drop code.width)).map (a :: ·)
termination_by symbols.length
decreasing_by
  have := code.width_pos
  rw [List.length_drop]
  omega

@[simp] theorem encodeAll_nil : code.encodeAll [] = [] := rfl

@[simp] theorem encodeAll_cons (a : α) (text : List α) :
    code.encodeAll (a :: text) = code.encode a ++ code.encodeAll text :=
  rfl

theorem encodeAll_length (text : List α) : (code.encodeAll text).length = code.width * text.length := by
  induction text with
  | nil => rfl
  | cons a text ih =>
      rw [encodeAll_cons, List.length_append, code.encode_length, ih, List.length_cons, Nat.mul_succ, Nat.add_comm]

theorem decode_nil : code.decode [] = some [] := by
  rw [decode, if_pos List.length_nil]

theorem decode_encode_append (a : α) (symbols : List σ) :
    code.decode (code.encode a ++ symbols) = (code.decode symbols).map (a :: ·) := by
  have hwidth := code.width_pos
  have hne : ¬(code.encode a ++ symbols).length = 0 := by
    rw [List.length_append, code.encode_length]
    omega
  rw [decode, if_neg hne, List.take_left' (code.encode_length a), List.drop_left' (code.encode_length a),
    (code.decodeBlock_iff _ a).mpr rfl]

theorem decode_encodeAll (text : List α) : code.decode (code.encodeAll text) = some text := by
  induction text with
  | nil => exact code.decode_nil
  | cons a text ih => rw [encodeAll_cons, decode_encode_append, ih, Option.map_some]

end BlockCode
