import Mathlib.Computability.Language
import NeroReader.Cbor

/-!
The grammar of CBOR data items, nested down to so many levels. Arguments of heads take up to four bytes, in any
form and not only the shortest; strings, arrays and maps come with their length or end with a break byte. No item
starts with the break byte, so that the end of an open one is never in doubt.
-/

namespace Cbor

open scoped Computability

def breakByte : Octet := 0xFF

/-- The initial byte of an item of indefinite length. -/
def indefinite (major : Nat) : Octet := BitVec.ofNat 8 (32 * major + 31)

/-- How many bytes of argument follow an initial byte with this additional information. -/
def argLength (info : Nat) : Option Nat :=
  if info < 24 then some 0
  else if info = 24 then some 1
  else if info = 25 then some 2
  else if info = 26 then some 4
  else none

def argValue (info : Nat) (arg : List Octet) : Nat := if info < 24 then info else number 0 arg

/-- An initial byte and its argument. -/
inductive IsHead : Nat → Nat → List Octet → Prop where
  | mk (ib : Octet) (arg : List Octet) (h : argLength (ib.toNat % 32) = some arg.length) :
      IsHead (ib.toNat / 32) (argValue (ib.toNat % 32) arg) (ib :: arg)

def heads (major value : Nat) : Language Octet := {bytes | IsHead major value bytes}

def contents (n : Nat) : Language Octet := {bytes | bytes.length = n}

/-- A string with its length, as it stands alone and in pieces. -/
def strings (major : Nat) : Language Octet := {bytes | ∃ n, bytes ∈ heads major n * contents n}

/-- So many words as there are, up to a break byte. -/
def broken (L : Language Octet) : Language Octet := L∗ * {[breakByte]}

/-- One data item over a language of items to nest in it. -/
inductive IsItem (nested : Language Octet) : List Octet → Prop where
  | number {major value : Nat} {head : List Octet} (hmajor : major = 0 ∨ major = 1 ∨ major = 7)
      (hhead : head ∈ heads major value) : IsItem nested head
  | string {major : Nat} {bytes : List Octet} (hmajor : major = 2 ∨ major = 3) (h : bytes ∈ strings major) :
      IsItem nested bytes
  | array {n : Nat} {bytes : List Octet} (h : bytes ∈ heads 4 n * nested ^ n) : IsItem nested bytes
  | map {n : Nat} {bytes : List Octet} (h : bytes ∈ heads 5 n * (nested * nested) ^ n) : IsItem nested bytes
  | tag {value : Nat} {bytes : List Octet} (h : bytes ∈ heads 6 value * nested) : IsItem nested bytes
  | openString {major : Nat} {bytes : List Octet} (hmajor : major = 2 ∨ major = 3)
      (h : bytes ∈ {[indefinite major]} * broken (strings major)) : IsItem nested bytes
  | openArray {bytes : List Octet} (h : bytes ∈ {[indefinite 4]} * broken nested) : IsItem nested bytes
  | openMap {bytes : List Octet} (h : bytes ∈ {[indefinite 5]} * broken (nested * nested)) : IsItem nested bytes

/-- The data items of so many levels; one that holds no other takes one level. -/
def items : Nat → Language Octet
  | 0 => 0
  | levels + 1 => {bytes | IsItem (items levels) bytes}

/-! ### By the major type -/

/-- What follows the head of an item. -/
def behind (nested : Language Octet) (major value : Nat) : Language Octet :=
  match major with
  | 0 | 1 | 7 => 1
  | 2 | 3 => contents value
  | 4 => nested ^ value
  | 5 => (nested * nested) ^ value
  | 6 => nested
  | _ => 0

/-- What follows the initial byte of an item of indefinite length. -/
def behindOpen (nested : Language Octet) (major : Nat) : Language Octet :=
  match major with
  | 2 | 3 => broken (strings major)
  | 4 => broken nested
  | 5 => broken (nested * nested)
  | _ => 0

/-- **An item is read off its first byte.** -/
theorem isItem_iff {nested : Language Octet} {w : List Octet} :
    IsItem nested w ↔ (∃ major value, w ∈ heads major value * behind nested major value) ∨
      ∃ major, w ∈ {[indefinite major]} * behindOpen nested major := by
  constructor
  · intro h
    cases h with
    | @number major value head hmajor hhead =>
        refine Or.inl ⟨major, value, ?_⟩
        rcases hmajor with rfl | rfl | rfl <;> exact (mul_one (heads _ value)).symm ▸ hhead
    | @string major bytes hmajor h =>
        obtain ⟨n, hn⟩ := h
        rcases hmajor with rfl | rfl
        · exact Or.inl ⟨2, n, hn⟩
        · exact Or.inl ⟨3, n, hn⟩
    | @array n bytes h => exact Or.inl ⟨4, n, h⟩
    | @map n bytes h => exact Or.inl ⟨5, n, h⟩
    | @tag value bytes h => exact Or.inl ⟨6, value, h⟩
    | @openString major bytes hmajor h =>
        rcases hmajor with rfl | rfl
        · exact Or.inr ⟨2, h⟩
        · exact Or.inr ⟨3, h⟩
    | openArray h => exact Or.inr ⟨4, h⟩
    | openMap h => exact Or.inr ⟨5, h⟩
  · rintro (⟨major, value, h⟩ | ⟨major, h⟩)
    · rw [behind.eq_def] at h
      split at h
      · exact .number (Or.inl rfl) ((mul_one (heads 0 value)) ▸ h)
      · exact .number (Or.inr (Or.inl rfl)) ((mul_one (heads 1 value)) ▸ h)
      · exact .number (Or.inr (Or.inr rfl)) ((mul_one (heads 7 value)) ▸ h)
      · exact .string (Or.inl rfl) ⟨value, h⟩
      · exact .string (Or.inr rfl) ⟨value, h⟩
      · exact .array h
      · exact .map h
      · exact .tag h
      · rw [mul_zero] at h
        exact absurd h (Language.notMem_zero w)
    · rw [behindOpen.eq_def] at h
      split at h
      · exact .openString (Or.inl rfl) h
      · exact .openString (Or.inr rfl) h
      · exact .openArray h
      · exact .openMap h
      · rw [mul_zero] at h
        exact absurd h (Language.notMem_zero w)

/-! ### The first byte -/

/-- A word that does not start with a break byte. -/
def Starts (w : List Octet) : Prop := ∃ ib rest, w = ib :: rest ∧ ib ≠ breakByte

theorem Starts.append {w : List Octet} (h : Starts w) (rest : List Octet) : Starts (w ++ rest) := by
  obtain ⟨ib, tail, rfl, hib⟩ := h
  exact ⟨ib, tail ++ rest, rfl, hib⟩

theorem argLength_lt {info n : Nat} (h : argLength info = some n) : info < 27 := by
  by_contra hge
  rw [argLength, if_neg (by omega), if_neg (by omega), if_neg (by omega), if_neg (by omega)] at h
  cases h

theorem starts_of_heads {major value : Nat} {w : List Octet} (h : w ∈ heads major value) : Starts w := by
  obtain ⟨ib, arg, harg⟩ := h
  refine ⟨ib, arg, rfl, ?_⟩
  rintro rfl
  exact absurd (argLength_lt harg) (by decide)

theorem starts_of_heads_mul {major value : Nat} {L : Language Octet} {w : List Octet} (h : w ∈ heads major value * L) :
    Starts w := by
  obtain ⟨head, hhead, rest, -, rfl⟩ := Language.mem_mul.mp h
  exact (starts_of_heads hhead).append rest

theorem starts_of_strings {major : Nat} {w : List Octet} (h : w ∈ strings major) : Starts w := by
  obtain ⟨n, hn⟩ := h
  exact starts_of_heads_mul hn

theorem starts_of_open {major : Nat} {L : Language Octet} {w : List Octet} (hmajor : indefinite major ≠ breakByte)
    (h : w ∈ {[indefinite major]} * L) : Starts w := by
  obtain ⟨first, hfirst, rest, -, rfl⟩ := Language.mem_mul.mp h
  obtain rfl : first = [indefinite major] := hfirst
  exact ⟨indefinite major, rest, rfl, hmajor⟩

theorem starts_of_isItem {nested : Language Octet} {w : List Octet} (h : IsItem nested w) : Starts w := by
  cases h with
  | number hmajor hhead => exact starts_of_heads hhead
  | string hmajor h => exact starts_of_strings h
  | array h => exact starts_of_heads_mul h
  | map h => exact starts_of_heads_mul h
  | tag h => exact starts_of_heads_mul h
  | openString hmajor h =>
      rcases hmajor with rfl | rfl
      · exact starts_of_open (by decide) h
      · exact starts_of_open (by decide) h
  | openArray h => exact starts_of_open (by decide) h
  | openMap h => exact starts_of_open (by decide) h

/-- **No item starts with the break byte.** -/
theorem starts_of_items {levels : Nat} {w : List Octet} (h : w ∈ items levels) : Starts w := by
  cases levels with
  | zero => exact absurd h (Language.notMem_zero w)
  | succ levels => exact starts_of_isItem h

theorem starts_of_mul {L M : Language Octet} (hL : ∀ w ∈ L, Starts w) : ∀ w ∈ L * M, Starts w := by
  intro w h
  obtain ⟨first, hfirst, rest, -, rfl⟩ := Language.mem_mul.mp h
  exact (hL first hfirst).append rest

/-! ### Byte strings by their content -/

/-- A byte string with its length, as it stands alone and in pieces. -/
def piece (content : List Octet) : Language Octet := heads 2 content.length * {content}

/-- Pieces with a content in all. -/
def pieces (content : List Octet) : Language Octet :=
  {w | ∃ contents : List (List Octet), contents.flatten = content ∧ w ∈ (contents.map piece).prod}

def openBytes (content : List Octet) : Language Octet := {[indefinite 2]} * (pieces content * {[breakByte]})

/-- A byte string of this content, with its length or in pieces. -/
def byteString (content : List Octet) : Language Octet := piece content + openBytes content

/-- A byte string, or one behind a tag. -/
def taggedByteString (content : List Octet) : Language Octet :=
  {w | w ∈ byteString content ∨ ∃ tag, w ∈ heads 6 tag * byteString content}

/-- No piece is left, or one comes first. -/
theorem mem_pieces {content w : List Octet} : w ∈ pieces content ↔ (content = [] ∧ w ∈ (1 : Language Octet)) ∨
    ∃ first rest, content = first ++ rest ∧ w ∈ piece first * pieces rest := by
  constructor
  · rintro ⟨contents, rfl, hw⟩
    cases contents with
    | nil => exact Or.inl ⟨rfl, hw⟩
    | cons first contents =>
        rw [List.map_cons, List.prod_cons] at hw
        obtain ⟨a, ha, b, hb, rfl⟩ := Language.mem_mul.mp hw
        exact Or.inr ⟨first, contents.flatten, rfl, Language.append_mem_mul ha ⟨contents, rfl, hb⟩⟩
  · rintro (⟨rfl, hw⟩ | ⟨first, rest, rfl, hw⟩)
    · exact ⟨[], rfl, hw⟩
    · obtain ⟨a, ha, b, ⟨contents, rfl, hb⟩, rfl⟩ := Language.mem_mul.mp hw
      exact ⟨first :: contents, rfl, by rw [List.map_cons, List.prod_cons]; exact Language.append_mem_mul ha hb⟩

theorem starts_of_piece {content w : List Octet} (h : w ∈ piece content) : Starts w := starts_of_heads_mul h

end Cbor
