import Mathlib.Data.List.Basic

/-!
Lists of attributes, each a two-byte identifier, a two-byte length and a value, big-endian and without
anything between them. Looking an attribute up takes the first with its identifier and gives up on the
first whose value is cut off. What was put is found again, and an attribute with another identifier in
front of it is stepped over.
-/

namespace Attributes

abbrev Octet := BitVec 8

def word (hi lo : Octet) : Nat := 256 * hi.toNat + lo.toNat

/-- A two-byte field. -/
def field (n : Nat) : List Octet := [BitVec.ofNat 8 (n / 256), BitVec.ofNat 8 n]

/-- One attribute. -/
def put (id : Nat) (value : List Octet) : List Octet := field id ++ field value.length ++ value

/-- The search, `fuel` attributes of it. -/
def findFrom (wanted : Nat) : Nat → List Octet → Option (List Octet)
  | fuel + 1, idHi :: idLo :: lenHi :: lenLo :: rest =>
      if rest.length < word lenHi lenLo then none
      else if word idHi idLo = wanted then some (rest.take (word lenHi lenLo))
      else findFrom wanted fuel (rest.drop (word lenHi lenLo))
  | _, _ => none

/-- The value of the first attribute with the wanted identifier. -/
def find (wanted : Nat) (attributes : List Octet) : Option (List Octet) :=
  findFrom wanted attributes.length attributes

theorem word_field {n : Nat} (h : n < 0x10000) : word (BitVec.ofNat 8 (n / 256)) (BitVec.ofNat 8 n) = n := by
  simp only [word, BitVec.toNat_ofNat]
  omega

@[simp] theorem length_put (id : Nat) (value : List Octet) : (put id value).length = 4 + value.length := by
  simp only [put, field, List.length_append, List.length_cons, List.length_nil]

variable {wanted id fuel : Nat} {value rest attributes : List Octet}

/-- The rounds a list allows for are enough. -/
theorem findFrom_eq_find (h : attributes.length ≤ fuel) : findFrom wanted fuel attributes = find wanted attributes := by
  have hstep : ∀ more n (list : List Octet), list.length ≤ n →
      findFrom wanted (n + more) list = findFrom wanted n list := by
    intro more n
    induction n with
    | zero =>
        intro list hlist
        obtain rfl := List.length_eq_zero_iff.mp (Nat.le_zero.mp hlist)
        cases more <;> rfl
    | succ n ih =>
        intro list hlist
        rw [Nat.add_right_comm]
        match list with
        | [] | [_] | [_, _] | [_, _, _] => rfl
        | idHi :: idLo :: lenHi :: lenLo :: tail =>
            simp only [List.length_cons] at hlist
            rw [findFrom, findFrom, ih _ (by rw [List.length_drop]; omega)]
  obtain ⟨more, rfl⟩ := Nat.exists_eq_add_of_le h
  exact hstep more _ _ (Nat.le_refl _)

/-- What stands at the front is an attribute. -/
theorem find_put (hid : id < 0x10000) (hvalue : value.length < 0x10000) :
    find wanted (put id value ++ rest) = if id = wanted then some value else find wanted rest := by
  have hput : put id value ++ rest =
      BitVec.ofNat 8 (id / 256) :: BitVec.ofNat 8 id :: BitVec.ofNat 8 (value.length / 256) ::
        BitVec.ofNat 8 value.length :: (value ++ rest) := by
    simp only [put, field, List.cons_append, List.nil_append]
  rw [find, List.length_append, length_put, hput,
    show 4 + value.length + rest.length = (3 + value.length + rest.length) + 1 by omega, findFrom,
    word_field hid, word_field hvalue,
    if_neg (by rw [List.length_append]; omega), List.take_left, List.drop_left,
    findFrom_eq_find (by omega)]

/-- **What was put is found**, whatever follows it. -/
theorem find_put_self (hid : id < 0x10000) (hvalue : value.length < 0x10000) :
    find id (put id value ++ rest) = some value := by
  rw [find_put hid hvalue, if_pos rfl]

/-- **Another attribute in front is stepped over.** -/
theorem find_put_other (hid : id < 0x10000) (hvalue : value.length < 0x10000) (hother : id ≠ wanted) :
    find wanted (put id value ++ rest) = find wanted rest := by
  rw [find_put hid hvalue, if_neg hother]

end Attributes
