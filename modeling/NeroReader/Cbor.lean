import Mathlib.Algebra.Group.Nat.Defs
import Mathlib.Data.List.Basic

/-!
CBOR data items as small authenticator messages use them: integers, byte and text strings, arrays, maps and
the short simple values, every length stated. The encoder writes each head in its shortest form; the
decoder reads any form, and gives up where an item is cut off. What was encoded is decoded again, whatever
follows it (`decodeItem_encode`), and a map that states more entries than stand there is no item at all
(`decode_short_map`).
-/

namespace Cbor

abbrev Octet := BitVec 8

inductive Item where
  | unsigned (n : Nat)
  | negative (n : Nat)
  | bytes (content : List Octet)
  | text (content : List Octet)
  | array (items : List Item)
  | map (entries : List (Item × Item))
  | simple (value : Nat)

/-! ### Heads -/

/-- The last `k` base-256 digits of a number. -/
def digits : Nat → Nat → List Octet
  | 0, _ => []
  | k + 1, n => BitVec.ofNat 8 (n / 256 ^ k) :: digits k n

def number (acc : Nat) : List Octet → Nat
  | [] => acc
  | b :: rest => number (256 * acc + b.toNat) rest

/-- The head of an item of a major type, with its number in the shortest form. -/
def head (major n : Nat) : List Octet :=
  if n < 24 then [BitVec.ofNat 8 (32 * major + n)]
  else if n < 256 then BitVec.ofNat 8 (32 * major + 24) :: digits 1 n
  else if n < 256 ^ 2 then BitVec.ofNat 8 (32 * major + 25) :: digits 2 n
  else if n < 256 ^ 4 then BitVec.ofNat 8 (32 * major + 26) :: digits 4 n
  else BitVec.ofNat 8 (32 * major + 27) :: digits 8 n

/-- A number that follows its head. -/
def readNumber (major k : Nat) (rest : List Octet) : Option (Nat × Nat × List Octet) :=
  if rest.length < k then none else some (major, number 0 (rest.take k), rest.drop k)

/-- The major type, the number and what follows the head. -/
def readHead : List Octet → Option (Nat × Nat × List Octet)
  | [] => none
  | ib :: rest =>
      let major := ib.toNat / 32
      let info := ib.toNat % 32
      if info < 24 then some (major, info, rest)
      else if info = 24 then readNumber major 1 rest
      else if info = 25 then readNumber major 2 rest
      else if info = 26 then readNumber major 4 rest
      else if info = 27 then readNumber major 8 rest
      else none

/-! ### Items -/

mutual

def encode : Item → List Octet
  | .unsigned n => head 0 n
  | .negative n => head 1 n
  | .bytes content => head 2 content.length ++ content
  | .text content => head 3 content.length ++ content
  | .array items => head 4 items.length ++ encodeAll items
  | .map entries => head 5 entries.length ++ encodeEntries entries
  | .simple value => head 7 value

def encodeAll : List Item → List Octet
  | [] => []
  | item :: rest => encode item ++ encodeAll rest

def encodeEntries : List (Item × Item) → List Octet
  | [] => []
  | (key, value) :: rest => encode key ++ (encode value ++ encodeEntries rest)

end

section Many

variable (dec : List Octet → Option (Item × List Octet))

/-- So many items in a row. -/
def decodeMany : Nat → List Octet → Option (List Item × List Octet)
  | 0, rest => some ([], rest)
  | n + 1, stream => do
      let (item, rest) ← dec stream
      let (items, rest) ← decodeMany n rest
      return (item :: items, rest)

/-- So many entries of a map in a row. -/
def decodeEntries : Nat → List Octet → Option (List (Item × Item) × List Octet)
  | 0, rest => some ([], rest)
  | n + 1, stream => do
      let (key, rest) ← dec stream
      let (value, rest) ← dec rest
      let (entries, rest) ← decodeEntries n rest
      return ((key, value) :: entries, rest)

end Many

def readContent (n : Nat) (rest : List Octet) : Option (List Octet × List Octet) :=
  if rest.length < n then none else some (rest.take n, rest.drop n)

/-- One item and what follows it, down to `fuel` levels. -/
def decodeItem : Nat → List Octet → Option (Item × List Octet)
  | 0, _ => none
  | fuel + 1, stream => do
      let (major, n, rest) ← readHead stream
      match major with
      | 0 => some (.unsigned n, rest)
      | 1 => some (.negative n, rest)
      | 2 => (readContent n rest).map fun (content, rest) => (.bytes content, rest)
      | 3 => (readContent n rest).map fun (content, rest) => (.text content, rest)
      | 4 => (decodeMany (decodeItem fuel) n rest).map fun (items, rest) => (.array items, rest)
      | 5 => (decodeEntries (decodeItem fuel) n rest).map fun (entries, rest) => (.map entries, rest)
      | 7 => if n < 24 then some (.simple n, rest) else none
      | _ => none

/-- The item a string is, when it is exactly one. -/
def decode (stream : List Octet) : Option Item :=
  match decodeItem (stream.length + 1) stream with
  | some (item, []) => some item
  | _ => none

/-! ### Reading heads back -/

theorem length_digits (k n : Nat) : (digits k n).length = k := by
  induction k with
  | zero => rfl
  | succ k ih => rw [digits, List.length_cons, ih]

theorem number_digits {k n : Nat} (acc : Nat) (h : n < 256 ^ k) : number acc (digits k n) = 256 ^ k * acc + n := by
  have hmod : ∀ (k n acc : Nat), number acc (digits k n) = 256 ^ k * acc + n % 256 ^ k := by
    intro k
    induction k with
    | zero =>
        intro n acc
        rw [digits, number, Nat.pow_zero, Nat.one_mul, Nat.mod_one, Nat.add_zero]
    | succ k ih =>
        intro n acc
        have hsplit : n % 256 ^ (k + 1) = 256 ^ k * (n / 256 ^ k % 256) + n % 256 ^ k := by
          rw [Nat.pow_succ, Nat.mod_mul, Nat.add_comm]
        have hbyte : (BitVec.ofNat 8 (n / 256 ^ k) : Octet).toNat = n / 256 ^ k % 256 := BitVec.toNat_ofNat ..
        rw [digits, number, ih, hsplit, hbyte, Nat.mul_add, Nat.add_assoc, ← Nat.mul_assoc, Nat.pow_succ]
  rw [hmod, Nat.mod_eq_of_lt h]

/-- **A head is read back.** -/
theorem readHead_head {major n : Nat} (rest : List Octet) (hmajor : major < 8) (hn : n < 256 ^ 8) :
    readHead (head major n ++ rest) = some (major, n, rest) := by
  have hinfo : ∀ info < 32, (BitVec.ofNat 8 (32 * major + info) : Octet).toNat = 32 * major + info := by
    intro info hlt
    exact (BitVec.toNat_ofNat ..).trans (Nat.mod_eq_of_lt (by omega))
  have hlong : ∀ k, n < 256 ^ k → readNumber major k (digits k n ++ rest) = some (major, n, rest) := by
    intro k hk
    have hlen := length_digits k n
    rw [readNumber, if_neg (by rw [List.length_append]; omega), List.take_left' hlen, List.drop_left' hlen,
      number_digits 0 hk, Nat.mul_zero, Nat.zero_add]
  rw [head]
  by_cases h1 : n < 24
  · rw [if_pos h1, List.singleton_append, readHead]
    simp only [hinfo n (by omega)]
    rw [if_pos (by omega), show (32 * major + n) / 32 = major by omega, show (32 * major + n) % 32 = n by omega]
  rw [if_neg h1]
  by_cases h2 : n < 256
  · rw [if_pos h2, List.cons_append, readHead]
    simp only [hinfo 24 (by omega)]
    rw [if_neg (by omega), if_pos (by omega), show (32 * major + 24) / 32 = major by omega, hlong 1 h2]
  rw [if_neg h2]
  by_cases h3 : n < 256 ^ 2
  · rw [if_pos h3, List.cons_append, readHead]
    simp only [hinfo 25 (by omega)]
    rw [if_neg (by omega), if_neg (by omega), if_pos (by omega), show (32 * major + 25) / 32 = major by omega,
      hlong 2 h3]
  rw [if_neg h3]
  by_cases h4 : n < 256 ^ 4
  · rw [if_pos h4, List.cons_append, readHead]
    simp only [hinfo 26 (by omega)]
    rw [if_neg (by omega), if_neg (by omega), if_neg (by omega), if_pos (by omega),
      show (32 * major + 26) / 32 = major by omega, hlong 4 h4]
  · rw [if_neg h4, List.cons_append, readHead]
    simp only [hinfo 27 (by omega)]
    rw [if_neg (by omega), if_neg (by omega), if_neg (by omega), if_neg (by omega), if_pos (by omega),
      show (32 * major + 27) / 32 = major by omega, hlong 8 hn]

theorem readContent_append (content rest : List Octet) :
    readContent content.length (content ++ rest) = some (content, rest) := by
  rw [readContent, if_neg (by rw [List.length_append]; omega), List.take_left, List.drop_left]

theorem length_head_pos (major n : Nat) : 0 < (head major n).length := by
  rw [head]
  split
  · exact Nat.succ_pos _
  split
  · exact Nat.succ_pos _
  split
  · exact Nat.succ_pos _
  split <;> exact Nat.succ_pos _

/-! ### Reading items back -/

mutual

/-- How deep items are nested. -/
def Item.depth : Item → Nat
  | .array items => depthAll items + 1
  | .map entries => depthEntries entries + 1
  | _ => 1

def depthAll : List Item → Nat
  | [] => 0
  | item :: rest => max item.depth (depthAll rest)

def depthEntries : List (Item × Item) → Nat
  | [] => 0
  | (key, value) :: rest => max (max key.depth value.depth) (depthEntries rest)

end

mutual

/-- Every number fits its field. -/
def Item.Fits : Item → Prop
  | .unsigned n => n < 256 ^ 8
  | .negative n => n < 256 ^ 8
  | .bytes content => content.length < 256 ^ 8
  | .text content => content.length < 256 ^ 8
  | .array items => items.length < 256 ^ 8 ∧ FitsAll items
  | .map entries => entries.length < 256 ^ 8 ∧ FitsEntries entries
  | .simple value => value < 24

def FitsAll : List Item → Prop
  | [] => True
  | item :: rest => item.Fits ∧ FitsAll rest

def FitsEntries : List (Item × Item) → Prop
  | [] => True
  | (key, value) :: rest => key.Fits ∧ value.Fits ∧ FitsEntries rest

end

mutual

/-- **An item is read back**, whatever follows it. -/
theorem decodeItem_encode : ∀ (item : Item) (fuel : Nat) (rest : List Octet), item.Fits → item.depth ≤ fuel →
    decodeItem fuel (encode item ++ rest) = some (item, rest)
  | item, 0, _, _, hdepth => by
      cases item <;> simp [Item.depth] at hdepth
  | .unsigned n, fuel + 1, rest, hfits, _ => by
      rw [encode, decodeItem, readHead_head rest (by decide) hfits]
      rfl
  | .negative n, fuel + 1, rest, hfits, _ => by
      rw [encode, decodeItem, readHead_head rest (by decide) hfits]
      rfl
  | .bytes content, fuel + 1, rest, hfits, _ => by
      rw [encode, decodeItem, List.append_assoc, readHead_head _ (by decide) hfits, Option.bind_eq_bind,
        Option.bind_some]
      simp only [readContent_append, Option.map_some]
  | .text content, fuel + 1, rest, hfits, _ => by
      rw [encode, decodeItem, List.append_assoc, readHead_head _ (by decide) hfits, Option.bind_eq_bind,
        Option.bind_some]
      simp only [readContent_append, Option.map_some]
  | .array items, fuel + 1, rest, hfits, hdepth => by
      rw [Item.depth] at hdepth
      have hitems := decodeMany_encodeAll items fuel rest hfits.2 (Nat.le_of_succ_le_succ hdepth)
      rw [encode, decodeItem, List.append_assoc, readHead_head _ (by decide) hfits.1, Option.bind_eq_bind,
        Option.bind_some]
      simp only [hitems, Option.map_some]
  | .map entries, fuel + 1, rest, hfits, hdepth => by
      rw [Item.depth] at hdepth
      have hentries := decodeEntries_encodeEntries entries fuel 0 rest hfits.2 (Nat.le_of_succ_le_succ hdepth)
      rw [encode, decodeItem, List.append_assoc, readHead_head _ (by decide) hfits.1, Option.bind_eq_bind,
        Option.bind_some]
      rw [Nat.add_zero] at hentries
      simp only [hentries, decodeEntries, Option.map_some, List.append_nil]
  | .simple value, fuel + 1, rest, hfits, _ => by
      have hvalue : value < 24 := hfits
      rw [encode, decodeItem, readHead_head rest (by decide) (by omega), Option.bind_eq_bind, Option.bind_some]
      exact if_pos hvalue

theorem decodeMany_encodeAll : ∀ (items : List Item) (fuel : Nat) (rest : List Octet), FitsAll items →
    depthAll items ≤ fuel → decodeMany (decodeItem fuel) items.length (encodeAll items ++ rest) = some (items, rest)
  | [], _, _, _, _ => rfl
  | item :: items, fuel, rest, hfits, hdepth => by
      rw [depthAll] at hdepth
      have hitem := decodeItem_encode item fuel (encodeAll items ++ rest) hfits.1 (by omega)
      have hitems := decodeMany_encodeAll items fuel rest hfits.2 (by omega)
      rw [encodeAll, List.length_cons, decodeMany, List.append_assoc, hitem, Option.bind_eq_bind, Option.bind_some]
      simp only [hitems]
      rfl

/-- Entries are read back, and then as many more as were asked for. -/
theorem decodeEntries_encodeEntries : ∀ (entries : List (Item × Item)) (fuel more : Nat) (rest : List Octet),
    FitsEntries entries → depthEntries entries ≤ fuel →
    decodeEntries (decodeItem fuel) (entries.length + more) (encodeEntries entries ++ rest) =
      (decodeEntries (decodeItem fuel) more rest).map fun found => (entries ++ found.1, found.2)
  | [], fuel, more, rest, _, _ => by
      rw [List.length_nil, Nat.zero_add, encodeEntries, List.nil_append]
      cases decodeEntries (decodeItem fuel) more rest <;> rfl
  | (key, value) :: entries, fuel, more, rest, hfits, hdepth => by
      rw [depthEntries] at hdepth
      have hkey := decodeItem_encode key fuel (encode value ++ (encodeEntries entries ++ rest)) hfits.1 (by omega)
      have hvalue := decodeItem_encode value fuel (encodeEntries entries ++ rest) hfits.2.1 (by omega)
      have hentries := decodeEntries_encodeEntries entries fuel more rest hfits.2.2 (by omega)
      rw [encodeEntries, List.length_cons, Nat.add_right_comm, decodeEntries, List.append_assoc, List.append_assoc,
        hkey, Option.bind_eq_bind, Option.bind_some]
      simp only [hvalue, hentries, Option.bind_eq_bind, Option.bind_some]
      cases decodeEntries (decodeItem fuel) more rest <;> rfl

end

mutual

theorem depth_le_length : ∀ item : Item, item.depth ≤ (encode item).length
  | .unsigned n => length_head_pos 0 n
  | .negative n => length_head_pos 1 n
  | .bytes content => by
      have hhead := length_head_pos 2 content.length
      rw [encode, List.length_append]
      exact Nat.le_add_right_of_le hhead
  | .text content => by
      have hhead := length_head_pos 3 content.length
      rw [encode, List.length_append]
      exact Nat.le_add_right_of_le hhead
  | .array items => by
      have hitems := depthAll_le_length items
      have hhead := length_head_pos 4 items.length
      rw [Item.depth, encode, List.length_append]
      omega
  | .map entries => by
      have hentries := depthEntries_le_length entries
      have hhead := length_head_pos 5 entries.length
      rw [Item.depth, encode, List.length_append]
      omega
  | .simple value => length_head_pos 7 value

theorem depthAll_le_length : ∀ items : List Item, depthAll items ≤ (encodeAll items).length
  | [] => Nat.zero_le _
  | item :: items => by
      have hitem := depth_le_length item
      have hitems := depthAll_le_length items
      rw [depthAll, encodeAll, List.length_append]
      omega

theorem depthEntries_le_length : ∀ entries : List (Item × Item),
    depthEntries entries ≤ (encodeEntries entries).length
  | [] => Nat.zero_le _
  | (key, value) :: entries => by
      have hkey := depth_le_length key
      have hvalue := depth_le_length value
      have hentries := depthEntries_le_length entries
      rw [depthEntries, encodeEntries, List.length_append, List.length_append]
      omega

end

/-- **Exactly one item is decoded from its encoding.** -/
theorem decode_encode {item : Item} (h : item.Fits) : decode (encode item) = some item := by
  have hdepth := depth_le_length item
  have hitem := decodeItem_encode item ((encode item).length + 1) [] h (by omega)
  rw [List.append_nil] at hitem
  rw [decode, hitem]

/-- **A map that states one entry more than there are keys with values is no item.** -/
theorem decode_short_map {entries : List (Item × Item)} {key : Item} (hlen : entries.length + 1 < 256 ^ 8)
    (hfits : FitsEntries entries) (hkey : key.Fits) :
    decode (head 5 (entries.length + 1) ++ (encodeEntries entries ++ encode key)) = none := by
  have hhead := length_head_pos 5 (entries.length + 1)
  have hdepth := depthEntries_le_length entries
  have hkeyDepth := depth_le_length key
  have hlast : ∀ fuel, key.depth ≤ fuel → decodeEntries (decodeItem fuel) 1 (encode key) = none := by
    intro fuel hfuel
    have hread := decodeItem_encode key fuel [] hkey hfuel
    rw [List.append_nil] at hread
    have hnothing : decodeItem fuel [] = none := by cases fuel <;> rfl
    rw [decodeEntries, hread, Option.bind_eq_bind, Option.bind_some]
    simp only [hnothing]
    rfl
  rw [decode, decodeItem, readHead_head _ (by decide) hlen, Option.bind_eq_bind, Option.bind_some]
  simp only [List.length_append]
  rw [decodeEntries_encodeEntries entries _ 1 (encode key) hfits (by omega), hlast _ (by omega)]
  rfl

end Cbor
