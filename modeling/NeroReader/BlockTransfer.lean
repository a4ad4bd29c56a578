import Mathlib.Data.List.Infix
import Mathlib.Algebra.Order.Ring.Nat

/-!
Transfer of a message in blocks. A sender that cannot hand out a message at once keeps it and gives one
block for each request for more; a failed block or an interruption ends the transfer. The point of the
library is `openAfter_eq_some_iff`: which block comes next is a function of the requests, without the
state of the sender, and `blocks_flatten`: the blocks make up the message.
-/

namespace BlockTransfer

variable {α : Type}

/-! ### The blocks of a message -/

def block (cap : Nat) (message : List α) (k : Nat) : List α := (message.drop (k * cap)).take cap

/-- An empty message is one empty block. -/
def blockCount (cap : Nat) (message : List α) : Nat := (message.length - 1) / cap + 1

inductive Level where
  | single
  | first
  | middle
  | last
  deriving DecidableEq, Repr

/-- Where a block stands in its message. -/
def level (cap : Nat) (message : List α) (k : Nat) : Level :=
  if message.length ≤ cap then .single
  else if k = 0 then .first
  else if message.length ≤ (k + 1) * cap then .last
  else .middle

variable {cap : Nat} {message : List α}

theorem block_length_le (k : Nat) : (block cap message k).length ≤ cap := List.length_take_le _ _

/-- There is a block behind the k-th one exactly when bytes are left behind it. -/
theorem succ_lt_blockCount_iff (hcap : 0 < cap) (k : Nat) :
    k + 1 < blockCount cap message ↔ (k + 1) * cap < message.length := by
  rw [blockCount, Nat.add_lt_add_iff_right, Nat.lt_iff_add_one_le, Nat.le_div_iff_mul_le hcap]
  have : 0 < (k + 1) * cap := Nat.mul_pos k.succ_pos hcap
  omega

/-- A block with its number in the message has data, the only block of an empty message apart. -/
theorem block_ne_nil (hcap : 0 < cap) {k : Nat} (hk : k + 1 < blockCount cap message) :
    block cap message (k + 1) ≠ [] := by
  have hrest := (succ_lt_blockCount_iff hcap k).mp hk
  rw [block, ← List.length_pos_iff, List.length_take, List.length_drop]
  omega

theorem flatMap_block (n : Nat) : (List.range n).flatMap (block cap message) = message.take (n * cap) := by
  induction n with
  | zero => simp
  | succ n ih =>
      rw [List.range_succ, List.flatMap_append, ih, List.flatMap_singleton, block, Nat.succ_mul,
        List.take_add]

/-- **The blocks make up the message.** -/
theorem blocks_flatten (hcap : 0 < cap) :
    (List.range (blockCount cap message)).flatMap (block cap message) = message := by
  rw [flatMap_block]
  refine List.take_of_length_le ?_
  exact Nat.not_lt.mp ((succ_lt_blockCount_iff hcap ((message.length - 1) / cap)).not.mp (Nat.lt_irrefl _))

/-- A message is one single block, or a first block, middle blocks and a last one. -/
theorem level_eq (hcap : 0 < cap) {k : Nat} (hk : k < blockCount cap message) :
    level cap message k =
      if blockCount cap message = 1 then .single
      else if k = 0 then .first else if k + 1 = blockCount cap message then .last else .middle := by
  have hone : blockCount cap message = 1 ↔ message.length ≤ cap := by
    have hsecond : 0 + 1 < blockCount cap message ↔ (0 + 1) * cap < message.length := succ_lt_blockCount_iff hcap 0
    rw [Nat.zero_add, Nat.one_mul] at hsecond
    have : 0 < blockCount cap message := Nat.succ_pos _
    omega
  have hlast : k + 1 = blockCount cap message ↔ message.length ≤ (k + 1) * cap := by
    have hnext : k + 1 < blockCount cap message ↔ (k + 1) * cap < message.length := succ_lt_blockCount_iff hcap k
    omega
  rw [level]
  simp only [← hone, ← hlast]

/-! ### The sender -/

/-- What a sender meets: nothing it takes notice of, an interruption, a new message with whether its
first block went out, a request for more with whether the block went out. -/
inductive Ask (α : Type) where
  | skip
  | cut
  | load (message : List α) (sent : Bool)
  | more (sent : Bool)
  deriving DecidableEq

/-- The transfer behind the k-th block. -/
def advance (cap : Nat) (message : List α) (k : Nat) (sent : Bool) : Option (List α × Nat) :=
  if sent = false ∨ message.length ≤ (k + 1) * cap then none else some (message, k + 1)

/-- The open transfer behind an ask: its message and the number of blocks given. -/
def openStep (cap : Nat) : Option (List α × Nat) → Ask α → Option (List α × Nat)
  | transfer, .skip => transfer
  | _, .cut => none
  | _, .load message sent => advance cap message 0 sent
  | none, .more _ => none
  | some (message, k), .more sent => advance cap message k sent

def openAfter (cap : Nat) (asks : List (Ask α)) : Option (List α × Nat) := asks.foldl (openStep cap) none

/-- How many requests for more there are. -/
def moreCount (asks : List (Ask α)) : Nat := asks.countP fun ask => ask matches .more _

/-- Nothing but requests for more that were served, and skipped asks. -/
def Continues (asks : List (Ask α)) : Prop := ∀ ask ∈ asks, ask = .skip ∨ ask = .more true

/-- `message` waits for its block `k`: the asks end with its first block and the requests for the blocks
before that one. -/
def Waiting (cap : Nat) (asks : List (Ask α)) (message : List α) (k : Nat) : Prop :=
  ∃ before rest, asks = before ++ .load message true :: rest ∧ Continues rest ∧
    k = moreCount rest + 1 ∧ k < blockCount cap message

@[simp] theorem openAfter_nil : openAfter cap ([] : List (Ask α)) = none := rfl

@[simp] theorem openAfter_snoc (asks : List (Ask α)) (ask : Ask α) :
    openAfter cap (asks ++ [ask]) = openStep cap (openAfter cap asks) ask := by
  simp only [openAfter, List.foldl_append, List.foldl_cons, List.foldl_nil]

theorem continues_snoc {asks : List (Ask α)} {ask : Ask α} :
    Continues (asks ++ [ask]) ↔ Continues asks ∧ (ask = .skip ∨ ask = .more true) := by
  simp only [Continues, List.forall_mem_append, List.forall_mem_singleton]

@[simp] theorem moreCount_nil : moreCount ([] : List (Ask α)) = 0 := rfl

@[simp] theorem moreCount_snoc_skip (asks : List (Ask α)) : moreCount (asks ++ [.skip]) = moreCount asks := by
  simp [moreCount]

@[simp] theorem moreCount_snoc_more (asks : List (Ask α)) (sent : Bool) :
    moreCount (asks ++ [.more sent]) = moreCount asks + 1 := by
  simp [moreCount]

theorem advance_eq_some_iff (hcap : 0 < cap) {m : List α} {k n : Nat} {sent : Bool} :
    advance cap message k sent = some (m, n) ↔
      sent = true ∧ message = m ∧ n = k + 1 ∧ n < blockCount cap message := by
  rw [advance]
  split
  · rename_i hdone
    refine iff_of_false (by simp) ?_
    rintro ⟨hsent, rfl, rfl, hlt⟩
    rw [succ_lt_blockCount_iff hcap] at hlt
    rcases hdone with hfail | hend
    · exact absurd (hsent.symm.trans hfail) (by decide)
    · omega
  · rename_i hgoes
    rw [not_or, Bool.not_eq_false, Nat.not_le] at hgoes
    rw [Option.some.injEq, Prod.mk.injEq]
    refine ⟨?_, fun h => ⟨h.2.1, h.2.2.1.symm⟩⟩
    rintro ⟨rfl, rfl⟩
    exact ⟨hgoes.1, rfl, rfl, (succ_lt_blockCount_iff hcap k).mpr hgoes.2⟩

theorem waiting_snoc_skip {asks : List (Ask α)} {k : Nat} :
    Waiting cap (asks ++ [.skip]) message k ↔ Waiting cap asks message k := by
  constructor
  · rintro ⟨before, rest, heq, hcont, hk, hlt⟩
    obtain rfl | ⟨rest, last, rfl⟩ := rest.eq_nil_or_concat
    · exact absurd (List.append_inj_right' heq rfl) (by simp)
    · rw [List.concat_eq_append, ← List.cons_append, ← List.append_assoc] at heq
      obtain ⟨rfl, hlast⟩ := List.append_inj' heq rfl
      obtain rfl := (List.cons.inj hlast).1
      rw [List.concat_eq_append] at hcont hk
      exact ⟨before, rest, rfl, (continues_snoc.mp hcont).1, hk.trans (by simp), hlt⟩
  · rintro ⟨before, rest, rfl, hcont, hk, hlt⟩
    exact ⟨before, rest ++ [.skip], by simp, continues_snoc.mpr ⟨hcont, .inl rfl⟩, by simpa using hk, hlt⟩

theorem waiting_snoc_more {asks : List (Ask α)} {k : Nat} {sent : Bool} :
    Waiting cap (asks ++ [.more sent]) message k ↔
      sent = true ∧ ∃ j, Waiting cap asks message j ∧ k = j + 1 ∧ k < blockCount cap message := by
  constructor
  · rintro ⟨before, rest, heq, hcont, hk, hlt⟩
    obtain rfl | ⟨rest, last, rfl⟩ := rest.eq_nil_or_concat
    · exact absurd (List.append_inj_right' heq rfl) (by simp)
    · rw [List.concat_eq_append, ← List.cons_append, ← List.append_assoc] at heq
      obtain ⟨rfl, hlast⟩ := List.append_inj' heq rfl
      obtain rfl := (List.cons.inj hlast).1
      rw [List.concat_eq_append] at hcont hk
      obtain ⟨hcont, hsent⟩ := continues_snoc.mp hcont
      rw [moreCount_snoc_more] at hk
      refine ⟨by simpa using hsent, moreCount rest + 1, ⟨before, rest, rfl, hcont, rfl, by omega⟩, hk, hlt⟩
  · rintro ⟨rfl, j, ⟨before, rest, rfl, hcont, rfl, -⟩, rfl, hlt⟩
    exact ⟨before, rest ++ [.more true], by simp, continues_snoc.mpr ⟨hcont, .inr rfl⟩, by simp, hlt⟩

theorem waiting_snoc_load {asks : List (Ask α)} {m : List α} {k : Nat} {sent : Bool} :
    Waiting cap (asks ++ [.load m sent]) message k ↔
      sent = true ∧ m = message ∧ k = 1 ∧ k < blockCount cap message := by
  constructor
  · rintro ⟨before, rest, heq, hcont, hk, hlt⟩
    obtain rfl | ⟨rest, last, rfl⟩ := rest.eq_nil_or_concat
    · have hlast := (List.cons.inj (List.append_inj_right' heq rfl)).1
      obtain ⟨rfl, rfl⟩ := Ask.load.inj hlast
      exact ⟨rfl, rfl, hk, hlt⟩
    · rw [List.concat_eq_append, ← List.cons_append, ← List.append_assoc] at heq
      obtain ⟨-, hlast⟩ := List.append_inj' heq rfl
      rw [List.concat_eq_append] at hcont
      rcases (continues_snoc.mp hcont).2 with rfl | rfl <;> exact absurd hlast (by simp)
  · rintro ⟨rfl, rfl, rfl, hlt⟩
    exact ⟨asks, [], rfl, by simp [Continues], rfl, hlt⟩

theorem not_waiting_snoc_cut {asks : List (Ask α)} {k : Nat} : ¬ Waiting cap (asks ++ [.cut]) message k := by
  rintro ⟨before, rest, heq, hcont, -, -⟩
  obtain rfl | ⟨rest, last, rfl⟩ := rest.eq_nil_or_concat
  · exact absurd (List.append_inj_right' heq rfl) (by simp)
  · rw [List.concat_eq_append, ← List.cons_append, ← List.append_assoc] at heq
    obtain ⟨-, hlast⟩ := List.append_inj' heq rfl
    rw [List.concat_eq_append] at hcont
    rcases (continues_snoc.mp hcont).2 with rfl | rfl <;> exact absurd hlast (by simp)

/-- **The sender's memory is read off the asks.** -/
theorem openAfter_eq_some_iff (hcap : 0 < cap) (asks : List (Ask α)) (message : List α) (k : Nat) :
    openAfter cap asks = some (message, k) ↔ Waiting cap asks message k := by
  induction asks using List.reverseRecOn generalizing message k with
  | nil => exact iff_of_false (by simp) (by rintro ⟨before, rest, heq, -⟩; simp at heq)
  | append_singleton asks ask ih =>
      rw [openAfter_snoc]
      cases ask with
      | skip => exact (ih message k).trans waiting_snoc_skip.symm
      | cut => exact iff_of_false (by cases openAfter cap asks <;> simp [openStep]) not_waiting_snoc_cut
      | load m sent =>
          have hstep : openStep cap (openAfter cap asks) (.load m sent) = advance cap m 0 sent := by
            cases openAfter cap asks <;> rfl
          rw [hstep, advance_eq_some_iff hcap, waiting_snoc_load]
          constructor
          · rintro ⟨hsent, rfl, rfl, hlt⟩
            exact ⟨hsent, rfl, rfl, hlt⟩
          · rintro ⟨hsent, rfl, rfl, hlt⟩
            exact ⟨hsent, rfl, rfl, hlt⟩
      | more sent =>
          rw [waiting_snoc_more]
          cases hopen : openAfter cap asks with
          | none =>
              refine iff_of_false (by simp [openStep]) ?_
              rintro ⟨-, j, hj, -⟩
              exact absurd (hopen.symm.trans ((ih message j).mpr hj)) (by simp)
          | some transfer =>
              obtain ⟨m, j⟩ := transfer
              rw [openStep, advance_eq_some_iff hcap]
              constructor
              · rintro ⟨hsent, rfl, rfl, hlt⟩
                exact ⟨hsent, j, (ih m j).mp hopen, rfl, hlt⟩
              · rintro ⟨hsent, i, hi, rfl, hlt⟩
                obtain ⟨rfl, rfl⟩ := Prod.mk.inj (Option.some.inj (hopen.symm.trans ((ih message i).mpr hi)))
                exact ⟨hsent, rfl, rfl, hlt⟩

theorem openAfter_eq_none_iff (hcap : 0 < cap) (asks : List (Ask α)) :
    openAfter cap asks = none ↔ ∀ message k, ¬ Waiting cap asks message k := by
  rw [Option.eq_none_iff_forall_ne_some]
  exact ⟨fun h message k hw => h (message, k) ((openAfter_eq_some_iff hcap asks message k).mpr hw),
    fun h transfer heq => h transfer.1 transfer.2 ((openAfter_eq_some_iff hcap asks _ _).mp heq)⟩

end BlockTransfer
