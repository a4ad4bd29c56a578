import Mathlib.Data.List.Infix

/-!
Reassembly of messages from pieces. A stream brings whole messages and messages cut into a first piece,
middle pieces and a last one; a receiver of limited capacity keeps one open message, and gives it up
when something else comes in between. Pieces that the receiver takes no notice of are `skip`, an
interruption is `cut`. The point of the library is `mem_delivered_iff`: what the receiver delivers is
described by the pieces alone, without its state.
-/

namespace Reassembly

variable {α : Type}

inductive Piece (α : Type) where
  | skip
  | cut
  | single (data : List α)
  | first (data : List α)
  | middle (data : List α)
  | last (data : List α)
  deriving DecidableEq

/-- The open message behind a piece. -/
def openStep (capacity : Nat) : Option (List α) → Piece α → Option (List α)
  | pending, .skip => pending
  | _, .cut => none
  | _, .single _ => none
  | _, .first data => if data.length ≤ capacity then some data else none
  | none, .middle _ => none
  | some pending, .middle data =>
      if pending.length + data.length ≤ capacity then some (pending ++ data) else none
  | _, .last _ => none

/-- The messages a piece completes: at most one. -/
def delivered (capacity : Nat) : Option (List α) → Piece α → List (List α)
  | none, .single data => [data]
  | some pending, .last data =>
      if pending.length + data.length ≤ capacity then [pending ++ data] else []
  | _, _ => []

/-- The open message behind a stream. -/
def openAfter (capacity : Nat) (pieces : List (Piece α)) : Option (List α) :=
  pieces.foldl (openStep capacity) none

/-- A first piece with the middle pieces behind it, nothing but skipped pieces among them, and the data
they carry in order. -/
inductive Chain (capacity : Nat) : List (Piece α) → List α → Prop where
  | first {data : List α} (fits : data.length ≤ capacity) : Chain capacity [.first data] data
  | middle {pieces : List (Piece α)} {pending data : List α} (chain : Chain capacity pieces pending)
      (fits : pending.length + data.length ≤ capacity) :
      Chain capacity (pieces ++ [.middle data]) (pending ++ data)
  | skip {pieces : List (Piece α)} {pending : List α} (chain : Chain capacity pieces pending) :
      Chain capacity (pieces ++ [.skip]) pending

/-- `piece` completes `message` behind `history`: a single piece when no chain is open, or the last
piece of a chain that the history ends with. -/
inductive Completes (capacity : Nat) (history : List (Piece α)) : Piece α → List α → Prop where
  | single {data : List α}
      (closed : ∀ pieces pending, pieces <:+ history → ¬ Chain capacity pieces pending) :
      Completes capacity history (.single data) data
  | chain {pieces : List (Piece α)} {pending data : List α} (suffix : pieces <:+ history)
      (chain : Chain capacity pieces pending) (fits : pending.length + data.length ≤ capacity) :
      Completes capacity history (.last data) (pending ++ data)

variable {capacity : Nat}

@[simp] theorem openAfter_nil : openAfter capacity ([] : List (Piece α)) = none := rfl

@[simp] theorem openAfter_snoc (pieces : List (Piece α)) (piece : Piece α) :
    openAfter capacity (pieces ++ [piece]) = openStep capacity (openAfter capacity pieces) piece := by
  simp only [openAfter, List.foldl_append, List.foldl_cons, List.foldl_nil]

/-- A chain opens its message whatever came before it. -/
theorem Chain.foldl_openStep {pieces : List (Piece α)} {pending : List α} (h : Chain capacity pieces pending)
    (start : Option (List α)) : pieces.foldl (openStep capacity) start = some pending := by
  induction h with
  | first fits =>
      simp only [List.foldl_cons, List.foldl_nil, openStep]
      exact if_pos fits
  | middle _ fits ih =>
      simp only [List.foldl_append, List.foldl_cons, List.foldl_nil, ih, openStep]
      exact if_pos fits
  | skip _ ih => simp only [List.foldl_append, List.foldl_cons, List.foldl_nil, ih, openStep]

/-- An open message comes from a chain that the stream ends with. -/
theorem exists_chain_of_openAfter (pieces : List (Piece α)) :
    ∀ pending, openAfter capacity pieces = some pending →
      ∃ suffix, suffix <:+ pieces ∧ Chain capacity suffix pending := by
  induction pieces using List.reverseRecOn with
  | nil => simp
  | append_singleton pieces piece ih =>
      intro pending h
      rw [openAfter_snoc] at h
      cases piece with
      | skip =>
          obtain ⟨suffix, ⟨before, rfl⟩, hchain⟩ := ih pending h
          exact ⟨suffix ++ [.skip], ⟨before, by simp⟩, .skip hchain⟩
      | cut => simp [openStep] at h
      | single data => simp [openStep] at h
      | first data =>
          simp only [openStep, Option.ite_none_right_eq_some, Option.some.injEq] at h
          obtain ⟨hfits, rfl⟩ := h
          exact ⟨[.first data], ⟨pieces, rfl⟩, .first hfits⟩
      | middle data =>
          cases hopen : openAfter capacity pieces with
          | none => simp [hopen, openStep] at h
          | some prior =>
              rw [hopen] at h
              simp only [openStep, Option.ite_none_right_eq_some, Option.some.injEq] at h
              obtain ⟨hfits, rfl⟩ := h
              obtain ⟨suffix, ⟨before, rfl⟩, hchain⟩ := ih prior hopen
              exact ⟨suffix ++ [.middle data], ⟨before, by simp⟩, .middle hchain hfits⟩
      | last data => simp [openStep] at h

/-- **The receiver's memory is a suffix of the stream.** -/
theorem openAfter_eq_some_iff (pieces : List (Piece α)) (pending : List α) :
    openAfter capacity pieces = some pending ↔ ∃ suffix, suffix <:+ pieces ∧ Chain capacity suffix pending := by
  refine ⟨exists_chain_of_openAfter pieces pending, ?_⟩
  rintro ⟨suffix, ⟨before, rfl⟩, hchain⟩
  rw [openAfter, List.foldl_append]
  exact hchain.foldl_openStep _

theorem openAfter_eq_none_iff (pieces : List (Piece α)) :
    openAfter capacity pieces = none ↔ ∀ suffix pending, suffix <:+ pieces → ¬ Chain capacity suffix pending := by
  constructor
  · intro hnone suffix pending hsuffix hchain
    have hsome := (openAfter_eq_some_iff pieces pending).mpr ⟨suffix, hsuffix, hchain⟩
    exact absurd (hnone.symm.trans hsome) (by simp)
  · intro hno
    cases hopen : openAfter capacity pieces with
    | none => rfl
    | some pending =>
        obtain ⟨suffix, hsuffix, hchain⟩ := exists_chain_of_openAfter pieces pending hopen
        exact absurd hchain (hno suffix pending hsuffix)

/-- No piece completes two messages. -/
theorem delivered_cases (capacity : Nat) (pending : Option (List α)) (piece : Piece α) :
    delivered capacity pending piece = [] ∨ ∃ message, delivered capacity pending piece = [message] := by
  unfold delivered
  split
  · exact Or.inr ⟨_, rfl⟩
  · split
    · exact Or.inr ⟨_, rfl⟩
    · exact Or.inl rfl
  · exact Or.inl rfl

/-- **What a receiver delivers.** A piece is answered with a message exactly when it completes that
message behind the stream so far. -/
theorem mem_delivered_iff (history : List (Piece α)) (piece : Piece α) (message : List α) :
    delivered capacity (openAfter capacity history) piece = [message] ↔
      Completes capacity history piece message := by
  constructor
  · intro h
    unfold delivered at h
    split at h
    · rename_i hopen
      obtain rfl := (List.cons.inj h).1
      exact .single ((openAfter_eq_none_iff history).mp hopen)
    · rename_i pending data hopen
      split at h
      · rename_i hfits
        obtain rfl := (List.cons.inj h).1
        obtain ⟨suffix, hsuffix, hchain⟩ := exists_chain_of_openAfter history pending hopen
        exact .chain hsuffix hchain hfits
      · simp at h
    · simp at h
  · intro h
    cases h with
    | single closed => rw [(openAfter_eq_none_iff history).mpr closed, delivered]
    | chain suffix chain fits =>
        rw [(openAfter_eq_some_iff history _).mpr ⟨_, suffix, chain⟩, delivered, if_pos fits]

end Reassembly
