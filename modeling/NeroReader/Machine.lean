import Mathlib.Data.List.Basic
import Mathlib.Data.List.Chain

/-!
Guarded machines. A machine takes an event only where its guard allows it. A run keeps its history, the
events with the states they met, so that what a machine has put out, and how its past splits into parts,
are functions of the history.
-/

variable {S E O : Type}

structure Machine (S E : Type) where
  init : S
  allowed : S → E → Prop
  next : S → E → S

namespace Machine

/-- The histories of a machine, each with the state it ends in. -/
inductive Run (m : Machine S E) : List (S × E) → S → Prop where
  | start : Run m [] m.init
  | step {history : List (S × E)} {s : S} {e : E} (run : Run m history s) (ok : m.allowed s e) :
      Run m (history ++ [(s, e)]) (m.next s e)

/-- What the events of a history have put out, in order. -/
def output (out : S → E → List O) (history : List (S × E)) : List O :=
  history.flatMap fun x => out x.1 x.2

@[simp] theorem output_nil (out : S → E → List O) : output out [] = [] := rfl

@[simp] theorem output_snoc (out : S → E → List O) (history : List (S × E)) (s : S) (e : E) :
    output out (history ++ [(s, e)]) = output out history ++ out s e := by
  simp only [output, List.flatMap_append, List.flatMap_cons, List.flatMap_nil, List.append_nil]

/-- **The invariant rule.** What holds of the start and is kept by every allowed event holds of every
history and the state it ends in. -/
theorem Run.invariant {m : Machine S E} {P : List (S × E) → S → Prop} (hinit : P [] m.init)
    (hstep : ∀ history s e, P history s → m.allowed s e → P (history ++ [(s, e)]) (m.next s e))
    {history : List (S × E)} {s : S} (h : m.Run history s) : P history s := by
  induction h with
  | start => exact hinit
  | step _ ok ih => exact hstep _ _ _ ih ok

/-! ### Events in batches -/

/-- The state behind some events. -/
def after (m : Machine S E) (s : S) (events : List E) : S := events.foldl m.next s

/-- The events with the states they meet. -/
def trace (m : Machine S E) : S → List E → List (S × E)
  | _, [] => []
  | s, e :: events => (s, e) :: m.trace (m.next s e) events

/-- Each event is allowed where it comes. -/
def Admits (m : Machine S E) : S → List E → Prop
  | _, [] => True
  | s, e :: events => m.allowed s e ∧ m.Admits (m.next s e) events

/-- **The rule of batches.** A run goes on over events that are allowed one after the other. -/
theorem Run.extend {m : Machine S E} {history : List (S × E)} {s : S} {events : List E} (h : m.Run history s)
    (hadmits : m.Admits s events) : m.Run (history ++ m.trace s events) (m.after s events) := by
  induction events generalizing history s with
  | nil => rwa [trace, List.append_nil]
  | cons e events ih =>
      have hrest := ih (h.step hadmits.1) hadmits.2
      rwa [List.append_assoc, List.singleton_append] at hrest

/-- A machine that drives another one: each of its events puts some events of the other
out. The history of the other. -/
def driven {T F : Type} (m : Machine S E) (inner : T → S) (reports : T → F → List E) (history : List (T × F)) :
    List (S × E) :=
  history.flatMap fun x => m.trace (inner x.1) (reports x.1 x.2)

/-- **The rule of drivers.** When every batch is allowed and leads where the driver says it does, a run of the driver
is a run of the machine it drives. -/
theorem Run.driven {T F : Type} {m : Machine S E} {driver : Machine T F} {inner : T → S} {reports : T → F → List E}
    (hinit : inner driver.init = m.init)
    (hnext : ∀ t e, inner (driver.next t e) = m.after (inner t) (reports t e))
    (hadmits : ∀ past t e, m.Run past (inner t) → driver.allowed t e → m.Admits (inner t) (reports t e))
    {history : List (T × F)} {t : T} (h : driver.Run history t) : m.Run (m.driven inner reports history) (inner t) := by
  induction h with
  | start => exact hinit ▸ .start
  | @step history t e _ ok ih =>
      have hrest := ih.extend (hadmits _ t e ih ok)
      rwa [← hnext, show m.driven inner reports history ++ m.trace (inner t) (reports t e) =
        m.driven inner reports (history ++ [(t, e)]) by simp [Machine.driven]] at hrest

/-- Two values that take turns: `to` is what an alternation started behind `from` ends with. -/
inductive Alternates : Bool → List Bool → Bool → Prop where
  | nil (b : Bool) : Alternates b [] b
  | cons {b c : Bool} {bs : List Bool} (rest : Alternates (!b) bs c) : Alternates b ((!b) :: bs) c

namespace Alternates

theorem append {a b c : Bool} {bs cs : List Bool} (h : Alternates a bs b) (h' : Alternates b cs c) :
    Alternates a (bs ++ cs) c := by
  induction h with
  | nil _ => exact h'
  | cons _ ih => exact .cons (ih h')

/-- No two neighbours of an alternation agree. -/
theorem isChain {a b : Bool} {bs : List Bool} (h : Alternates a bs b) : List.IsChain (· ≠ ·) (a :: bs) := by
  induction h with
  | nil _ => exact List.isChain_singleton _
  | cons _ ih => exact List.isChain_cons_cons.mpr ⟨by simp, ih⟩

end Alternates

end Machine
