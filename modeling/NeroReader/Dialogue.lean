import Mathlib.Data.List.Basic

/-!
Programs in dialogue with a peer, and their run rule. A program puts one request at a time to its peer and goes
on from the answer. The peer has a state of its own and may answer in any way its step relation allows. `Holds`
says that an invariant of the peer's state holds at every moment of the dialogue, wherever it is cut off, and
that a postcondition holds where the program ends.
-/

/-- A program that asks requests and ends with a result. -/
inductive Dialogue (Req Ans α : Type) where
  | done (result : α)
  | ask (request : Req) (next : Ans → Dialogue Req Ans α)

namespace Dialogue

variable {Req Ans S α β : Type}

def bind : Dialogue Req Ans α → (α → Dialogue Req Ans β) → Dialogue Req Ans β
  | .done result, k => k result
  | .ask request next, k => .ask request fun answer => (next answer).bind k

instance : Monad (Dialogue Req Ans) where
  pure := .done
  bind := .bind

/-- The dialogue can come to this program with the peer in this state. -/
inductive Reaches (peer : S → Req → Ans → S → Prop) : Dialogue Req Ans α → S → Dialogue Req Ans α → S → Prop where
  | here (program : Dialogue Req Ans α) (s : S) : Reaches peer program s program s
  | ask {request : Req} {next : Ans → Dialogue Req Ans α} {s t u : S} {program : Dialogue Req Ans α} (answer : Ans)
      (step : peer s request answer t) (rest : Reaches peer (next answer) t program u) :
      Reaches peer (.ask request next) s program u

/-- The invariant holds at every moment, the postcondition at the end. -/
def Holds (peer : S → Req → Ans → S → Prop) (keeps : S → Prop) (post : α → S → Prop) :
    Dialogue Req Ans α → S → Prop
  | .done result, s => keeps s ∧ post result s
  | .ask request next, s => keeps s ∧ ∀ answer t, peer s request answer t → (next answer).Holds peer keeps post t

variable {peer : S → Req → Ans → S → Prop} {keeps : S → Prop} {post : α → S → Prop} {post' : β → S → Prop}

theorem Holds.now {program : Dialogue Req Ans α} {s : S} (h : program.Holds peer keeps post s) : keeps s := by
  cases program with
  | done result => exact h.1
  | ask request next => exact h.1

theorem holds_pure {result : α} {s : S} (hkeeps : keeps s) (hpost : post result s) :
    (pure result : Dialogue Req Ans α).Holds peer keeps post s := ⟨hkeeps, hpost⟩

/-- **The sequencing rule.** -/
theorem holds_bind {program : Dialogue Req Ans α} {next : α → Dialogue Req Ans β} {s : S}
    (hfirst : program.Holds peer keeps post s)
    (hrest : ∀ result t, keeps t → post result t → (next result).Holds peer keeps post' t) :
    (program >>= next).Holds peer keeps post' s := by
  change (program.bind next).Holds peer keeps post' s
  induction program generalizing s with
  | done result => exact hrest result s hfirst.1 hfirst.2
  | ask request k ih => exact ⟨hfirst.1, fun answer t hstep => ih answer (hfirst.2 answer t hstep)⟩

theorem Holds.mono {keeps' : S → Prop} {post'' : α → S → Prop} {program : Dialogue Req Ans α} {s : S}
    (h : program.Holds peer keeps post s) (hkeeps : ∀ t, keeps t → keeps' t)
    (hpost : ∀ result t, keeps t → post result t → post'' result t) : program.Holds peer keeps' post'' s := by
  induction program generalizing s with
  | done result => exact ⟨hkeeps s h.1, hpost result s h.1 h.2⟩
  | ask request next ih => exact ⟨hkeeps s h.1, fun answer t hstep => ih answer (h.2 answer t hstep)⟩

/-- A peer that can do no more. -/
theorem Holds.of_peer {peer' : S → Req → Ans → S → Prop} {program : Dialogue Req Ans α} {s : S}
    (h : program.Holds peer keeps post s)
    (hpeer : ∀ s request answer t, peer' s request answer t → peer s request answer t) :
    program.Holds peer' keeps post s := by
  induction program generalizing s with
  | done result => exact h
  | ask request next ih => exact ⟨h.1, fun answer t hstep => ih answer (h.2 answer t (hpeer s request answer t hstep))⟩

/-- A peer seen through a part of its state. -/
theorem Holds.through {T : Type} (view : T → S) {peer' : T → Req → Ans → T → Prop}
    {program : Dialogue Req Ans α} {t : T}
    (h : program.Holds peer keeps post (view t))
    (hpeer : ∀ t request answer u, peer' t request answer u → peer (view t) request answer (view u)) :
    program.Holds peer' (fun t => keeps (view t)) (fun result t => post result (view t)) t := by
  induction program generalizing t with
  | done result => exact h
  | ask request next ih =>
      exact ⟨h.1, fun answer u hstep => ih answer (h.2 answer (view u) (hpeer t request answer u hstep))⟩

/-- Two things that hold of a dialogue hold of it together. -/
theorem Holds.and {keeps' : S → Prop} {post'' : α → S → Prop} {program : Dialogue Req Ans α} {s : S}
    (h : program.Holds peer keeps post s) (h' : program.Holds peer keeps' post'' s) :
    program.Holds peer (fun t => keeps t ∧ keeps' t) (fun result t => post result t ∧ post'' result t) s := by
  induction program generalizing s with
  | done result => exact ⟨⟨h.1, h'.1⟩, h.2, h'.2⟩
  | ask request next ih =>
      exact ⟨⟨h.1, h'.1⟩, fun answer t hstep => ih answer (h.2 answer t hstep) (h'.2 answer t hstep)⟩

theorem holds_ask {request : Req} {next : Ans → Dialogue Req Ans α} {s : S} (hnow : keeps s)
    (hnext : ∀ answer t, peer s request answer t → (next answer).Holds peer keeps post t) :
    (ask request next).Holds peer keeps post s := ⟨hnow, hnext⟩

/-- The peer of which nothing is known. Its state is the record of what was asked and answered. -/
def recorded (record : List (Req × Ans)) (request : Req) (answer : Ans) (record' : List (Req × Ans)) : Prop :=
  record' = record ++ [(request, answer)]

/-- Every request the program can ask is allowed. -/
def Asks (allowed : Req → Prop) : Dialogue Req Ans α → Prop
  | .done _ => True
  | .ask request next => allowed request ∧ ∀ answer, (next answer).Asks allowed

theorem asks_pure {allowed : Req → Prop} (result : α) : (pure result : Dialogue Req Ans α).Asks allowed := trivial

theorem asks_bind {allowed : Req → Prop} {program : Dialogue Req Ans α} {next : α → Dialogue Req Ans β}
    (hfirst : program.Asks allowed) (hrest : ∀ result, (next result).Asks allowed) :
    (program >>= next).Asks allowed := by
  change (program.bind next).Asks allowed
  induction program with
  | done result => exact hrest result
  | ask request k ih => exact ⟨hfirst.1, fun answer => ih answer (hfirst.2 answer)⟩

theorem Asks.of_bind {allowed : Req → Prop} {program : Dialogue Req Ans α} {next : α → Dialogue Req Ans β}
    (h : (program >>= next).Asks allowed) : program.Asks allowed := by
  change (program.bind next).Asks allowed at h
  induction program with
  | done result => exact trivial
  | ask request k ih => exact ⟨h.1, fun answer => ih answer (h.2 answer)⟩

theorem asks_of_forall {allowed : Req → Prop} (h : ∀ request, allowed request) (program : Dialogue Req Ans α) :
    program.Asks allowed := by
  induction program with
  | done result => exact trivial
  | ask request next ih => exact ⟨h request, ih⟩

/-- The program with its requests put another way. -/
def mapRequest {Req' : Type} (translate : Req → Req') : Dialogue Req Ans α → Dialogue Req' Ans α
  | .done result => .done result
  | .ask request next => .ask (translate request) fun answer => (next answer).mapRequest translate

theorem mapRequest_bind {Req' : Type} (translate : Req → Req') (program : Dialogue Req Ans α)
    (next : α → Dialogue Req Ans β) : (program >>= next).mapRequest translate =
      program.mapRequest translate >>= fun result => (next result).mapRequest translate := by
  change (program.bind next).mapRequest translate = (program.mapRequest translate).bind _
  induction program with
  | done result => rfl
  | ask request k ih =>
      rw [bind, mapRequest, mapRequest, bind]
      congr 1
      funext answer
      exact ih answer

theorem asks_mapRequest {Req' : Type} {allowed : Req' → Prop} (translate : Req → Req') (program : Dialogue Req Ans α) :
    (program.mapRequest translate).Asks allowed ↔ program.Asks fun request => allowed (translate request) := by
  induction program with
  | done result => rfl
  | ask request next ih => exact and_congr_right fun _ => forall_congr' ih

/-- Put back as they were. -/
theorem mapRequest_mapRequest {Req' : Type} (there : Req → Req') (back : Req' → Req)
    (h : ∀ request, back (there request) = request)
    (program : Dialogue Req Ans α) : (program.mapRequest there).mapRequest back = program := by
  induction program with
  | done result => rfl
  | ask request next ih =>
      rw [mapRequest, mapRequest, h]
      congr 1
      funext answer
      exact ih answer

/-- The program asks no more than so many requests, whatever is answered. -/
def AsksAtMost : Nat → Dialogue Req Ans α → Prop
  | _, .done _ => True
  | 0, .ask _ _ => False
  | n + 1, .ask _ next => ∀ answer, (next answer).AsksAtMost n

theorem asksAtMost_pure (n : Nat) (result : α) : (pure result : Dialogue Req Ans α).AsksAtMost n := by
  cases n <;> exact trivial

theorem AsksAtMost.mono {program : Dialogue Req Ans α} {m n : Nat} (h : program.AsksAtMost m) (hle : m ≤ n) :
    program.AsksAtMost n := by
  induction program generalizing m n with
  | done result => exact asksAtMost_pure n result
  | ask request next ih =>
      cases m with
      | zero => exact h.elim
      | succ m =>
          obtain ⟨n, rfl⟩ := Nat.exists_eq_succ_of_ne_zero (Nat.ne_of_gt (Nat.lt_of_lt_of_le (Nat.succ_pos m) hle))
          exact fun answer => ih answer (h answer) (Nat.le_of_succ_le_succ hle)

theorem asksAtMost_bind {program : Dialogue Req Ans α} {next : α → Dialogue Req Ans β} {m n : Nat}
    (hfirst : program.AsksAtMost m) (hrest : ∀ result, (next result).AsksAtMost n) :
    (program >>= next).AsksAtMost (m + n) := by
  change (program.bind next).AsksAtMost (m + n)
  induction program generalizing m with
  | done result => exact (hrest result).mono (Nat.le_add_left n m)
  | ask request k ih =>
      cases m with
      | zero => exact hfirst.elim
      | succ m =>
          rw [Nat.add_right_comm]
          exact fun answer => ih answer (hfirst answer)

/-- **The frame rule.** What every allowed request preserves is preserved by the program. -/
theorem Asks.holds {allowed : Req → Prop} {program : Dialogue Req Ans α} (h : program.Asks allowed)
    (hstep : ∀ s request answer t, allowed request → peer s request answer t → keeps s → keeps t) {s : S}
    (hs : keeps s) : program.Holds peer keeps (fun _ _ => True) s := by
  induction program generalizing s with
  | done result => exact ⟨hs, trivial⟩
  | ask request next ih =>
      exact ⟨hs, fun answer t ht => ih answer (h.2 answer) (hstep s request answer t h.1 ht hs)⟩

/-- **The run rule.** Wherever the dialogue is cut off the invariant holds, and at its end the postcondition. -/
theorem Holds.reaches {program left : Dialogue Req Ans α} {s t : S} (h : program.Holds peer keeps post s)
    (hreach : Reaches peer program s left t) : keeps t ∧ ∀ result, left = .done result → post result t := by
  induction hreach with
  | here program s =>
      refine ⟨h.now, ?_⟩
      rintro result rfl
      exact h.2
  | ask answer step rest ih => exact ih (h.2 answer _ step)

theorem Reaches.trans {program left last : Dialogue Req Ans α} {s t u : S} (hfirst : Reaches peer program s left t)
    (hrest : Reaches peer left t last u) : Reaches peer program s last u := by
  induction hfirst with
  | here program s => exact hrest
  | ask answer step _ ih => exact .ask answer step (ih hrest)

theorem Reaches.bind {program : Dialogue Req Ans α} {next : α → Dialogue Req Ans β}
    {left : Dialogue Req Ans β} {s t u : S}
    {result : α} (hfirst : Reaches peer program s (.done result) t) (hrest : Reaches peer (next result) t left u) :
    Reaches peer (program >>= next) s left u := by
  generalize hend : (Dialogue.done result : Dialogue Req Ans α) = last at hfirst
  induction hfirst with
  | here program s =>
      subst hend
      exact hrest
  | ask answer step _ ih => exact .ask answer step (ih hrest hend)

/-- The program against a peer whose answers are a function of its state. -/
def run (answers : S → Req → Ans × S) : Dialogue Req Ans α → S → α × S
  | .done result, s => (result, s)
  | .ask request next, s => (next (answers s request).1).run answers (answers s request).2

theorem reaches_run {answers : S → Req → Ans × S}
    (h : ∀ s request, peer s request (answers s request).1 (answers s request).2)
    (program : Dialogue Req Ans α) (s : S) :
    Reaches peer program s (.done (program.run answers s).1) (program.run answers s).2 := by
  induction program generalizing s with
  | done result => exact .here _ s
  | ask request next ih => exact .ask _ (h s request) (ih _ _)

end Dialogue
