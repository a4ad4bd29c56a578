import Mathlib.Data.List.Basic

/-!
Request/answer drivers. A driver puts one request at a time on a link, waits for the answer and
decides from its state and the answer what to do next, until it stops with a result. The other
side is a list of answers, one for each request, so that every behaviour of a peer in a finite run
is some list; a run that is still waiting when the list ends is a prefix of a longer run.
-/

namespace Driver

variable {Req Ans St St' Res Res' Ctx : Type}

/-- What a driver does next. -/
inductive Next (Req St Res : Type) where
  | send (request : Req) (state : St)
  | stop (result : Res)
  deriving DecidableEq

/-- The requests of a run with their answers, the action the run ended in, and the answers that
were not consumed. -/
structure Outcome (Req Ans St Res : Type) where
  trace : List (Req × Ans)
  final : Next Req St Res
  rest : List Ans

namespace Outcome

/-- The same outcome after earlier exchanges. -/
def after (earlier : List (Req × Ans)) (o : Outcome Req Ans St Res) : Outcome Req Ans St Res :=
  { o with trace := earlier ++ o.trace }

@[simp] theorem after_trace (earlier : List (Req × Ans)) (o : Outcome Req Ans St Res) :
    (o.after earlier).trace = earlier ++ o.trace := rfl

@[simp] theorem after_final (earlier : List (Req × Ans)) (o : Outcome Req Ans St Res) :
    (o.after earlier).final = o.final := rfl

@[simp] theorem after_rest (earlier : List (Req × Ans)) (o : Outcome Req Ans St Res) :
    (o.after earlier).rest = o.rest := rfl

@[simp] theorem after_nil (o : Outcome Req Ans St Res) : o.after [] = o := rfl

theorem after_append (first second : List (Req × Ans)) (o : Outcome Req Ans St Res) :
    o.after (first ++ second) = (o.after second).after first := by
  simp only [after, List.append_assoc]

end Outcome

/-- Run a driver against a list of answers. -/
def run (step : St → Ans → Next Req St Res) : Next Req St Res → List Ans → Outcome Req Ans St Res
  | .stop result, answers => ⟨[], .stop result, answers⟩
  | .send request state, [] => ⟨[], .send request state, []⟩
  | .send request state, answer :: answers =>
      (run step (step state answer) answers).after [(request, answer)]

section Run

variable (step : St → Ans → Next Req St Res)

@[simp] theorem run_stop (result : Res) (answers : List Ans) :
    run step (.stop result) answers = ⟨[], .stop result, answers⟩ := by
  cases answers <;> rfl

@[simp] theorem run_send_nil (request : Req) (state : St) :
    run step (.send request state) [] = ⟨[], .send request state, []⟩ := rfl

@[simp] theorem run_send_cons (request : Req) (state : St) (answer : Ans) (answers : List Ans) :
    run step (.send request state) (answer :: answers) =
      (run step (step state answer) answers).after [(request, answer)] := rfl

/-- A run over `first ++ second` that is still waiting after `first` goes on with `second` from the
state it waits in. -/
theorem run_append_of_waiting {next : Next Req St Res} {first : List Ans} {request : Req} {state : St}
    (hwait : (run step next first).final = .send request state) (second : List Ans) :
    run step next (first ++ second) =
      (run step (.send request state) second).after (run step next first).trace := by
  induction first generalizing next with
  | nil =>
      cases next with
      | send q s =>
          simp only [run_send_nil, Next.send.injEq] at hwait
          simp only [List.nil_append, run_send_nil, Outcome.after_nil, hwait.1, hwait.2]
      | stop r => simp at hwait
  | cons a first ih =>
      cases next with
      | send q s =>
          rw [run_send_cons, Outcome.after_final] at hwait
          rw [List.cons_append, run_send_cons, run_send_cons, ih hwait, Outcome.after_trace,
            Outcome.after_append]
      | stop r => simp at hwait

/-- A relation between the exchanges made so far and the next action that every answer preserves is
preserved by a run. -/
theorem run_preserves (inv : List (Req × Ans) → Next Req St Res → Prop)
    (hstep : ∀ trace request state answer, inv trace (.send request state) →
      inv (trace ++ [(request, answer)]) (step state answer))
    (trace : List (Req × Ans)) (next : Next Req St Res) (hinit : inv trace next) (answers : List Ans) :
    inv (trace ++ (run step next answers).trace) (run step next answers).final := by
  induction answers generalizing trace next with
  | nil => cases next <;> simpa using hinit
  | cons a answers ih =>
      cases next with
      | stop r => simpa using hinit
      | send q s =>
          have h := ih _ _ (hstep trace q s a hinit)
          simpa only [run_send_cons, Outcome.after_trace, Outcome.after_final, List.append_assoc] using h

/-- **The invariant rule.** What holds of no exchanges and the first action, and is preserved by
every answer, holds of the exchanges of a whole run and the action it ended in. -/
theorem run_invariant (inv : List (Req × Ans) → Next Req St Res → Prop)
    (hstep : ∀ trace request state answer, inv trace (.send request state) →
      inv (trace ++ [(request, answer)]) (step state answer))
    (next : Next Req St Res) (hinit : inv [] next) (answers : List Ans) :
    inv (run step next answers).trace (run step next answers).final :=
  run_preserves step inv hstep [] next hinit answers

/-- The answers of the exchanges followed by the unused ones are the answers the run was given. -/
theorem run_answers (next : Next Req St Res) (answers : List Ans) :
    (run step next answers).trace.map Prod.snd ++ (run step next answers).rest = answers := by
  induction answers generalizing next with
  | nil => cases next <;> rfl
  | cons a answers ih =>
      cases next with
      | stop r => simp
      | send q s => simp [ih]

end Run

/-! ### Drivers made of drivers

A caller that runs one driver after another is a driver itself: it carries its own context beside
the state of the driver in progress, and its continuation decides from that driver's result. -/

/-- Run the action of an inner driver inside a caller's context. -/
def Next.within (cont : Ctx → Res → Next Req (Ctx × St) Res') (context : Ctx) :
    Next Req St Res → Next Req (Ctx × St) Res'
  | .send request state => .send request (context, state)
  | .stop result => cont context result

/-- One step of the caller: one step of the driver in progress, or the caller's decision. -/
def nested (step : Ctx → St → Ans → Next Req St Res) (cont : Ctx → Res → Next Req (Ctx × St) Res')
    (state : Ctx × St) (answer : Ans) : Next Req (Ctx × St) Res' :=
  (step state.1 state.2 answer).within cont state.1

/-- **The sequencing rule.** A caller runs the driver in progress to its end and goes on from the
decision it takes there. -/
theorem run_within (step : Ctx → St → Ans → Next Req St Res)
    (cont : Ctx → Res → Next Req (Ctx × St) Res') (context : Ctx) (next : Next Req St Res)
    (answers : List Ans) :
    run (nested step cont) (next.within cont context) answers =
      match (run (step context) next answers).final with
      | .send request state =>
          ⟨(run (step context) next answers).trace, .send request (context, state),
            (run (step context) next answers).rest⟩
      | .stop result =>
          (run (nested step cont) (cont context result) (run (step context) next answers).rest).after
            (run (step context) next answers).trace := by
  induction answers generalizing next with
  | nil => cases next <;> simp [Next.within]
  | cons a answers ih =>
      cases next with
      | stop r => simp [Next.within]
      | send q s =>
          rw [Next.within, run_send_cons, run_send_cons, nested, ih]
          simp only [Outcome.after_final, Outcome.after_trace, Outcome.after_rest]
          cases (run (step context) (step context s a) answers).final with
          | send q' s' => simp only [Outcome.after]
          | stop r => simp only [Outcome.after_append]

end Driver
