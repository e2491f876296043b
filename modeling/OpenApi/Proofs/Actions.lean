import OpenApi.CommandLine.Run

/-
What actions do.

An action is a function from a session to a result and the session that it leaves behind.  The
lemmas say what each kind of step does to the session; longer actions are put together from them
(`run_bind`).
-/
namespace OpenApi

/-- The first answer in lines of input. -/
def Answer.first (lines : List (List Char)) : Answer :=
  (lines.findSome? Answer.ofLine?).getD .missing

theorem Answer.ask_fst (question : String) (lines : List (List Char)) :
    (Answer.ask question lines).1 = Answer.first lines := by
  induction lines with
  | nil => rfl
  | cons line rest ih =>
    rw [ask, first, List.findSome?_cons]
    cases Answer.ofLine? line with
    | none => exact ih
    | some answer => rfl

namespace Action

variable {α β : Type} {session after : Session}

/-- One action after the other; after trouble there is no other one. -/
theorem run_bind (x : Action α) (f : α → Action β) (session : Session) :
    (x >>= f).run session =
      match x.run session with
      | (.ok a, after) => (f a).run after
      | (.error trouble, after) => (.error trouble, after) := by
  show (match x.run session with | (result, after) => ExceptT.bindCont f result after) = _
  rcases x.run session with ⟨result, after⟩
  cases result <;> rfl

/-- An action that ends with a value of its own. -/
theorem run_return (x : Action Unit) (a : α) (session : Session) :
    (do x; return a : Action α).run session =
      match x.run session with
      | (.ok (), after) => (.ok a, after)
      | (.error trouble, after) => (.error trouble, after) := by
  rw [run_bind]
  rcases x.run session with ⟨result, after⟩
  cases result <;> rfl

theorem run_get (session : Session) : (get : Action Session).run session = (.ok session, session) :=
  rfl

theorem run_look (step : Surroundings → Except Trouble α) (session : Session) :
    (look step).run session = (step session.surroundings, session) := by
  unfold look
  rw [run_bind, run_get]
  dsimp only
  cases step session.surroundings <;> rfl

theorem run_attempt (step : Surroundings → Except Trouble Surroundings) (session : Session) :
    (attempt step).run session =
      match step session.surroundings with
      | .ok surroundings => (.ok (), { session with surroundings := surroundings })
      | .error trouble => (.error trouble, session) := by
  unfold attempt
  rw [run_bind, run_get]
  dsimp only
  cases step session.surroundings <;> rfl

theorem run_print (text : String) (session : Session) :
    (print text).run session = (.ok (), session.print text) := rfl

theorem run_note (line : String) (session : Session) :
    (note line).run session = (.ok (), session.note line) := rfl

/-- A message changes nothing but what has been noted. -/
theorem exists_inform (o : Output) (message : String) (session : Session) :
    ∃ noted, (o.inform message).run session = (.ok (), { session with noted := noted }) := by
  unfold Output.inform
  split
  · exact ⟨session.noted, rfl⟩
  · exact ⟨_, rfl⟩

/-- The question before a reset is printed, and the first answer decides. -/
theorem exists_confirmReset (output : Output) (session : Session) :
    ∃ printed, (confirmReset output).run session =
      (match Answer.first session.surroundings.inputLines with
        | .yes => do
          resetSettings output
          return 0
        | .no => do
          output.inform "Cancelled."
          return 0
        | .missing => do
          note "Aborted."
          return 1 : Action Nat).run (session.print printed) := by
  have hfirst := Answer.ask_fst "Reset all config to defaults? [y/N]: "
    session.surroundings.inputLines
  unfold confirmReset
  rw [run_bind, run_get]
  dsimp only
  rcases hask : Answer.ask "Reset all config to defaults? [y/N]: "
    session.surroundings.inputLines with ⟨answer, printed⟩
  rw [hask] at hfirst
  refine ⟨printed, ?_⟩
  rewrite [← hfirst, run_bind, run_print]
  rfl

theorem run_settingsFolder (session : Session) :
    settingsFolder.run session =
      match session.surroundings.provideSettings with
      | .ok (folder, surroundings) => (.ok folder, { session with surroundings := surroundings })
      | .error trouble => (.error trouble, session) := by
  unfold settingsFolder
  rw [run_bind, run_look]
  cases session.surroundings.provideSettings <;> rfl

end Action

/-- A command that is asked for is acted out, and what goes wrong on the way is reported. -/
theorem Session.run_eq {arguments : List String} {conduct : Conduct} {command : Command}
    (asked : Invocation.ofArguments arguments = .run conduct command) (s : Session) :
    run arguments s =
      match (command.action conduct).run s with
      | (.ok code, after) => (.ok code, after)
      | (.error trouble, after) => after.report trouble := by
  rewrite [run, asked]
  rfl

end OpenApi
