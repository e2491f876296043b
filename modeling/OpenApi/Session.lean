import OpenApi.Surroundings
import OpenApi.Trouble

/-
A session: what a command works on, and what it has written so far.

Results go to standard output and everything else to standard error, so that results can be read by
another program.  Both are texts in the session; what a command does is a function from sessions to
sessions.
-/
namespace OpenApi

structure Session where
  surroundings : Surroundings
  /-- What has been written to standard output. -/
  printed : String := ""
  /-- What has been written to standard error. -/
  noted : String := ""
  deriving Inhabited

/-- What a command does: it ends with a value or in trouble, and leaves the session behind either
way. -/
abbrev Action (α : Type) := ExceptT Trouble (StateM Session) α

namespace Session

def print (text : String) (s : Session) : Session := { s with printed := s.printed ++ text }

def note (line : String) (s : Session) : Session := { s with noted := s.noted ++ line ++ "\n" }

end Session

namespace Action

def print (text : String) : Action Unit := modify (·.print text)

def note (line : String) : Action Unit := modify (·.note line)

/-- A step that may fail, and then changes nothing. -/
def attempt (step : Surroundings → Except Trouble Surroundings) : Action Unit := do
  let session ← get
  match step session.surroundings with
  | .ok surroundings => set { session with surroundings := surroundings }
  | .error trouble => throw trouble

/-- What is found in the surroundings. -/
def look (step : Surroundings → Except Trouble α) : Action α := do
  match step (← get).surroundings with
  | .ok value => return value
  | .error trouble => throw trouble

end Action
end OpenApi
