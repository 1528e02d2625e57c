import Beeb.Listing.Reader

/-
  Sessions: a user who reads a listing and changes the
  variables in between.

  Key definitions include:
    * `Beeb.Listing.Action`
    * `Beeb.Listing.Action.added`
    * `Beeb.Listing.Session`
    * `Beeb.Listing.Session.act`
    * `Beeb.Listing.Session.run`
    * `Beeb.Listing.Session.transcript`
-/

------------------------------------------------------------
-- Sessions
------------------------------------------------------------

namespace Beeb

namespace Listing

/- What a user may do. -/
inductive Action where
| add (v : Variable)
/- Add a variable by a definition, which may be refused. -/
| define (definition : String)
/- Read a number of lines. -/
| read (count : Nat)
deriving DecidableEq, Repr

/- The variables that an action adds: one or none. -/
def Action.added : Action → List Variable
| .add v => [v]
| .define definition =>
  (Variable.parse definition).toOption.toList
| .read _ => []

/- A disassembly and a reader of its listing. -/
structure Session where
  disassembly : Disassembly
  reader : Reader := .fresh

/- A line that was read, and the variables at that time. -/
structure Shown where
  line : Line
  vars : List Variable
deriving DecidableEq, Repr

end Listing

end Beeb

------------------------------------------------------------
-- Actions
------------------------------------------------------------

namespace Beeb

namespace Listing

namespace Session

/- Change the variables, if the change is not refused. -/
def change
    (s : Session)
    (result : Except VariableError Disassembly) : Session :=
  match result with
  | .ok d => { s with disassembly := d }
  | .error _ => s

/- The lines that an action shows, and the session after it. -/
def act
    (s : Session) : Action → List Shown × Session
| .add v => ([], s.change (.ok (s.disassembly.add v)))
| .define definition =>
  ([], s.change (s.disassembly.addDefinition definition))
| .read count =>
  let result := s.reader.next s.disassembly count
  (result.lines.map (⟨·, s.disassembly.vars⟩),
    { s with reader := result.reader })

/- The session after some actions. -/
def run
    (s : Session)
    (actions : List Action) : Session :=
  actions.foldl (fun s action => (s.act action).2) s

/- All lines that some actions show. -/
def transcript : Session → List Action → List Shown
| _, [] => []
| s, action :: actions =>
  (s.act action).1 ++ (s.act action).2.transcript actions

end Session

end Listing

end Beeb
