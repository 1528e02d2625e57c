import Beeb.Command.Run

/-
  The program on the files of the machine it runs on.

  Key definitions include:
    * `Beeb.Machine.cause?`
    * `main`
-/

------------------------------------------------------------
-- Files Of The Machine
------------------------------------------------------------

namespace Beeb

namespace Machine

/-
  The cause of a refusal by the machine, if a program can
  say what it is.
-/
def cause? : IO.Error → Option FileCause
| .noFileOrDirectory .. => some .notFound
| .alreadyExists .. => some .alreadyExists
| .inappropriateType _ code _ =>
  if code = 20 then some .notADirectory else some .isADirectory
| _ => none

/-
  Do something with the file of a path, and tell why if it
  is refused.
-/
def attempt
    {α : Type}
    (path : Path)
    (action : String → IO α) : IO (Except FileError α) := do
  if path.hasNul then return .error ⟨.nulInPath, path⟩
  try
    return .ok (← action path.text)
  catch e =>
    match cause? e with
    | some cause => return .error ⟨cause, path⟩
    | none => throw e

/- The contents of a file. -/
def read
    (path : Path) : IO (Except FileError Bytes) :=
  attempt path fun name => return (← IO.FS.readBinFile name).data

/- What a path leads to, found out by reading it. -/
def kind?
    (path : Path) : IO (Option FileKind) := do
  match ← read path with
  | .ok _ => return some .file
  | .error ⟨.isADirectory, _⟩ => return some .directory
  | .error _ => return none

instance : Files IO where
  kind? := kind?
  read := read
  write path contents :=
    attempt path fun name => IO.FS.writeBinFile name ⟨contents⟩
  makeDirectory path :=
    attempt path fun name => IO.FS.createDir name

end Machine

end Beeb

------------------------------------------------------------
-- The Program
------------------------------------------------------------

/-
  Run the program with the words of the command line; a
  fault is thrown.
-/
def main
    (words : List String) : IO UInt32 := do
  let outcome ← Beeb.Command.run (m := IO) words
  IO.print outcome.stdout
  IO.eprint outcome.stderr
  if let some e := outcome.fault then
    throw (.userError e.message)
  return outcome.status.toUInt32
