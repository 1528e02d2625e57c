import Beeb.Disc.Image
import Beeb.Files.Basic

/-
  Extraction: copying files of a disc image to a directory.

  The directory is made if it is missing.  All files are
  looked up in the image before the first is written.

  Key definitions include:
    * `Beeb.Disc.ExtractError`
    * `Beeb.Disc.Extraction`
    * `Beeb.Disc.prepare`
    * `Beeb.Disc.writeAll`
    * `Beeb.Disc.extract`
-/

------------------------------------------------------------
-- Results
------------------------------------------------------------

namespace Beeb

namespace Disc

/- Why an extraction fails. -/
inductive ExtractError where
| notADirectory (path : Path)
| disc (e : DiscError)
| file (e : FileError)
deriving DecidableEq, Repr

/- The wording of an extraction error. -/
def ExtractError.message : ExtractError → String
| .notADirectory path =>
  "output path " ++ path.text ++ " is not a directory"
| .disc e => e.message
| .file e => e.message

/-
  The files written, the reports on them, and what stopped
  the extraction.
-/
structure Extraction where
  written : List Path := []
  reports : List Report := []
  failure : Option ExtractError := none
deriving DecidableEq, Repr

end Disc

end Beeb

------------------------------------------------------------
-- Extraction
------------------------------------------------------------

namespace Beeb

namespace Disc

variable {m : Type → Type} [Monad m] [Files m]

/- Make sure that there is a directory at a path. -/
def prepare
    (out : Path) : m (Except ExtractError Unit) := do
  match ← Files.kind? out with
  | some .directory => return .ok ()
  | some .file => return .error (.notADirectory out)
  | none =>
    return (← Files.makeDirectories out).mapError .file

/- Pair files with their bytes. -/
def payloads
    (image : Image)
    (entries : List Entry) :
    Except DiscError (List (Entry × Bytes)) :=
  entries.mapM fun e => (image.contents e).map (e, ·)

/- Write files to a directory, in the order given. -/
def writeAll
    (out : Path) :
    List (Entry × Bytes) → m Extraction
| [] => return {}
| (e, bytes) :: rest => do
  let target := out.join (.ofString e.filename)
  match ← Files.write target bytes with
  | .error error => return { failure := some (.file error) }
  | .ok () =>
    let after ← writeAll out rest
    let report :=
      .extracted e.qualifiedName bytes.size target.text
    return { after with
      written := target :: after.written
      reports := report :: after.reports }

/-
  Copy the files of the given names to a directory; all
  files if no name is given.
-/
def extract
    (image : Image)
    (names : List String)
    (out : Path) : m Extraction := do
  match ← prepare out with
  | .error e => return { failure := some e }
  | .ok () =>
    match payloads image (image.find names) with
    | .error e => return { failure := some (.disc e) }
    | .ok selected => writeAll out selected

end Disc

end Beeb
