import Beeb.Command.Argument
import Beeb.Command.Invocation
import Beeb.Disc.Extraction
import Beeb.Listing.Reader

/-
  Running the program.

  A run ends with status 0 or 1.  A failure is told in one
  line at the end of the error output.  A fault, by which
  the program disagrees with itself, is not told but breaks
  the run off.

  Key definitions include:
    * `Beeb.Command.Failure`
    * `Beeb.Command.Failure.isFault`
    * `Beeb.Command.Outcome`
    * `Beeb.Command.runList`
    * `Beeb.Command.runExtract`
    * `Beeb.Command.runDisassemble`
    * `Beeb.Command.run`
-/

------------------------------------------------------------
-- Outcomes
------------------------------------------------------------

namespace Beeb

namespace Command

/- Why a command fails. -/
inductive Failure where
| file (e : FileError)
| disc (e : DiscError)
| extraction (e : Disc.ExtractError)
| argument (e : ArgumentError)
| window (e : WindowError)
| listing (e : Listing.ListingError)
deriving DecidableEq, Repr

/- A file error as a failure of the program shows it. -/
def fileMessage
    (e : FileError) : String :=
  match e.cause with
  | .nulInPath => e.message
  | cause => e.path.text ++ ": " ++ cause.reason

/-
  The wording of an extraction that the image or a name in
  it makes fail.
-/
def extractionMessage
    (e : Disc.ExtractError) : String :=
  match e with
  | .file ⟨.nulInPath, _⟩ | .disc _ | .notADirectory _ =>
    "Could not extract file from image: " ++ e.message
  | .file e => fileMessage e

/- The wording of a failure. -/
def Failure.message : Failure → String
| .file e => fileMessage e
| .disc e => e.message
| .extraction e => extractionMessage e
| .argument e => e.message
| .window e => e.message
| .listing e => e.message

/-
  Whether an error of a listing is a fault: a byte or a name
  is missing that the analysis promised, or the two passes
  do not agree.
-/
def isListingFault : Listing.ListingError → Bool
| .header (.unnamed _) | .operand (.fetch _) => true
| .unseen _ | .labelCount .. => true
| .header (.unwritable _) | .label _ => false
| .operand (.label _) | .operand .unknownMode => false

/-
  Whether an error of a disc is a fault: a byte of the
  catalogue is missing.
-/
def isDiscFault : DiscError → Bool
| .outside _ => true
| .tooSmall _ | .tooManyFiles _ | .shortName => false
| .pastEnd .. | .unwritable _ => false

/-
  Whether a failure is a fault of the program, and not of
  what it was given.
-/
def Failure.isFault : Failure → Bool
| .listing e => isListingFault e
| .disc e | .extraction (.disc e) => isDiscFault e
| .extraction (.notADirectory _) | .extraction (.file _) => false
| .file _ | .argument _ | .window _ => false

/- What a run leaves behind, beside changed files. -/
structure Outcome where
  status : Nat
  stdout : String := ""
  stderr : String := ""
  /- The fault that broke the run off. -/
  fault : Option Failure := none
deriving DecidableEq, Repr

/-
  What a command gives: its output, its reports, and its
  failure.
-/
structure Result where
  output : String := ""
  reports : List Report := []
  failure : Option Failure := none

/- A command that only fails. -/
def Result.failed
    (e : Failure) : Result :=
  { failure := some e }

end Command

end Beeb

------------------------------------------------------------
-- Disc Images
------------------------------------------------------------

namespace Beeb

namespace Command

variable {m : Type → Type} [Monad m] [Files m]

/- Read a disc image from a file. -/
def loadImage
    (path : Path) : m (Except Failure Disc.Image) := do
  match ← Files.read path with
  | .error e => return .error (.file e)
  | .ok data => return (Disc.Image.parse data).mapError .disc

/- Show the catalogue of a disc image. -/
def runList
    (r : ListRequest) : m Result := do
  match ← loadImage r.image with
  | .error e => return .failed e
  | .ok image =>
    return { output := paragraph image.describe
             reports := image.reports }

/- Copy files of a disc image to a directory. -/
def runExtract
    (r : ExtractRequest) : m Result := do
  match ← loadImage r.image with
  | .error e => return .failed e
  | .ok image =>
    let x ← Disc.extract image r.entries r.out
    match x.failure with
    | some e =>
      return { reports := x.reports
               failure := some (.extraction e) }
    | none =>
      return { reports :=
                 x.reports ++ x.written.map (.wrote ·.text) }

end Command

end Beeb

------------------------------------------------------------
-- Disassembly
------------------------------------------------------------

namespace Beeb

namespace Command

variable {m : Type → Type} [Monad m] [Files m]

/- The disassembly of a program that a request asks for. -/
def DisassembleRequest.configure
    (r : DisassembleRequest)
    (program : Bytes) : Except Failure Disassembly := do
  let (offset, length) ←
    (resolveWindow program.size r.offset r.length).mapError
      .argument
  let adjust ←
    (readLoadAddress r.loadAddress).mapError .argument
  let codeAddresses ←
    (readCodeAddresses r.codeAddresses).mapError .argument
  let vars ←
    (readDefinitions r.definitions).mapError .argument
  (Disassembly.create program ⟨offset, length, adjust⟩
    codeAddresses vars).mapError .window

/-
  Show a listing line by line, up to where it fails if it
  does.
-/
def showListing
    (d : Disassembly) : Result :=
  let result := d.read
  { output := Disassembly.joinLines result.lines
    reports := result.reports
    failure := result.failure.map .listing }

/- Write a listing to a file once all of it is there. -/
def writeListing
    (d : Disassembly)
    (out : Path) : m Result := do
  match d.listing with
  | (.error e, reports) =>
    return { reports, failure := some (.listing e) }
  | (.ok listing, reports) =>
    match ← Files.write out listing.toUTF8.data with
    | .ok () => return { reports }
    | .error e => return { reports, failure := some (.file e) }

/- Disassemble a file. -/
def runDisassemble
    (r : DisassembleRequest) : m Result := do
  match ← Files.read r.file with
  | .error e => return .failed (.file e)
  | .ok program =>
    match r.configure program with
    | .error e => return .failed e
    | .ok d =>
      match r.out with
      | none => return showListing d
      | some out => writeListing d out

end Command

end Beeb

------------------------------------------------------------
-- Runs
------------------------------------------------------------

namespace Beeb

namespace Command

variable {m : Type → Type} [Monad m] [Files m]

/- Do what is asked for. -/
def Request.run : Request → m Result
| .list r => runList r
| .extract r => runExtract r
| .disassemble r => runDisassemble r

/-
  Whether a report is shown: warnings are, others if they
  are wanted.
-/
def isShown
    (verbose : Bool)
    (r : Report) : Bool :=
  verbose || r.level = .warning

/- The outcome of a command that was run. -/
def Result.outcome
    (r : Result)
    (verbose : Bool) : Outcome :=
  let shown := (r.reports.filter (isShown verbose)).map Report.line
  match r.failure with
  | none =>
    { status := 0
      stdout := r.output
      stderr := paragraph shown }
  | some e =>
    if e.isFault then
      { status := 1
        stdout := r.output
        stderr := paragraph shown
        fault := some e }
    else
      { status := 1
        stdout := r.output
        stderr := paragraph (shown ++ [e.message]) }

/- The outcome of a command line that makes no request. -/
def Refusal.outcome : Refusal → Outcome
| .help text => { status := 0, stdout := text }
| .usage lines program e =>
  { status := 1
    stderr :=
      lines ++ program ++ ": error: " ++ e.message ++ "\n" }

/- Run the program with the words of a command line. -/
def run
    (words : List String) : m Outcome := do
  match Invocation.ofWords words with
  | .error refusal => return refusal.outcome
  | .ok ⟨_, none⟩ =>
    return { status := 0, stdout := topHelp }
  | .ok ⟨verbose, some request⟩ =>
    return (← request.run).outcome verbose

end Command

end Beeb
