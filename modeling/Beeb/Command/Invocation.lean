import Beeb.Command.Parse
import Beeb.Command.Usage
import Beeb.Files.Path

/-
  Invocations: what a command line asks for.

  The first positional word names a command, by its long or
  its short name, and the words after it belong to that
  command.  Words that neither level can use are refused
  when both have been read.

  Key definitions include:
    * `Beeb.Command.Request`
    * `Beeb.Command.Invocation`
    * `Beeb.Command.Refusal`
    * `Beeb.Command.Invocation.ofWords`
-/

------------------------------------------------------------
-- Requests
------------------------------------------------------------

namespace Beeb

namespace Command

/- What the command that lists a disc is given. -/
structure ListRequest where
  image : Path := ⟨0, []⟩
deriving DecidableEq, Repr

/- What the command that extracts files is given. -/
structure ExtractRequest where
  image : Path := ⟨0, []⟩
  entries : List String := []
  out : Path := ⟨0, []⟩
deriving DecidableEq, Repr

/- What the command that disassembles a file is given. -/
structure DisassembleRequest where
  file : Path := ⟨0, []⟩
  offset : Option String := none
  length : Option String := none
  loadAddress : String := "0"
  codeAddresses : String := ""
  definitions : List String := []
  out : Option Path := none
deriving DecidableEq, Repr

/- What the program is asked to do. -/
inductive Request where
| list (r : ListRequest)
| extract (r : ExtractRequest)
| disassemble (r : DisassembleRequest)
deriving DecidableEq, Repr

/-
  A request, and whether every report is wanted; without a
  request, help is.
-/
structure Invocation where
  verbose : Bool
  request : Option Request
deriving DecidableEq, Repr

end Command

end Beeb

------------------------------------------------------------
-- Grammars Of The Commands
------------------------------------------------------------

namespace Beeb

namespace Command

/- The option that asks for help. -/
def helpChoice
    {σ : Type} : Choice σ :=
  ⟨["-h", "--help"], .help⟩

/- The grammar of the command that lists a disc. -/
def listGrammar : Grammar ListRequest where
  program := "bbcdisasm list"
  usage := listUsage
  help := listHelp
  options := [helpChoice]
  positionals :=
    [⟨"image", .one, fun words r =>
      { r with image := .ofString (words.headD "") }⟩]

/- The grammar of the command that extracts files. -/
def extractGrammar : Grammar ExtractRequest where
  program := "bbcdisasm extract"
  usage := extractUsage
  help := extractHelp
  options :=
    [helpChoice,
      ⟨["--outdir"], .value fun text r =>
        { r with out := .ofString text }⟩]
  positionals :=
    [⟨"image", .one, fun words r =>
        { r with image := .ofString (words.headD "") }⟩,
      ⟨"entries", .many, fun words r =>
        { r with entries := words }⟩]

/- The grammar of the command that disassembles a file. -/
def disassembleGrammar : Grammar DisassembleRequest where
  program := "bbcdisasm disasm"
  usage := disassembleUsage
  help := disassembleHelp
  options :=
    [helpChoice,
      ⟨["--loadaddr"], .value fun text r =>
        { r with loadAddress := text }⟩,
      ⟨["--codeaddrs"], .value fun text r =>
        { r with codeAddresses := text }⟩,
      ⟨["--definevar"], .value fun text r =>
        { r with definitions := r.definitions ++ [text] }⟩,
      ⟨["--out"], .value fun text r =>
        { r with out := some (.ofString text) }⟩]
  positionals :=
    [⟨"file", .one, fun words r =>
        { r with file := .ofString (words.headD "") }⟩,
      ⟨"offset", .optional, fun words r =>
        { r with offset := words.head? }⟩,
      ⟨"length", .optional, fun words r =>
        { r with length := words.head? }⟩]

end Command

end Beeb

------------------------------------------------------------
-- The Grammar Of The Program
------------------------------------------------------------

namespace Beeb

namespace Command

/-
  The settings before the command, and the words from the
  command on.
-/
structure TopLevel where
  verbose : Bool := false
  command : List String := []
deriving DecidableEq, Repr

/- The grammar of the program. -/
def topGrammar : Grammar TopLevel where
  program := "bbcdisasm"
  usage := topUsage
  help := topHelp
  options :=
    [helpChoice,
      ⟨["-v", "--verbose"], .flag fun s =>
        { s with verbose := true }⟩]
  positionals :=
    [⟨"command", .rest, fun words s =>
      { s with command := words }⟩]

/- Why no request was made: what to show, and where. -/
inductive Refusal where
/- A help text, which was asked for. -/
| help (text : String)
/- A usage error of a level of the program. -/
| usage (usage program : String) (e : UsageError)
deriving DecidableEq, Repr

/- Read words by a grammar, with the texts of that grammar. -/
def Grammar.read
    {σ : Type}
    (g : Grammar σ)
    (settings : σ)
    (words : List String) :
    Except Refusal (σ × List String) :=
  (g.parse settings words).mapError fun
    | .help => .help g.help
    | .refused e => .usage g.usage g.program e

/- A usage error of the program itself. -/
def refuse
    {α : Type}
    (e : UsageError) : Except Refusal α :=
  .error (.usage topGrammar.usage topGrammar.program e)

/- The names of the commands. -/
def commandNames : List String :=
  ["list", "ls", "extract", "x", "disasm", "d"]

/-
  The request that a command and its words make, and the
  words it cannot use.
-/
def readRequest
    (name : String)
    (words : List String) :
    Except Refusal (Request × List String) :=
  if name = "list" || name = "ls" then
    (listGrammar.read {} words).map
      fun (r, extra) => (.list r, extra)
  else if name = "extract" || name = "x" then
    (extractGrammar.read {} words).map
      fun (r, extra) => (.extract r, extra)
  else if name = "disasm" || name = "d" then
    (disassembleGrammar.read {} words).map
      fun (r, extra) => (.disassemble r, extra)
  else refuse (.invalidChoice "command" name commandNames)

/- Accept a result if no words are left aside. -/
def settle
    (invocation : Invocation)
    (leftover : List String) : Except Refusal Invocation :=
  if leftover.isEmpty then .ok invocation
  else refuse (.unrecognized leftover)

/- Read the words of a command line. -/
def Invocation.ofWords
    (words : List String) : Except Refusal Invocation := do
  let (top, leftover) ← topGrammar.read {} words
  match top.command with
  | [] => settle ⟨top.verbose, none⟩ leftover
  | name :: words =>
    let (request, extra) ← readRequest name words
    settle ⟨top.verbose, some request⟩ (leftover ++ extra)

end Command

end Beeb
