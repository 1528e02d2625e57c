import Beeb.Text.DecimalDigit
import Beeb.Text.Quoted

/-
  Grammars of command lines: options and positional words.

  Options may stand anywhere before `--`.  A long option
  may be shortened as long as it stays unique, and may be
  given its value after `=`.  Short flags may be joined.
  Positional words are handed out in groups, each as long
  as it can be.

  Key definitions include:
    * `Beeb.Command.Action`
    * `Beeb.Command.Choice`
    * `Beeb.Command.Arity`
    * `Beeb.Command.Positional`
    * `Beeb.Command.Grammar`
    * `Beeb.Command.UsageError`
    * `Beeb.Command.Word`
    * `Beeb.Command.Grammar.classify`
-/

------------------------------------------------------------
-- Grammars
------------------------------------------------------------

namespace Beeb

namespace Command

/- What an option does to settings of type `σ`. -/
inductive Action (σ : Type) where
/- Shows the help text; nothing else is done. -/
| help
| flag (set : σ → σ)
| value (set : String → σ → σ)

/- An option, with all of its names. -/
structure Choice (σ : Type) where
  names : List String
  action : Action σ

/- How many words a positional argument takes. -/
inductive Arity where
| one
| optional
| many
/- One word and all that follows it, options too. -/
| rest
deriving DecidableEq, Repr

/- Whether an argument must be given a place, empty or not. -/
def Arity.isRequired : Arity → Bool
| .one | .many => true
| .optional | .rest => false

/-
  A positional argument; `set` gets the words that it takes.
-/
structure Positional (σ : Type) where
  name : String
  arity : Arity
  set : List String → σ → σ

/- The grammar of a command line, with its texts. -/
structure Grammar (σ : Type) where
  program : String
  usage : String
  help : String
  options : List (Choice σ)
  positionals : List (Positional σ)

end Command

end Beeb

------------------------------------------------------------
-- Errors
------------------------------------------------------------

namespace Beeb

namespace Command

/- Why a command line is refused. -/
inductive UsageError where
/-
  A shortened option that more than one option begins with.
-/
| ambiguous (word : String) (candidates : List String)
/- An option without its value. -/
| expectedValue (names : List String)
/- A value given to an option that takes none. -/
| ignoredValue (names : List String) (value : String)
| invalidChoice
    (name value : String)
    (choices : List String)
| missing (names : List String)
| unrecognized (words : List String)
deriving DecidableEq, Repr

/- The wording of a usage error. -/
def UsageError.message : UsageError → String
| .ambiguous word candidates =>
  "ambiguous option: " ++ word ++ " could match " ++
    ", ".intercalate candidates
| .expectedValue names =>
  "argument " ++ "/".intercalate names ++
    ": expected one argument"
| .ignoredValue names value =>
  "argument " ++ "/".intercalate names ++
    ": ignored explicit argument " ++ Text.quote value
| .invalidChoice name value choices =>
  "argument " ++ name ++ ": invalid choice: " ++
    Text.quote value ++ " (choose from " ++
    ", ".intercalate (choices.map Text.quote) ++ ")"
| .missing names =>
  "the following arguments are required: " ++
    ", ".intercalate names
| .unrecognized words =>
  "unrecognized arguments: " ++ " ".intercalate words

end Command

end Beeb

------------------------------------------------------------
-- Words
------------------------------------------------------------

namespace Beeb

namespace Command

/- A value in the same word as its option. -/
inductive Attached where
| nothing
/- After an equals sign. -/
| equals (text : String)
/- Right behind a short option. -/
| joined (text : String)
deriving DecidableEq, Repr

/- An option that a word names, and the name it stands for. -/
structure Use (σ : Type) where
  choice : Choice σ
  spelling : String
  attached : Attached

/- A word of a command line. -/
inductive Word (σ : Type) where
| plain (text : String)
/- The first `--`, after which all words are plain. -/
| separator
/- A word that looks like an option; it may be unknown. -/
| option (text : String) (use : Option (Use σ))

namespace Word

variable {σ : Type}

/- The text of a word. -/
def text : Word σ → String
| .plain text => text
| .separator => "--"
| .option text _ => text

/- Whether a word looks like an option. -/
def isOption : Word σ → Bool
| .option .. => true
| _ => false

/- Whether a word is the separator. -/
def isSeparator : Word σ → Bool
| .separator => true
| _ => false

end Word

end Command

end Beeb

------------------------------------------------------------
-- Classification
------------------------------------------------------------

namespace Beeb

namespace Command

/- Whether characters are decimal digits, one at least. -/
def isDigits
    (cs : List Char) : Bool :=
  cs ≠ [] && cs.all fun c => (Text.decimalDigit? c).isSome

/-
  Whether a word is a negative number, with or without
  decimals. A line feed may end it.
-/
def isNegativeNumber
    (word : String) : Bool :=
  match word.toList with
  | '-' :: cs =>
    let cs := if cs.getLast? = some '\n' then cs.dropLast else cs
    match cs.dropWhile (· ≠ '.') with
    | '.' :: decimals =>
      (cs.takeWhile (· ≠ '.')).all
          (fun c => (Text.decimalDigit? c).isSome) &&
        isDigits decimals
    | _ => isDigits cs
  | _ => false

/- The texts before and after the first equals sign. -/
def splitEquals
    (word : String) : String × Attached :=
  let cs := word.toList
  match cs.dropWhile (· ≠ '=') with
  | _ :: value =>
    (String.ofList (cs.takeWhile (· ≠ '=')),
      .equals (String.ofList value))
  | [] => (word, .nothing)

namespace Grammar

variable {σ : Type}

/- All names of options, each with its option. -/
def named
    (g : Grammar σ) : List (String × Choice σ) :=
  g.options.flatMap fun choice =>
    choice.names.map fun name => (name, choice)

/- The option of a name. -/
def find?
    (g : Grammar σ)
    (name : String) : Option (Choice σ) :=
  (g.named.find? (·.1 = name)).map Prod.snd

/-
  The options that a word may stand for, if no name is
  spelled out in it.
-/
def candidates
    (g : Grammar σ)
    (word : String) : List (Use σ) :=
  match word.toList with
  | '-' :: '-' :: _ =>
    let (start, attached) := splitEquals word
    (g.named.filter fun (name, _) =>
        start.toList.isPrefixOf name.toList).map
      fun (name, choice) => ⟨choice, name, attached⟩
  | dash :: letter :: rest =>
    let short := String.ofList [dash, letter]
    (g.named.filter fun (name, _) => name = short).map
      fun (name, choice) =>
        ⟨choice, name, .joined (String.ofList rest)⟩
  | _ => []

/- What a word that begins with a dash stands for. -/
def classifyDashed
    (g : Grammar σ)
    (word : String) : Except UsageError (Word σ) :=
  let (start, attached) := splitEquals word
  match g.find? word, g.find? start with
  | some choice, _ =>
    .ok (.option word (some ⟨choice, word, .nothing⟩))
  | none, some choice =>
    .ok (.option word (some ⟨choice, start, attached⟩))
  | none, none =>
    match g.candidates word with
    | [use] => .ok (.option word (some use))
    | [] =>
      if isNegativeNumber word || word.toList.contains ' ' then
        .ok (.plain word)
      else .ok (.option word none)
    | uses => .error (.ambiguous word (uses.map Use.spelling))

/- What a word before the separator stands for. -/
def classifyWord
    (g : Grammar σ)
    (word : String) : Except UsageError (Word σ) :=
  match word.toList with
  | '-' :: _ :: _ => g.classifyDashed word
  | _ => .ok (.plain word)

/- What the words of a command line stand for. -/
def classify
    (g : Grammar σ) :
    List String → Except UsageError (List (Word σ))
| [] => .ok []
| word :: words =>
  if word = "--" then
    .ok (.separator :: words.map .plain)
  else do
    let first ← g.classifyWord word
    return first :: (← g.classify words)

end Grammar

end Command

end Beeb
