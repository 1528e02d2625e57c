import Beeb.Command.Grammar

/-
  Reading a command line by its grammar.

  Key definitions include:
    * `Beeb.Command.Stop`
    * `Beeb.Command.Progress`
    * `Beeb.Command.Arity.split?`
    * `Beeb.Command.fill`
    * `Beeb.Command.Grammar.cluster`
    * `Beeb.Command.Grammar.run`
    * `Beeb.Command.Grammar.parse`
-/

------------------------------------------------------------
-- Progress
------------------------------------------------------------

namespace Beeb

namespace Command

/- Why the reading of a command line stops before its end. -/
inductive Stop where
| help
| refused (e : UsageError)
deriving DecidableEq, Repr

/- What has been read, and what may still come. -/
structure Progress (σ : Type) where
  settings : σ
  /- The positional arguments that have no place yet. -/
  pending : List (Positional σ)
  /- The words that nothing could be done with. -/
  leftover : List String := []

/- Leave words aside. -/
def Progress.leave
    {σ : Type}
    (p : Progress σ)
    (words : List String) : Progress σ :=
  { p with leftover := p.leftover ++ words }

end Command

end Beeb

------------------------------------------------------------
-- Positional Arguments
------------------------------------------------------------

namespace Beeb

namespace Command

variable {σ : Type}

/- Split off the separators at the front. -/
def splitSeparators
    (words : List (Word σ)) :
    List (Word σ) × List (Word σ) :=
  (words.takeWhile Word.isSeparator,
    words.dropWhile Word.isSeparator)

/-
  Split off the words that an argument takes, if there are
  enough.
-/
def Arity.split?
    (arity : Arity)
    (words : List (Word σ)) :
    Option (List (Word σ) × List (Word σ)) :=
  let (before, after) := splitSeparators words
  match arity, after with
  | .many, _ =>
    some
      (words.takeWhile (!·.isOption),
        words.dropWhile (!·.isOption))
  | .rest, .plain _ :: _ => some (words, [])
  | .one, .plain word :: after
  | .optional, .plain word :: after =>
    let (behind, after) := splitSeparators after
    some (before ++ .plain word :: behind, after)
  | .optional, after => some (before, after)
  | _, _ => none

/-
  The values among the words of an argument: one `--` is
  dropped.
-/
def Arity.values
    (arity : Arity)
    (words : List (Word σ)) : List String :=
  let texts := words.map Word.text
  if arity = .rest then texts else texts.erase "--"

/-
  Give words to positional arguments, in order, while there
  are enough. The arguments and the words that are left come
  with the settings.
-/
def fill
    (settings : σ) :
    List (Positional σ) → List (Word σ) →
      σ × List (Positional σ) × List (Word σ)
| [], words => (settings, [], words)
| p :: ps, words =>
  match p.arity.split? words with
  | none => (settings, p :: ps, words)
  | some (taken, words) =>
    fill (p.set (p.arity.values taken) settings) ps words

end Command

end Beeb

------------------------------------------------------------
-- Options
------------------------------------------------------------

namespace Beeb

namespace Command

variable {σ : Type}

/- What an option word does. -/
structure Effect (σ : Type) where
  settings : σ
  /- Words that nothing could be done with. -/
  leftover : List String := []
  /- Whether the next word was taken as a value. -/
  takesNext : Bool := false

/- Apply the flags of a word. -/
def applyFlags
    (settings : σ) : List (Action σ) → Except Stop σ
| [] => .ok settings
| .help :: _ => .error .help
| .flag set :: actions => applyFlags (set settings) actions
| .value _ :: actions => applyFlags settings actions

/-
  Apply the last option of a word. `flags` stand before it
  in the same word; they take effect only if the whole word
  is right. `next` is the word after it, if that is plain.
-/
def finish
    (settings : σ)
    (next : Option String)
    (flags : List (Action σ))
    (choice : Choice σ)
    (value : Option String) : Except Stop (Effect σ) :=
  match choice.action, value, next with
  | .value set, some text, _ =>
    (applyFlags settings flags).map fun s => ⟨set text s, [], false⟩
  | .value set, none, some text =>
    (applyFlags settings flags).map fun s => ⟨set text s, [], true⟩
  | .value _, none, none =>
    .error (.refused (.expectedValue choice.names))
  | action, none, _ =>
    (applyFlags settings (flags ++ [action])).map
      fun s => ⟨s, [], false⟩
  | _, some text, _ =>
    .error (.refused (.ignoredValue choice.names text))

namespace Grammar

/-
  Apply a short option and what is joined to it: a value, or
  further flags.
-/
def cluster
    (g : Grammar σ)
    (settings : σ)
    (next : Option String)
    (flags : List (Action σ))
    (choice : Choice σ) :
    List Char → Except Stop (Effect σ)
| [] => finish settings next flags choice none
| '=' :: cs =>
  finish settings next flags choice (some (String.ofList cs))
| c :: cs =>
  let text := String.ofList (c :: cs)
  match choice.action, g.find? (String.ofList ['-', c]) with
  | .value _, _ => finish settings next flags choice (some text)
  | action, some another =>
    if c = '-' then
      .error (.refused (.ignoredValue choice.names text))
    else
      g.cluster settings next (flags ++ [action]) another cs
  | action, none =>
    if c = '-' then
      .error (.refused (.ignoredValue choice.names text))
    else
      (applyFlags settings (flags ++ [action])).map
        fun s => ⟨s, ["-" ++ text], false⟩

/- Apply the option that a word names. -/
def applyUse
    (g : Grammar σ)
    (settings : σ)
    (next : Option String)
    (use : Use σ) : Except Stop (Effect σ) :=
  match use.attached with
  | .nothing => finish settings next [] use.choice none
  | .equals text =>
    finish settings next [] use.choice (some text)
  | .joined text =>
    g.cluster settings next [] use.choice text.toList

/- Apply an option word; an unknown one is left aside. -/
def applyWord
    (g : Grammar σ)
    (settings : σ)
    (next : Option String)
    (text : String) :
    Option (Use σ) → Except Stop (Effect σ)
| some use => g.applyUse settings next use
| none => .ok ⟨settings, [text], false⟩

end Grammar

end Command

end Beeb

------------------------------------------------------------
-- Whole Command Lines
------------------------------------------------------------

namespace Beeb

namespace Command

variable {σ : Type}

/- The text of the first word, if it is plain. -/
def nextPlain? : List (Word σ) → Option String
| .plain text :: _ => some text
| _ => none

namespace Grammar

/-
  Read words from the left. Before each option, and at the
  end, positional arguments take what they can get; words
  that none takes are left aside.
-/
def run
    (g : Grammar σ)
    (p : Progress σ) :
    List (Word σ) → Except Stop (Progress σ)
| [] =>
  let (settings, pending, _) := fill p.settings p.pending []
  .ok { p with settings, pending }
| .option text use :: words =>
  match
    g.applyWord p.settings (nextPlain? words) text use with
  | .error stop => .error stop
  | .ok effect =>
    g.run
      (Progress.leave { p with settings := effect.settings }
        effect.leftover)
      (words.drop (if effect.takesNext then 1 else 0))
| word :: words =>
  let (settings, pending, after) :=
    fill p.settings p.pending (word :: words)
  let p := { p with settings, pending }
  if after.length < words.length + 1 then g.run p after
  else
    g.run
      (p.leave
        ((word :: words.takeWhile (!·.isOption)).map
          Word.text))
      (words.dropWhile (!·.isOption))
termination_by words => words.length
decreasing_by
  · simp only [List.length_drop, List.length_cons]
    omega
  · simpa using ‹after.length < words.length + 1›
  · have := (List.dropWhile_sublist
      (fun w : Word σ => !w.isOption) (l := words)).length_le
    simp only [List.length_cons]
    omega

/-
  Read a command line: the settings that it makes, and the
  words that nothing could be done with.
-/
def parse
    (g : Grammar σ)
    (settings : σ)
    (words : List String) :
    Except Stop (σ × List String) := do
  let words ← (g.classify words).mapError .refused
  let p ← g.run ⟨settings, g.positionals, []⟩ words
  let missing := p.pending.filter (·.arity.isRequired)
  if missing.isEmpty then return (p.settings, p.leftover)
  else .error (.refused (.missing (missing.map (·.name))))

end Grammar

end Command

end Beeb
