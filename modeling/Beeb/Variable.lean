import Beeb.Numeral.Reader
import Beeb.Text.Alphanumeric

/-
  Variables: named constants given by the user.

  A listing defines every variable and writes its name in
  place of its value.  Within a list of variables a later
  definition of a name replaces an earlier one.

  Key definitions include:
    * `Beeb.Variable`
    * `Beeb.Variable.render`
    * `Beeb.VariableError`
    * `Beeb.Variable.parse`
    * `Beeb.Variable.find?`
    * `Beeb.Variable.merge`
-/

------------------------------------------------------------
-- Variables
------------------------------------------------------------

namespace Beeb

/- A named constant. -/
structure Variable where
  name : String
  value : Int
deriving DecidableEq, Repr

/- A variable as the listing defines it. -/
def Variable.render
    (v : Variable) : Except NumeralError String :=
  (Numeral.decimal? v.value).map fun value =>
    v.name ++ " = " ++ value

end Beeb

------------------------------------------------------------
-- Definitions
------------------------------------------------------------

namespace Beeb

/- Why a text defines no variable. -/
inductive VariableError where
| malformed (definition : String)
| badName (name : String)
| notNumeric (value : String)
deriving DecidableEq, Repr

/- The wording of a variable error. -/
def VariableError.message : VariableError → String
| .malformed definition =>
  "invalid variable definition " ++ Text.quote definition
| .badName name =>
  "invalid variable name " ++ Text.quote name
| .notNumeric value =>
  "non numeric value " ++ Text.quote value

namespace Variable

/- A character that may begin a name. -/
def beginsName
    (c : Char) : Bool :=
  Text.isLetter c || c = '_'

/- A character that a name may hold. -/
def continuesName
    (c : Char) : Bool :=
  Text.isAlphanumeric c || c = '_'

/- Whether a text is a name. -/
def isName
    (name : String) : Bool :=
  name.toList.head?.any beginsName &&
    name.toList.all continuesName

/- The texts before and after the first equals sign. -/
def splitDefinition?
    (definition : String) : Option (String × String) :=
  let cs := definition.toList
  match cs.dropWhile (· ≠ '=') with
  | _ :: value =>
    some (String.ofList (cs.takeWhile (· ≠ '=')),
      String.ofList value)
  | [] => none

/- Read a definition `name=value`. -/
def parse
    (definition : String) : Except VariableError Variable :=
  match splitDefinition? definition with
  | none => .error (.malformed definition)
  | some (name, value) =>
    let name := Text.trim name
    if name.isEmpty then .error (.malformed definition)
    else if !isName name then .error (.badName name)
    else
      match Numeral.parse value with
      | .ok n => .ok ⟨name, n⟩
      | .error _ => .error (.notNumeric value)

end Variable

end Beeb

------------------------------------------------------------
-- Lists Of Variables
------------------------------------------------------------

namespace Beeb

namespace Variable

/- The first variable of a value. -/
def find?
    (vars : List Variable)
    (value : Int) : Option Variable :=
  vars.find? (·.value = value)

/-
  Add a definition to a list; it replaces one of the same
  name.
-/
def define
    (vars : List Variable)
    (v : Variable) : List Variable :=
  vars.filter (·.name ≠ v.name) ++ [v]

/- Adding a definition keeps the names different. -/
theorem nodup_define
    (vars : List Variable)
    (v : Variable)
    (hNodup : (vars.map name).Nodup) :
    ((define vars v).map name).Nodup := by
  rw [define, List.map_append, List.nodup_append]
  refine ⟨?_, ?_, ?_⟩
  · exact hNodup.sublist (List.filter_sublist.map _)
  · simp
  · intro a ha b hb
    simp at ha hb
    grind

/-
  The definitions that are left when later ones replace
  earlier ones.
-/
def merge
    (vars : List Variable) : List Variable :=
  vars.foldl define []

/- Every variable that is left was given. -/
theorem mem_of_mem_merge
    (vars : List Variable)
    (v : Variable)
    (hMem : v ∈ merge vars) :
    v ∈ vars := by
  have hFold :
      ∀ vars start : List Variable,
        v ∈ vars.foldl define start →
          v ∈ start ∨ v ∈ vars := by
    intro vars
    induction vars with
    | nil => exact fun start hStart => .inl hStart
    | cons w vars ih =>
      intro start hStart
      rcases ih (define start w) hStart with
        hDefined | hLater
      · simp only [define, List.mem_append, List.mem_filter,
          List.mem_singleton] at hDefined
        rcases hDefined with ⟨hEarlier, -⟩ | rfl
        · exact .inl hEarlier
        · exact .inr (by simp)
      · exact .inr (by simp [hLater])
  simpa using hFold vars [] hMem

/- The names that are left are different. -/
theorem nodup_merge
    (vars : List Variable) :
    ((merge vars).map name).Nodup := by
  suffices hFold :
      ∀ start : List Variable,
        (start.map name).Nodup →
          ((vars.foldl define start).map name).Nodup from
    hFold [] (by simp)
  induction vars with
  | nil => exact fun start hNodup => hNodup
  | cons v vars ih =>
    exact fun start hNodup => ih _ (nodup_define start v hNodup)

end Variable

end Beeb
