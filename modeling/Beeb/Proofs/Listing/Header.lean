import Beeb.Listing.Header
import Beeb.Proofs.Analysis
import Beeb.Proofs.Attempts

/-
  When a header can be written: always, as far as the system
  symbols of an analysis go, and if no variable is too long.

  Main declarations:
    * `Variable.Overlong`
    * `Listing.Symbol.ofAddress`
    * `Analysis.Named`
    * `Listing.create_of_named`
    * `Listing.headerText`
    * `Listing.filterMap_headerText`
    * `Listing.headerLines_of_named`
    * `Listing.eq_headerText_of_headerLines`
    * `Listing.headerLines_eq_error`
-/

------------------------------------------------------------
-- Variables In A Header
------------------------------------------------------------

namespace Beeb

namespace Variable

/- The value has more decimal digits than can be written. -/
def Overlong
    (v : Variable) : Prop :=
  Numeral.digitLimit <
    (Nat.toDigits 10 v.value.natAbs).length

/- The definition of a variable that can be written. -/
def definition
    (v : Variable) : String :=
  v.name ++ " = " ++ Numeral.decimal v.value

/- Variables that are not too long can be written. -/
theorem render_eq_ok
    (v : Variable)
    (hShort : ¬ v.Overlong) :
    v.render = .ok v.definition := by
  have hDigits :
      (Nat.toDigits 10 v.value.natAbs).length ≤
        Numeral.digitLimit := by
    simpa [Overlong] using hShort
  simp [render, Numeral.decimal?, hDigits, Except.map,
    definition]

/- Some variable is too long, or none of them is. -/
theorem overlong_or_short
    (vars : List Variable) :
    (∃ v ∈ vars, v.Overlong) ∨ ∀ v ∈ vars, ¬ v.Overlong := by
  by_cases hLong : ∃ v ∈ vars, v.Overlong
  · exact .inl hLong
  · exact .inr fun v hv hOverlong => hLong ⟨v, hv, hOverlong⟩

/- Variables that are too long cannot be written. -/
theorem render_eq_error
    (v : Variable)
    (hLong : v.Overlong) :
    v.render = .error .tooLongToWrite := by
  have hDigits :
      ¬ (Nat.toDigits 10 v.value.natAbs).length ≤
        Numeral.digitLimit := by
    simpa [Overlong] using hLong
  simp [render, Numeral.decimal?, hDigits, Except.map]

end Variable

end Beeb

------------------------------------------------------------
-- Symbols In A Header
------------------------------------------------------------

namespace Beeb

namespace Listing

/- The symbol of an address that has a name. -/
def Symbol.ofAddress
    (names : Mos.Names)
    (address : Int) : Symbol :=
  ⟨(names.find? address).getD "", address⟩

/- An address that has a name has a symbol. -/
theorem Symbol.find_eq_ok
    (names : Mos.Names)
    (address : Int)
    (hNamed : (names.find? address).isSome) :
    find names address = .ok (ofAddress names address) := by
  rcases Option.isSome_iff_exists.mp hNamed with
    ⟨name, hName⟩
  simp [find, ofAddress, hName]

/- A call that an analysis finds has a name. -/
theorem isSome_callName?_of_mem_calls
    (adjust : Int)
    (steps : List Placed)
    (address : Int)
    (hMem : address ∈ (Analysis.ofSteps adjust steps).calls) :
    (Mos.callName? address).isSome := by
  rcases (Analysis.mem_calls_iff adjust steps
      address).mp hMem with
    ⟨p, -, hCall⟩
  rcases p.exists_of_call? address hCall with
    ⟨i, -, -, -, -, hNamed⟩
  exact hNamed

/- A vector that an analysis finds has a name. -/
theorem isSome_vectorName?_of_mem_vectors
    (adjust : Int)
    (steps : List Placed)
    (address : Int)
    (hMem :
      address ∈ (Analysis.ofSteps adjust steps).vectors) :
    (Mos.vectorName? address).isSome := by
  rcases (Analysis.mem_vectors_iff adjust steps
      address).mp hMem with
    ⟨p, -, hVector⟩
  rcases p.exists_of_vector? address hVector with
    ⟨i, word, -, -, -, -, hBase⟩
  unfold Mos.vectorBase? at hBase
  split at hBase
  · rename_i hNamed
    cases hBase
    exact hNamed
  split at hBase
  · rename_i hNamed
    cases hBase
    exact hNamed
  · cases hBase

end Listing

/- Every system symbol of an analysis has a name. -/
structure Analysis.Named
    (a : Analysis) : Prop where
  calls : ∀ address ∈ a.calls,
    (Mos.callName? address).isSome
  vectors : ∀ address ∈ a.vectors,
    (Mos.vectorName? address).isSome

/- The analysis of steps finds symbols that have names. -/
theorem Analysis.named_ofSteps
    (adjust : Int)
    (steps : List Placed) :
    (ofSteps adjust steps).Named :=
  ⟨Listing.isSome_callName?_of_mem_calls adjust steps,
    Listing.isSome_vectorName?_of_mem_vectors adjust steps⟩

namespace Listing

/- A header can be made of symbols that have names. -/
theorem create_of_named
    (a : Analysis)
    (vars : List Variable)
    (origin : Int)
    (hNamed : a.Named) :
    Header.create a.calls a.vectors vars origin =
      .ok
        { calls := a.calls.toList.map (.ofAddress Mos.calls)
          vectors :=
            a.vectors.toList.map (.ofAddress Mos.vectors)
          vars := vars
          origin := origin } := by
  have hCalls :
      a.calls.toList.mapM (Symbol.find Mos.calls) =
        .ok (a.calls.toList.map (.ofAddress Mos.calls)) := by
    apply mapM_eq_ok
    intro address hMem
    apply Symbol.find_eq_ok
    exact
      hNamed.calls address (Std.TreeSet.mem_toList.mp hMem)
  have hVectors :
      a.vectors.toList.mapM (Symbol.find Mos.vectors) =
        .ok
          (a.vectors.toList.map
            (.ofAddress Mos.vectors)) := by
    apply mapM_eq_ok
    intro address hMem
    apply Symbol.find_eq_ok
    exact
      hNamed.vectors address (Std.TreeSet.mem_toList.mp hMem)
  unfold Header.create
  rw [hCalls, hVectors]
  rfl

end Listing

end Beeb

------------------------------------------------------------
-- Header Lines
------------------------------------------------------------

namespace Beeb

namespace Listing

/-
  The lines of a header in which every symbol has a name and
  no variable is too long.
-/
def headerText
    (a : Analysis)
    (vars : List Variable)
    (origin : Int) : List String :=
  title ++
    block "OS Call Addresses"
      ((a.calls.toList.map (.ofAddress Mos.calls)).map
        (Symbol.definition 6)) ++
    block "OS Vector Addresses"
      ((a.vectors.toList.map (.ofAddress Mos.vectors)).map
        (Symbol.definition 5)) ++
    block "Variables" (vars.map Variable.definition) ++
    originLines origin

/-
  The lines of a header that say nothing of a program: its
  title, its headings, and the empty lines.
-/
def rubrics : List String :=
  title ++
    ["\\ " ++ "OS Call Addresses",
      "\\ " ++ "OS Vector Addresses",
      "\\ " ++ "Variables"]

/- A block says what the lines in it say. -/
theorem filterMap_block
    {α : Type}
    (read : String → Option α)
    (heading : String)
    (lines : List String)
    (hHeading : read ("\\ " ++ heading) = none)
    (hEmpty : read "" = none) :
    (block heading lines).filterMap read =
      lines.filterMap read := by
  cases lines with
  | nil => rfl
  | cons line lines =>
    rw [block, List.cons_append,
      List.filterMap_cons_none hHeading,
      List.filterMap_append]
    · simp [hEmpty]
    · intro hNil
      cases hNil

/-
  What a header says to a reader that makes nothing of its
  title and its headings.
-/
theorem filterMap_headerText
    {α : Type}
    (read : String → Option α)
    (hRubrics : ∀ text ∈ rubrics, read text = none)
    (a : Analysis)
    (vars : List Variable)
    (origin : Int) :
    (headerText a vars origin).filterMap read =
      ((a.calls.toList.map (.ofAddress Mos.calls)).map
        (Symbol.definition 6)).filterMap read ++
      ((a.vectors.toList.map (.ofAddress Mos.vectors)).map
        (Symbol.definition 5)).filterMap read ++
      (vars.map Variable.definition).filterMap read ++
      (originLines origin).filterMap read := by
  have hTitle : title.filterMap read = [] := by
    rw [List.filterMap_eq_nil_iff]
    intro text hMem
    exact hRubrics text (List.mem_append_left _ hMem)
  have hEmpty : read "" = none :=
    hRubrics "" (List.mem_append_left _ (by simp [title]))
  have hHeading :
      ∀ heading ∈
          ["OS Call Addresses", "OS Vector Addresses",
            "Variables"],
        read ("\\ " ++ heading) = none := by
    intro heading hMem
    apply hRubrics
    apply List.mem_append_right
    exact List.mem_map_of_mem (f := ("\\ " ++ ·)) hMem
  rw [headerText, List.filterMap_append,
    List.filterMap_append, List.filterMap_append,
    List.filterMap_append, hTitle, List.nil_append,
    filterMap_block read _ _ (hHeading _ (by simp)) hEmpty,
    filterMap_block read _ _ (hHeading _ (by simp)) hEmpty,
    filterMap_block read _ _ (hHeading _ (by simp)) hEmpty]

/-
  A header can be written if every symbol has a name and no
  variable is too long.
-/
theorem headerLines_of_named
    (a : Analysis)
    (vars : List Variable)
    (origin : Int)
    (hNamed : a.Named)
    (hShort : ∀ v ∈ vars, ¬ v.Overlong) :
    headerLines a.calls a.vectors vars origin =
      .ok (headerText a vars origin) := by
  have hDefinitions :
      vars.mapM Variable.render =
        .ok (vars.map Variable.definition) :=
    mapM_eq_ok _ _ vars fun v hv =>
      v.render_eq_ok (hShort v hv)
  unfold headerLines
  rw [create_of_named a vars origin hNamed]
  simp only [Except.bind, Header.lines, hDefinitions]
  rfl

/- An address that has a symbol has a name. -/
theorem isSome_of_find
    (names : Mos.Names)
    (addresses : AddressSet)
    (symbols : List Symbol)
    (hFound :
      addresses.toList.mapM (Symbol.find names) =
        .ok symbols) :
    ∀ address ∈ addresses,
      (names.find? address).isSome = true := by
  intro address hMem
  rcases (exists_mapM_eq_ok_iff _ _).mp ⟨symbols, hFound⟩
      address (Std.TreeSet.mem_toList.mpr hMem) with
    ⟨symbol, hSymbol⟩
  unfold Symbol.find at hSymbol
  split at hSymbol
  · rename_i name hName
    rw [hName]
    rfl
  · cases hSymbol

/-
  A header that is written has names for all its symbols and
  no variable that is too long.
-/
theorem eq_headerText_of_headerLines
    (a : Analysis)
    (vars : List Variable)
    (origin : Int)
    (lines : List String)
    (hLines :
      headerLines a.calls a.vectors vars origin = .ok lines) :
    a.Named ∧ lines = headerText a vars origin := by
  rcases (bind_eq_ok_iff _ _ _).mp hLines with
    ⟨h, hCreate, hWritten⟩
  rcases (bind_eq_ok_iff _ _ _).mp hCreate with
    ⟨calls, hCalls, hRest⟩
  rcases (bind_eq_ok_iff _ _ _).mp hRest with
    ⟨vectors, hVectors, hHeader⟩
  cases hHeader
  have hNamed : a.Named :=
    ⟨isSome_of_find _ _ _ hCalls, isSome_of_find _ _ _ hVectors⟩
  have hShort : ∀ v ∈ vars, ¬ v.Overlong := by
    intro v hv hLong
    unfold Header.lines at hWritten
    cases hDefinitions : vars.mapM Variable.render with
    | error e =>
      rw [hDefinitions] at hWritten
      cases hWritten
    | ok definitions =>
      rcases (exists_mapM_eq_ok_iff _ _).mp
          ⟨definitions, hDefinitions⟩ v hv with
        ⟨text, hText⟩
      rw [v.render_eq_error hLong] at hText
      cases hText
  rw [headerLines_of_named a vars origin hNamed hShort]
    at hLines
  exact ⟨hNamed, (Except.ok.inj hLines).symm⟩

variable (adjust : Int)
variable (steps : List Placed)
variable (vars : List Variable)
variable (origin : Int)

/- A header with a variable that is too long fails. -/
theorem headerLines_eq_error
    (hLong : ∃ v ∈ vars, v.Overlong) :
    let a := Analysis.ofSteps adjust steps
    headerLines a.calls a.vectors vars origin =
      .error (.unwritable .tooLongToWrite) := by
  intro a
  have hOnly :
      ∀ (v : Variable) e,
        v.render = .error e → e = .tooLongToWrite := by
    intro v e hError
    by_cases hLong : v.Overlong
    · rw [v.render_eq_error hLong] at hError
      exact (Except.error.inj hError).symm
    · rw [v.render_eq_ok hLong] at hError
      cases hError
  have hDefinitions :
      vars.mapM Variable.render =
        .error .tooLongToWrite := by
    rcases hLong with ⟨v, hv, hTooLong⟩
    exact
      mapM_eq_error _ _ vars hOnly
        ⟨v, hv, _, v.render_eq_error hTooLong⟩
  unfold headerLines
  rw [create_of_named a vars origin
    (Analysis.named_ofSteps adjust steps)]
  simp only [Except.bind, Header.lines, hDefinitions]
  rfl

end Listing

end Beeb
