import Beeb.Proofs.Assembler.Code
import Beeb.Proofs.Assembler.Line
import Beeb.Proofs.Listing.Body

/-
  Both passes of an assembler over the lines of a walk.

  The first pass needs no label to know the size of a line,
  so it gives each label the address of the step that it
  stands before.  With these the second pass gives each line
  the bytes of its step.

  Main declarations:
    * `Assembler.Prepared`
    * `Assembler.exists_statement`
    * `Assembler.mapM_readLine?`
    * `Assembler.layout?_stepStatements`
    * `Assembler.encodeAll?_stepStatements`
-/

------------------------------------------------------------
-- The Statement Of A Step
------------------------------------------------------------

namespace Beeb

namespace Assembler

open Listing

/- What is known of a step before its lines are assembled. -/
structure Prepared
    (a : Analysis)
    (adjust : Int)
    (statement : Statement)
    (p : Placed) : Prop where
  lines : ∃ line : Line,
    (Item.ofStep adjust p).lines a.labels [] = [line] ∧
      readLine? line.render = some statement
  yields : Yields a (p.address adjust) statement p.step.data
  data_ne_nil : p.step.data ≠ []

/- The line of a step is read as one that gives its bytes. -/
theorem exists_statement
    (a : Analysis)
    (adjust : Int)
    (p : Placed)
    (hFaithful : p.step.Faithful)
    (hNumbered : a.labels.Numbered)
    (hCovered : p.Covered a) :
    ∃ statement, Prepared a adjust statement p := by
  have hSome : p.step.data ≠ [] := by
    rcases hFaithful.opening with ⟨first, rest, hData, -⟩
    simp [hData]
  by_cases hCode : ∃ i, p.step.verdict = .code i
  · rcases hCode with ⟨i, hCode⟩
    rcases mem_table_of_code p.step i hFaithful hCode with
      ⟨hTable, -⟩
    rcases reassembles_of_code a (p.address adjust) p i
        hFaithful hCode hNumbered hCovered with
      ⟨operand, form, value, hText, hWrites, hYields⟩
    have hLine :
        (Item.ofStep adjust p).lines a.labels [] =
          [.instruction i.mnemonic operand (p.address adjust)
            p.step.data] := by
      rw [ofStep_of_code adjust p i hCode]
      simp [Item.lines, instructionLine, hText, Except.map,
        Except.toOption]
    have hRead :=
      readLine?_instruction i operand (p.address adjust)
        p.step.data form value hTable hWrites
    exact ⟨_, ⟨_, hLine, hRead⟩, hYields, hSome⟩
  · have hLine :
        (Item.ofStep adjust p).lines a.labels [] =
          [.data p.step.data (p.address adjust)
            (dataName p.step.verdict)] := by
      rw [ofStep_of_data adjust p fun i hIs => hCode ⟨i, hIs⟩]
      rfl
    have hRead :=
      readLine?_data p.step.data (p.address adjust)
        (dataName p.step.verdict) hSome
    have hYields :
        Yields a (p.address adjust) (.bytes p.step.data)
          p.step.data :=
      ⟨fun _ _ => rfl, fun _ _ _ => rfl⟩
    exact ⟨_, ⟨_, hLine, hRead⟩, hYields, hSome⟩

end Assembler

end Beeb

------------------------------------------------------------
-- Reading The Lines
------------------------------------------------------------

namespace Beeb

namespace Assembler

open Listing

variable (a : Analysis)
variable (adjust : Int)
variable (statement : Placed → Statement)

/- What the lines of a step say. -/
def stepStatements
    (p : Placed) : List Statement :=
  (labelSymbol? a.labels adjust p).toList.map
      (fun symbol => .label symbol.1) ++
    [statement p]

/- The label line of a step is read back. -/
theorem readLine?_labelLines
    (p : Placed)
    (hNumbered : a.labels.Numbered) :
    ((labelLines a.labels adjust p).map Line.render).mapM
        readLine? =
      some
        ((labelSymbol? a.labels adjust p).toList.map
          fun symbol => .label symbol.1) := by
  unfold labelLines
  cases hSymbol : labelSymbol? a.labels adjust p with
  | none => rfl
  | some symbol =>
    rcases labelSymbol?_label _ _ p symbol hSymbol with
      ⟨label, hLabel, hName⟩
    rcases hNumbered _ label hLabel with ⟨index, rfl⟩
    have hRead :=
      readLine?_label _ (spells_label index).plain
    have hText := Except.ok.inj hName
    simp [← hText, hRead]

/- The lines of all steps are read back. -/
theorem mapM_readLine?
    (steps : List Placed)
    (hNumbered : a.labels.Numbered)
    (hPrepared : ∀ p ∈ steps,
      Prepared a adjust (statement p) p) :
    ((steps.flatMap (stepLines a.labels [] adjust)).map
        Line.render).mapM readLine? =
      some
        (steps.flatMap
          (stepStatements a adjust statement)) := by
  induction steps with
  | nil => rfl
  | cons p steps ih =>
    rcases (hPrepared p (by simp)).lines with
      ⟨line, hLine, hRead⟩
    rw [List.flatMap_cons, List.flatMap_cons,
      stepLines_eq a.labels [] adjust p line hLine,
      List.map_append, List.mapM_append, List.map_append,
      List.mapM_append,
      readLine?_labelLines a adjust p hNumbered,
      ih fun q hq => hPrepared q (by simp [hq])]
    simp [stepStatements, hRead]

end Assembler

end Beeb

------------------------------------------------------------
-- First Pass
------------------------------------------------------------

namespace Beeb

namespace Assembler

/- A new label takes no room. -/
theorem layout?_label
    (symbols : Symbols)
    (address : Int)
    (name : String)
    (rest : List Statement)
    (hNew : symbols.lookup name = none) :
    layout? symbols address (.label name :: rest) =
      (layout? (symbols ++ [(name, address)]) address
        rest).map
          fun (known, sizes) => (known, 0 :: sizes) := by
  simp only [layout?, size?, hNew, Option.isSome_none,
    Int.add_zero, Option.bind_eq_bind, Option.bind_some]
  cases layout? (symbols ++ [(name, address)]) address rest with
  | none => rfl
  | some result => rfl

/- Any other statement takes the room of its bytes. -/
theorem layout?_yields
    (a : Analysis)
    (symbols : Symbols)
    (address : Int)
    (statement : Statement)
    (data : List UInt8)
    (rest : List Statement)
    (hDefines : Defines a symbols)
    (hYields : Yields a address statement data)
    (hSome : data ≠ []) :
    layout? symbols address (statement :: rest) =
      (layout? symbols (address + data.length) rest).map
        fun (known, sizes) =>
          (known, (data.length : Int) :: sizes) := by
  have hSize := hYields.size symbols hDefines
  simp only [layout?, hSize, Option.bind_eq_bind,
    Option.bind_some]
  cases statement with
  | label name =>
    have hEmpty : (data.length : Int) = 0 := by
      simpa [size?] using hSize.symm
    have hNil : data = [] :=
      List.eq_nil_of_length_eq_zero (by omega)
    exact absurd hNil hSome
  | bytes | instruction =>
    cases layout? symbols (address + data.length) rest with
    | none => rfl
    | some result => rfl

variable (a : Analysis)
variable (adjust : Int)
variable (statement : Placed → Statement)

/- The sizes of the lines of a step. -/
def stepSizes
    (p : Placed) : List Int :=
  (labelSymbol? a.labels adjust p).toList.map (fun _ => 0) ++
    [p.step.length]

/- The address past a step. -/
theorem address_add_length
    (p : Placed) :
    p.address adjust + p.step.data.length =
      p.stop + adjust := by
  simp only [Placed.address, Placed.stop, Step.length]
  omega

/- The first pass over the lines of one step. -/
theorem layout?_step
    (p : Placed)
    (symbols : Symbols)
    (rest : List Statement)
    (hPrepared : Prepared a adjust (statement p) p)
    (hDefines : Defines a symbols)
    (hNew : ∀ symbol ∈ labelSymbol? a.labels adjust p,
      symbols.lookup symbol.1 = none) :
    layout? symbols (p.address adjust)
        (stepStatements a adjust statement p ++ rest) =
      (layout?
          (symbols ++
            (labelSymbol? a.labels adjust p).toList)
          (p.stop + adjust) rest).map
        fun (known, sizes) =>
          (known, stepSizes a adjust p ++ sizes) := by
  have hYields :=
    fun (known : Symbols) (hKnown : Defines a known) =>
      layout?_yields a known (p.address adjust) (statement p)
        p.step.data rest hKnown hPrepared.yields
        hPrepared.data_ne_nil
  rw [address_add_length] at hYields
  cases hSymbol : labelSymbol? a.labels adjust p with
  | none =>
    have hHere := hYields symbols hDefines
    simpa [stepStatements, stepSizes, hSymbol, Step.length]
      using hHere
  | some symbol =>
    have hAddress :=
      labelSymbol?_value a.labels adjust p symbol hSymbol
    have hLabel :=
      layout?_label symbols (p.address adjust) symbol.1
        (statement p :: rest) (hNew symbol hSymbol)
    rw [hYields _ (hDefines.append _), ← hAddress] at hLabel
    rw [← hAddress]
    simpa [stepStatements, stepSizes, hSymbol, Step.length,
      Function.comp_def] using hLabel

/-
  The first pass over the lines of steps that leave no gaps:
  every label gets the address of its step. The induction is
  on the steps; the symbols grow by the label of each.
-/
theorem layout?_stepStatements
    (steps : List Placed)
    (cursor final : Int)
    (symbols : Symbols)
    (hContiguous : Walk.Contiguous cursor steps final)
    (hPrepared : ∀ p ∈ steps,
      Prepared a adjust (statement p) p)
    (hDefines : Defines a symbols)
    (hNodup :
      ((symbols ++ labelSymbols a.labels adjust steps).map
        Prod.fst).Nodup) :
    layout? symbols (cursor + adjust)
        (steps.flatMap (stepStatements a adjust statement)) =
      some
        (symbols ++ labelSymbols a.labels adjust steps,
          steps.flatMap (stepSizes a adjust)) := by
  induction steps generalizing cursor symbols with
  | nil => simp [layout?, labelSymbols]
  | cons p steps ih =>
    rcases hContiguous with ⟨rfl, hContiguous⟩
    rw [labelSymbols_cons, ← List.append_assoc] at hNodup ⊢
    have hNew :
        ∀ symbol ∈ labelSymbol? a.labels adjust p,
          symbols.lookup symbol.1 = none := by
      intro symbol hSymbol
      rw [List.map_append, List.nodup_append,
        List.map_append, List.nodup_append] at hNodup
      rw [List.lookup_eq_none_iff]
      intro entry hEntry
      have hDiffer :=
        hNodup.1.2.2 entry.1 (List.mem_map_of_mem hEntry)
          symbol.1 (by simp [Option.mem_def.mp hSymbol])
      simpa using hDiffer.symm
    have hRest :=
      ih p.stop _ hContiguous
        (fun q hq => hPrepared q (by simp [hq]))
        (hDefines.append
          (labelSymbol? a.labels adjust p).toList)
        hNodup
    have hAddress :
        p.position + adjust = p.address adjust := rfl
    rw [List.flatMap_cons, List.flatMap_cons, hAddress,
      layout?_step a adjust statement p symbols _
        (hPrepared p (by simp)) hDefines hNew,
      hRest]
    rfl

end Assembler

end Beeb

------------------------------------------------------------
-- Second Pass
------------------------------------------------------------

namespace Beeb

namespace Assembler

/- A statement whose size was foreseen. -/
theorem encodeAll?_cons
    (symbols : Symbols)
    (address : Int)
    (statement : Statement)
    (data : List UInt8)
    (rest : List (Statement × Int))
    (hBytes : encode? symbols address statement = some data) :
    encodeAll? symbols address
        ((statement, (data.length : Int)) :: rest) =
      (encodeAll? symbols (address + data.length) rest).map
        (data ++ ·) := by
  simp only [encodeAll?, hBytes, Option.bind_eq_bind,
    Option.bind_some, if_true]
  cases encodeAll? symbols (address + data.length) rest with
  | none => rfl
  | some result => rfl

variable (a : Analysis)
variable (adjust : Int)
variable (statement : Placed → Statement)
variable (symbols : Symbols)
variable (hDefines : Defines a symbols)
variable (hPlaces : Places a.labels symbols)

include hDefines hPlaces

/- The second pass over the lines of one step. -/
theorem encodeAll?_step
    (p : Placed)
    (rest : List Statement)
    (sizes : List Int)
    (hPrepared : Prepared a adjust (statement p) p) :
    encodeAll? symbols (p.address adjust)
        ((stepStatements a adjust statement p ++ rest).zip
          (stepSizes a adjust p ++ sizes)) =
      (encodeAll? symbols (p.stop + adjust)
        (rest.zip sizes)).map (p.step.data ++ ·) := by
  have hHere :=
    encodeAll?_cons symbols (p.address adjust) (statement p)
      p.step.data (rest.zip sizes)
      (hPrepared.yields.bytes symbols hDefines hPlaces)
  rw [address_add_length] at hHere
  cases hSymbol : labelSymbol? a.labels adjust p with
  | none =>
    simpa [stepStatements, stepSizes, hSymbol, Step.length]
      using hHere
  | some symbol =>
    have hLabel :=
      encodeAll?_cons symbols (p.address adjust)
        (.label symbol.1) []
        ((statement p, p.step.length) :: rest.zip sizes) rfl
    simp only [List.length_nil, Int.natCast_zero,
      Int.add_zero, List.nil_append, Option.map_id_fun', id,
      Step.length, hHere] at hLabel
    simpa [stepStatements, stepSizes, hSymbol, Step.length]
      using hLabel

/-
  The second pass over the lines of steps that leave no gaps
  gives the bytes of the steps.
-/
theorem encodeAll?_stepStatements
    (steps : List Placed)
    (cursor final : Int)
    (hContiguous : Walk.Contiguous cursor steps final)
    (hPrepared : ∀ p ∈ steps,
      Prepared a adjust (statement p) p) :
    encodeAll? symbols (cursor + adjust)
        ((steps.flatMap
          (stepStatements a adjust statement)).zip
            (steps.flatMap (stepSizes a adjust))) =
      some (steps.flatMap (·.step.data)) := by
  induction steps generalizing cursor with
  | nil => rfl
  | cons p steps ih =>
    rcases hContiguous with ⟨rfl, hContiguous⟩
    have hRest :=
      ih p.stop hContiguous
        fun q hq => hPrepared q (by simp [hq])
    have hAddress :
        p.position + adjust = p.address adjust := rfl
    rw [List.flatMap_cons, List.flatMap_cons, hAddress,
      encodeAll?_step a adjust statement symbols hDefines
        hPlaces p _ _ (hPrepared p (by simp)),
      hRest]
    rfl

end Assembler

end Beeb
