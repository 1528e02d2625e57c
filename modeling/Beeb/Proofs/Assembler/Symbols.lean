import Beeb.Proofs.Assembler.Encoding
import Beeb.Proofs.Listing.Header

/-
  The symbols of a listing: its header defines the system
  symbols in use, its label lines define the labels, and no
  name is defined twice.

  Main declarations:
    * `Assembler.headerSymbols`
    * `Assembler.filterMap_headerText`
    * `Assembler.labelSymbol?`
    * `Assembler.nodup_symbols`
    * `Assembler.defines_headerSymbols`
    * `Assembler.places_labelSymbols`
-/

------------------------------------------------------------
-- Lookup
------------------------------------------------------------

namespace Beeb

namespace Assembler

/- A symbol that is defined once has its value. -/
theorem lookup_of_mem
    (symbols : Symbols)
    (name : String)
    (value : Int)
    (hNodup : (symbols.map Prod.fst).Nodup)
    (hMem : (name, value) ∈ symbols) :
    symbols.lookup name = some value := by
  rcases List.append_of_mem hMem with
    ⟨before, after, hSplit⟩
  rw [hSplit, List.map_append, List.map_cons,
    List.nodup_append] at hNodup
  rw [hSplit, List.lookup_eq_some_iff]
  refine ⟨before, after, rfl, ?_⟩
  intro entry hEntry
  have hDiffer :=
    hNodup.2.2 entry.1 (List.mem_map_of_mem hEntry) name
      (by simp)
  simpa using hDiffer.symm

/- More symbols do not change those that are known. -/
theorem Defines.append
    {a : Analysis}
    {symbols : Symbols}
    (hDefines : Defines a symbols)
    (more : Symbols) :
    Defines a (symbols ++ more) := by
  constructor
  · intro address hMem name hName
    rw [List.lookup_append,
      hDefines.calls address hMem name hName]
    rfl
  · intro address hMem name hName
    rw [List.lookup_append,
      hDefines.vectors address hMem name hName]
    rfl

end Assembler

end Beeb

------------------------------------------------------------
-- Symbols Of The Header
------------------------------------------------------------

namespace Beeb

namespace Assembler

open Listing

/- The symbols of addresses that have names. -/
def systemSymbols
    (names : Mos.Names)
    (addresses : AddressSet) : Symbols :=
  addresses.toList.map fun address =>
    ((Symbol.ofAddress names address).name, address)

/- The symbols that the header of an analysis defines. -/
def headerSymbols
    (a : Analysis) : Symbols :=
  systemSymbols Mos.calls a.calls ++
    systemSymbols Mos.vectors a.vectors

/- The definition of a symbol at its equals sign. -/
theorem cut_definition
    (width : Nat)
    (s : Symbol)
    (hName : Variable.isName s.name = true) :
    (s.definition width).toList.takeWhile (· ≠ '=') =
        s.name.toList.rightpad width ' ' ++ [' '] ∧
      (s.definition width).toList.dropWhile (· ≠ '=') =
        '=' :: ' ' :: (Operand.number 0 s.address).toList := by
  have hText :
      (s.definition width).toList =
        (s.name.toList.rightpad width ' ' ++ [' ']) ++
          '=' :: ' ' ::
            (Operand.number 0 s.address).toList := by
    simp [Symbol.definition]
  have hNone :
      '=' ∉ s.name.toList.rightpad width ' ' ++ [' '] := by
    rw [List.rightpad, List.append_assoc, List.mem_append]
    rintro (hInName | hInBlanks)
    · exact
        Variable.notMem_of_isName s.name hName '=' rfl hInName
    · simp at hInBlanks
  rw [hText]
  exact Text.cut_of_notMem '=' _ _ hNone

/- The definition of a system symbol is read back. -/
theorem readDefinition?_symbol
    (width : Nat)
    (entry : Int × String)
    (hEntry : entry ∈ Mos.calls ++ Mos.vectors) :
    readDefinition?
        (Symbol.definition width ⟨entry.2, entry.1⟩) =
      some (entry.2, entry.1) := by
  rcases isName_of_mem_system entry hEntry with
    ⟨hName, -, hPositive⟩
  rcases cut_definition width ⟨entry.2, entry.1⟩ hName with
    ⟨hBefore, hAfter⟩
  have hTrim :
      Text.dropEnd (· = ' ')
          (entry.2.toList.rightpad width ' ' ++ [' ']) =
        entry.2.toList := by
    rw [List.rightpad, List.append_assoc,
      Text.dropEnd_append _ _ _ (by simp)]
    apply Text.dropEnd_of_getLast?
    intro c hLast
    simp only [decide_eq_false_iff_not]
    rintro rfl
    exact
      Variable.notMem_of_isName entry.2 hName ' ' rfl
        (List.mem_of_getLast? hLast)
  have hValue := (spells_number 0 entry.1 hPositive).reads
  rw [readDefinition?]
  simp only [hBefore, hAfter, hTrim, String.ofList_toList,
    hName, hValue, Int.toNat_of_nonneg hPositive]
  rfl

/- An address that has a name is listed with it. -/
theorem ofAddress_mem
    (names : Mos.Names)
    (address : Int)
    (hNamed : (names.find? address).isSome = true) :
    (address, (Symbol.ofAddress names address).name) ∈
      names := by
  rcases Option.isSome_iff_exists.mp hNamed with
    ⟨name, hName⟩
  have hMem := names.mem_of_find? address name hName
  simpa [Symbol.ofAddress, hName] using hMem

/- The symbol of every address that has a name is listed. -/
theorem mem_systemSymbols
    (names : Mos.Names)
    (addresses : AddressSet)
    (address : Int)
    (name : String)
    (hMem : address ∈ addresses)
    (hName : names.find? address = some name) :
    (name, address) ∈ systemSymbols names addresses := by
  apply List.mem_map.mpr
  refine ⟨address, Std.TreeSet.mem_toList.mpr hMem, ?_⟩
  simp [Symbol.ofAddress, hName]

/-
  The definitions of addresses that have names, to a reader
  that finds something in those of all names.
-/
theorem filterMap_definitions
    {α : Type}
    (read : String → Option α)
    (found : String × Int → Option α)
    (names : Mos.Names)
    (addresses : AddressSet)
    (width : Nat)
    (hRead : ∀ entry ∈ names,
      read (Symbol.definition width ⟨entry.2, entry.1⟩) =
        found (entry.2, entry.1))
    (hNamed : ∀ address ∈ addresses,
      (names.find? address).isSome = true) :
    ((addresses.toList.map (.ofAddress names)).map
        (Symbol.definition width)).filterMap read =
      (systemSymbols names addresses).filterMap found := by
  rw [List.map_map, List.filterMap_map, systemSymbols,
    List.filterMap_map]
  apply List.filterMap_congr
  intro address hMem
  have hEntry :=
    ofAddress_mem names address
      (hNamed address (Std.TreeSet.mem_toList.mp hMem))
  have hText := hRead _ hEntry
  simp only [Function.comp_apply]
  exact hText

/-
  The header of a listing, to a reader that finds something
  in the definitions of the system symbols.
-/
theorem filterMap_headerText_of_reads
    {α : Type}
    (read : String → Option α)
    (found : String × Int → Option α)
    (hRubrics : ∀ text ∈ rubrics, read text = none)
    (hRead : ∀ width, ∀ entry ∈ Mos.calls ++ Mos.vectors,
      read (Symbol.definition width ⟨entry.2, entry.1⟩) =
        found (entry.2, entry.1))
    (a : Analysis)
    (vars : List Variable)
    (origin : Int)
    (hNamed : a.Named) :
    (headerText a vars origin).filterMap read =
      (headerSymbols a).filterMap found ++
        (vars.map Variable.definition).filterMap read ++
        (originLines origin).filterMap read := by
  have hCalls : ∀ entry ∈ Mos.calls, _ :=
    fun entry hEntry =>
      hRead 6 entry (List.mem_append_left _ hEntry)
  have hVectors : ∀ entry ∈ Mos.vectors, _ :=
    fun entry hEntry =>
      hRead 5 entry (List.mem_append_right _ hEntry)
  rw [Listing.filterMap_headerText read hRubrics,
    filterMap_definitions read found Mos.calls a.calls 6
      hCalls hNamed.calls,
    filterMap_definitions read found Mos.vectors a.vectors 5
      hVectors hNamed.vectors,
    headerSymbols, List.filterMap_append]

/- The lines that set an origin define no symbol. -/
theorem filterMap_originLines
    (origin : Int) :
    (originLines origin).filterMap readDefinition? = [] := by
  have hOrigin :
      readDefinition?
          ("CODE% = " ++ Operand.number 0 origin) = none := by
    have hText :
        ("CODE% = " ++ Operand.number 0 origin).toList =
          ['C', 'O', 'D', 'E', '%', ' '] ++
            '=' :: ' ' ::
              (Operand.number 0 origin).toList := by
      rw [String.toList_append]
      rfl
    have hNoName :
        Variable.isName (String.ofList
          (Text.dropEnd (· = ' ')
            ['C', 'O', 'D', 'E', '%', ' '])) = false :=
      rfl
    rw [readDefinition?, hText]
    simp [hNoName]
  have hOthers :
      readDefinition? "" = none ∧
        readDefinition? "ORG CODE%" = none :=
    ⟨rfl, rfl⟩
  unfold originLines
  split
  · rfl
  · simp [hOrigin, hOthers]

/- The title and the headings define no symbol. -/
theorem readDefinition?_rubrics :
    ∀ text ∈ rubrics, readDefinition? text = none := by
  decide +kernel

/-
  The header of a listing with no variables defines the
  system symbols in use.
-/
theorem filterMap_headerText
    (adjust : Int)
    (steps : List Placed)
    (origin : Int) :
    let a := Analysis.ofSteps adjust steps
    (headerText a [] origin).filterMap readDefinition? =
      headerSymbols a := by
  intro a
  rw [filterMap_headerText_of_reads readDefinition? some
      readDefinition?_rubrics readDefinition?_symbol a [] origin
      (Analysis.named_ofSteps adjust steps),
    filterMap_originLines]
  simp

end Assembler

end Beeb

------------------------------------------------------------
-- Symbols Of Label Lines
------------------------------------------------------------

namespace Beeb

namespace Assembler

open Listing

/- The symbol that the label line of a step defines. -/
def labelSymbol?
    (labels : Labels)
    (adjust : Int)
    (p : Placed) : Option (String × Int) :=
  match labels[p.address adjust]?.map Label.name with
  | some (.ok name) => some (name, p.address adjust)
  | _ => none

/- A label line defines the address of its step. -/
theorem labelSymbol?_value
    (labels : Labels)
    (adjust : Int)
    (p : Placed)
    (symbol : String × Int)
    (hSymbol : labelSymbol? labels adjust p = some symbol) :
    symbol.2 = p.address adjust := by
  unfold labelSymbol? at hSymbol
  split at hSymbol
  · cases hSymbol
    rfl
  · cases hSymbol

/- The name is that of the label at this address. -/
theorem labelSymbol?_label
    (labels : Labels)
    (adjust : Int)
    (p : Placed)
    (symbol : String × Int)
    (hSymbol : labelSymbol? labels adjust p = some symbol) :
    ∃ label,
      labels[p.address adjust]? = some label ∧
        label.name = .ok symbol.1 := by
  unfold labelSymbol? at hSymbol
  split at hSymbol
  · rename_i name hName
    cases hSymbol
    exact Option.map_eq_some_iff.mp hName
  · cases hSymbol

/- The symbols that the label lines of steps define. -/
def labelSymbols
    (labels : Labels)
    (adjust : Int)
    (steps : List Placed) : Symbols :=
  steps.filterMap (labelSymbol? labels adjust)

/- The symbols of the label lines, one step at a time. -/
theorem labelSymbols_cons
    (labels : Labels)
    (adjust : Int)
    (p : Placed)
    (steps : List Placed) :
    labelSymbols labels adjust (p :: steps) =
      (labelSymbol? labels adjust p).toList ++
        labelSymbols labels adjust steps := by
  unfold labelSymbols
  cases hSymbol : labelSymbol? labels adjust p with
  | none => exact List.filterMap_cons_none hSymbol
  | some symbol => exact List.filterMap_cons_some hSymbol

/- The name of the label of a number. -/
def labelName
    (index : Nat) : String :=
  "label_" ++ Numeral.decimal index

/- Labels of different numbers have different names. -/
theorem labelName_injective
    (i j : Nat)
    (hSame : labelName i = labelName j) :
    i = j := by
  have hDigits :
      Nat.toDigits 10 i = Nat.toDigits 10 j := by
    have hText := congrArg String.toList hSame
    simpa [labelName, Numeral.toList_decimal] using hText
  have hRead := (readDigits?_toDigits i).1
  rw [hDigits, (readDigits?_toDigits j).1] at hRead
  exact (Option.some.inj hRead).symm

/- Names of labels have their first letter in common. -/
theorem ne_labelName
    (text : String)
    (index : Nat)
    (hFirst : text.toList.head? ≠ some 'l') :
    text ≠ labelName index := by
  rintro rfl
  apply hFirst
  rw [labelName, toList_label]
  rfl

/- No label has the name of a system symbol. -/
theorem labelName_notMem
    (index : Nat)
    (entry : Int × String)
    (hEntry : entry ∈ Mos.calls ++ Mos.vectors) :
    entry.2 ≠ labelName index := by
  have hAll :
      ∀ entry ∈ Mos.calls ++ Mos.vectors,
        entry.2.toList.head? ≠ some 'l' := by
    decide +kernel
  exact ne_labelName entry.2 index (hAll entry hEntry)

variable (adjust : Int)
variable (steps : List Placed)

/- A step defines the label of the survivor it begins at. -/
theorem labelSymbol?_eq_some_iff
    (p : Placed)
    (name : String)
    (value : Int) :
    let labels := (Analysis.ofSteps adjust steps).labels
    labelSymbol? labels adjust p = some (name, value) ↔
      value = p.address adjust ∧
        ∃ index : Nat,
          (Analysis.survivors adjust steps)[index]? =
              some value ∧
            name = labelName index := by
  intro labels
  constructor
  · intro hSymbol
    unfold labelSymbol? at hSymbol
    cases hLabel : labels[p.address adjust]? with
    | none => simp [hLabel] at hSymbol
    | some label =>
      rcases (Analysis.getElem?_labels adjust steps _ _).mp
          hLabel with
        ⟨index, hIndex, rfl⟩
      rw [hLabel] at hSymbol
      cases hSymbol
      exact ⟨rfl, index, hIndex, rfl⟩
  · rintro ⟨rfl, index, hIndex, rfl⟩
    have hLabel :=
      (Analysis.getElem?_labels adjust steps _ _).mpr
        ⟨index, hIndex, rfl⟩
    unfold labelSymbol?
    rw [hLabel]
    rfl

/- The label of every survivor is defined at its address. -/
theorem mem_labelSymbols
    (index : Nat)
    (address : Int)
    (hIndex :
      (Analysis.survivors adjust steps)[index]? =
        some address) :
    let labels := (Analysis.ofSteps adjust steps).labels
    (labelName index, address) ∈
      labelSymbols labels adjust steps := by
  intro labels
  have hMem := List.mem_of_getElem? hIndex
  rcases ((Analysis.mem_survivors_iff adjust steps
      address).mp hMem).2 with
    ⟨p, hp, rfl⟩
  apply List.mem_filterMap.mpr
  refine ⟨p, hp, ?_⟩
  exact
    (labelSymbol?_eq_some_iff adjust steps p _ _).mpr
      ⟨rfl, index, hIndex, rfl⟩

/- Different steps define different names. -/
theorem nodup_labelSymbols
    (hAscending :
      (steps.map Placed.position).Pairwise (· < ·)) :
    let labels := (Analysis.ofSteps adjust steps).labels
    ((labelSymbols labels adjust steps).map
      Prod.fst).Nodup := by
  intro labels
  rw [List.Nodup, List.pairwise_map, labelSymbols,
    List.pairwise_filterMap]
  rw [List.pairwise_map] at hAscending
  refine hAscending.imp ?_
  rintro p q hBefore ⟨name, value⟩ hFirst ⟨other, next⟩
    hSecond hSame
  rcases (labelSymbol?_eq_some_iff adjust steps p _ _).mp
      hFirst with
    ⟨rfl, i, hIndex, rfl⟩
  rcases (labelSymbol?_eq_some_iff adjust steps q _ _).mp
      hSecond with
    ⟨rfl, j, hNext, rfl⟩
  have hIndices : i = j := labelName_injective i j hSame
  rw [hIndices, hNext] at hIndex
  have hAddress := Option.some.inj hIndex
  unfold Placed.address at hAddress
  omega

/- The names of system symbols are in their list. -/
theorem mem_of_mem_systemSymbols
    (names : Mos.Names)
    (addresses : AddressSet)
    (hNamed : ∀ address ∈ addresses,
      (names.find? address).isSome = true)
    (name : String)
    (hMem :
      name ∈ (systemSymbols names addresses).map
        Prod.fst) :
    ∃ address, (address, name) ∈ names := by
  rcases List.mem_map.mp hMem with ⟨symbol, hSymbol, rfl⟩
  rcases List.mem_map.mp hSymbol with
    ⟨address, hAddress, rfl⟩
  refine ⟨address, ofAddress_mem names address ?_⟩
  exact hNamed address (Std.TreeSet.mem_toList.mp hAddress)

/- Different addresses have different names. -/
theorem nodup_systemSymbols
    (names : Mos.Names)
    (addresses : AddressSet)
    (hNames : (names.map Prod.snd).Nodup)
    (hNamed : ∀ address ∈ addresses,
      (names.find? address).isSome = true) :
    ((systemSymbols names addresses).map
      Prod.fst).Nodup := by
  have hAddresses : addresses.toList.Nodup := by
    refine Std.TreeSet.ordered_toList.imp ?_
    intro x y hLess
    exact Int.ne_of_lt (Int.compare_eq_lt.mp hLess)
  rw [systemSymbols, List.map_map]
  apply List.Nodup.map_on _ hAddresses
  intro x hx y hy hSame
  have hFirst :=
    ofAddress_mem names x
      (hNamed x (Std.TreeSet.mem_toList.mp hx))
  have hSecond :=
    ofAddress_mem names y
      (hNamed y (Std.TreeSet.mem_toList.mp hy))
  have hEntries :=
    List.inj_on_of_nodup_map hNames hFirst hSecond hSame
  exact congrArg Prod.fst hEntries

/- No name is defined twice in a listing. -/
theorem nodup_symbols
    (hAscending :
      (steps.map Placed.position).Pairwise (· < ·)) :
    let a := Analysis.ofSteps adjust steps
    ((headerSymbols a ++
        labelSymbols a.labels adjust steps).map
      Prod.fst).Nodup := by
  intro a
  have hNames :
      ((Mos.calls ++ Mos.vectors).map Prod.snd).Nodup := by
    decide +kernel
  rw [List.map_append, List.nodup_append] at hNames
  rcases hNames with ⟨hCalls, hVectors, hApart⟩
  have hCallNamed :=
    isSome_callName?_of_mem_calls adjust steps
  have hVectorNamed :=
    isSome_vectorName?_of_mem_vectors adjust steps
  rw [List.map_append, headerSymbols, List.map_append,
    List.nodup_append, List.nodup_append]
  refine ⟨⟨?_, ?_, ?_⟩, ?_, ?_⟩
  · exact nodup_systemSymbols _ _ hCalls hCallNamed
  · exact nodup_systemSymbols _ _ hVectors hVectorNamed
  · intro name hCall other hVector
    rcases mem_of_mem_systemSymbols _ _ hCallNamed name hCall
      with ⟨x, hx⟩
    rcases mem_of_mem_systemSymbols _ _ hVectorNamed other
        hVector with
      ⟨y, hy⟩
    exact
      hApart name (List.mem_map_of_mem hx) other
        (List.mem_map_of_mem hy)
  · exact nodup_labelSymbols adjust steps hAscending
  · intro name hSystem other hLabel hSame
    have hEntry :
        ∃ address,
          (address, name) ∈ Mos.calls ++ Mos.vectors := by
      rcases List.mem_append.mp hSystem with hCall | hVector
      · rcases mem_of_mem_systemSymbols _ _ hCallNamed name
            hCall with
          ⟨address, hMem⟩
        exact ⟨address, List.mem_append_left _ hMem⟩
      · rcases mem_of_mem_systemSymbols _ _ hVectorNamed name
            hVector with
          ⟨address, hMem⟩
        exact ⟨address, List.mem_append_right _ hMem⟩
    rcases List.mem_map.mp hLabel with ⟨symbol, hMem, rfl⟩
    rcases List.mem_filterMap.mp hMem with ⟨p, -, hSymbol⟩
    rcases (labelSymbol?_eq_some_iff adjust steps p _ _).mp
        hSymbol with
      ⟨-, index, -, hName⟩
    rcases hEntry with ⟨address, hEntry⟩
    apply labelName_notMem index _ hEntry
    rw [← hName]
    exact hSame

end Assembler

end Beeb

------------------------------------------------------------
-- What The Symbols Of A Listing Say
------------------------------------------------------------

namespace Beeb

namespace Assembler

variable (adjust : Int)
variable (steps : List Placed)
variable
  (hAscending :
    (steps.map Placed.position).Pairwise (· < ·))

include hAscending

/- The header gives system names their addresses. -/
theorem defines_headerSymbols :
    let a := Analysis.ofSteps adjust steps
    Defines a (headerSymbols a) := by
  intro a
  have hNodup :
      ((headerSymbols a).map Prod.fst).Nodup := by
    have hAll := nodup_symbols adjust steps hAscending
    simp only [List.map_append, List.nodup_append] at hAll
    simpa [headerSymbols, List.nodup_append] using hAll.1
  constructor
  · intro address hMem name hName
    apply lookup_of_mem _ name address hNodup
    apply List.mem_append_left
    exact mem_systemSymbols _ _ address name hMem hName
  · intro address hMem name hName
    apply lookup_of_mem _ name address hNodup
    apply List.mem_append_right
    exact mem_systemSymbols _ _ address name hMem hName

/- The label lines give every label its address. -/
theorem places_labelSymbols :
    let a := Analysis.ofSteps adjust steps
    Places a.labels
      (headerSymbols a ++
        labelSymbols a.labels adjust steps) := by
  intro a address label name hLabel hName
  have hNodup := nodup_symbols adjust steps hAscending
  apply lookup_of_mem _ name address hNodup
  apply List.mem_append_right
  rcases (Analysis.getElem?_labels adjust steps _ _).mp
      hLabel with
    ⟨index, hIndex, rfl⟩
  rw [← Except.ok.inj hName]
  exact mem_labelSymbols adjust steps index address hIndex

end Assembler

end Beeb
