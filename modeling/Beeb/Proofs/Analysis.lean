import Beeb.Analysis
import Mathlib.Data.List.Sort

/-
  What an analysis knows, in terms of the steps it was made
  from: where they begin, and what they refer to.

  Main declarations:
    * `Placed.exists_of_call?`
    * `Placed.exists_of_vector?`
    * `Labels.Numbered`
    * `Labels.getElem?_number`
    * `Labels.countP_contains`
    * `Analysis.survivors`
    * `Analysis.mem_survivors_iff`
    * `Analysis.labelled_or_rejected_iff`
    * `Analysis.keys_labels`
    * `Analysis.filter_labels_eq_survivors`
    * `Analysis.countP_labels_eq_size`
-/

------------------------------------------------------------
-- What One Step Refers To
------------------------------------------------------------

namespace Beeb

namespace Placed

variable (p : Placed)

/- The operand word of a step, as it is read. -/
theorem word?_eq_some_iff
    (word : Int) :
    p.word? = some word ↔
      Instruction.operandWord p.step.data = .ok word := by
  unfold word?
  cases Instruction.operandWord p.step.data <;>
    simp [Except.toOption]

/- A step that makes a system call is a complete jump. -/
theorem exists_of_call?
    (address : Int)
    (hCall : p.call? = some address) :
    ∃ i,
      p.step.complete? = some i ∧
        i.flow = .jump ∧
        i.mode ≠ some .indirect ∧
        Instruction.operandWord p.step.data = .ok address ∧
        (Mos.callName? address).isSome = true := by
  rcases Option.bind_eq_some_iff.mp hCall with
    ⟨i, hComplete, hWord⟩
  split at hWord
  · rename_i hJump
    rcases Option.filter_eq_some_iff.mp hWord with
      ⟨hWord, hNamed⟩
    exact
      ⟨i, hComplete, hJump.1, hJump.2,
        (p.word?_eq_some_iff address).mp hWord, hNamed⟩
  · cases hWord

/-
  A step that refers to a vector is complete and does not
  jump; its absolute operand is in the vector.
-/
theorem exists_of_vector?
    (base : Int)
    (hVector : p.vector? = some base) :
    ∃ i word,
      p.step.complete? = some i ∧
        i.flow = .neither ∧
        i.mode = some .absolute ∧
        Instruction.operandWord p.step.data = .ok word ∧
        Mos.vectorBase? word = some base := by
  rcases Option.bind_eq_some_iff.mp hVector with
    ⟨i, hComplete, hWord⟩
  split at hWord
  · rename_i hAbsolute
    rcases Option.bind_eq_some_iff.mp hWord with
      ⟨word, hWord, hBase⟩
    exact
      ⟨i, word, hComplete, hAbsolute.1, hAbsolute.2,
        (p.word?_eq_some_iff word).mp hWord, hBase⟩
  · cases hWord

end Placed

end Beeb

------------------------------------------------------------
-- Numbered Addresses
------------------------------------------------------------

namespace Beeb

namespace Labels

/- Every label has a number that is not negative. -/
def Numbered
    (labels : Labels) : Prop :=
  ∀ (address : Int) (label : Label),
    labels[address]? = some label →
      ∃ index : Nat, label = .numbered index

/- Numbering keeps the addresses. -/
theorem map_fst_numbered
    (addresses : List Int) :
    (addresses.zipIdx.map fun (address, index) =>
        (address, Label.numbered index)).map Prod.fst =
      addresses := by
  rw [List.map_map]
  exact List.zipIdx_map_fst 0 addresses

/- Ascending addresses are numbered under different keys. -/
theorem pairwise_numbered
    (addresses : List Int)
    (hAscending : addresses.Pairwise (· < ·)) :
    (addresses.zipIdx.map fun (address, index) =>
        (address, Label.numbered index)).Pairwise
      fun a b => ¬ compare a.1 b.1 = .eq := by
  rw [← map_fst_numbered addresses, List.pairwise_map]
    at hAscending
  refine hAscending.imp ?_
  intro a b hLess hEq
  rw [Std.compare_eq_iff_eq] at hEq
  omega

/- Every address has its place in the list for a number. -/
theorem getElem?_number
    (addresses : List Int)
    (hAscending : addresses.Pairwise (· < ·))
    (address : Int)
    (label : Label) :
    (number addresses)[address]? = some label ↔
      ∃ index : Nat,
        addresses[index]? = some address ∧
          label = .numbered index := by
  have hKnown :
      ∀ index : Nat,
        addresses[index]? = some address →
          (number addresses)[address]? =
            some (.numbered index) := by
    intro index hIndex
    apply Std.TreeMap.getElem?_ofList_of_mem
      Std.ReflCmp.compare_self
      (pairwise_numbered addresses hAscending)
    rw [List.mem_map]
    refine ⟨(address, index), ?_, rfl⟩
    rw [List.mem_zipIdx_iff_getElem?]
    exact hIndex
  constructor
  · intro hLabel
    by_cases hMem : address ∈ addresses
    · rcases List.mem_iff_getElem?.mp hMem with
        ⟨index, hIndex⟩
      refine ⟨index, hIndex, ?_⟩
      rw [hKnown index hIndex] at hLabel
      exact (Option.some.inj hLabel).symm
    · have hNone : (number addresses)[address]? = none := by
        apply Std.TreeMap.getElem?_ofList_of_contains_eq_false
        rw [map_fst_numbered]
        simpa using hMem
      rw [hNone] at hLabel
      simp at hLabel
  · rintro ⟨index, hIndex, rfl⟩
    exact hKnown index hIndex

/- The labelled addresses. -/
theorem contains_number
    (addresses : List Int)
    (address : Int) :
    (number addresses).contains address =
      addresses.contains address := by
  rw [number, Std.TreeMap.contains_ofList, map_fst_numbered]

end Labels

end Beeb

------------------------------------------------------------
-- Ascending Addresses
------------------------------------------------------------

namespace Beeb

end Beeb

------------------------------------------------------------
-- Labels Of Ascending Addresses
------------------------------------------------------------

namespace Beeb

namespace Labels

/- The labelled addresses ascend. -/
theorem keys_ascending
    (labels : Labels) :
    labels.keys.Pairwise (· < ·) :=
  Std.TreeMap.ordered_keys.imp fun hLess =>
    Int.compare_eq_lt.mp hLess

/-
  Addresses that ascend meet no label twice. So no more of
  them are labelled than there are labels, and as many only
  if every label is met.
-/
theorem countP_contains
    (labels : Labels)
    (addresses : List Int)
    (hAscending : addresses.Pairwise (· < ·)) :
    addresses.countP labels.contains ≤ labels.size ∧
      (addresses.countP labels.contains = labels.size ↔
        ∀ address ∈ labels, address ∈ addresses) := by
  have hMet :
      addresses.filter labels.contains ⊆ labels.keys := by
    intro address hMem
    rw [Std.TreeMap.mem_keys]
    exact
      Std.TreeMap.contains_iff_mem.mp
        (List.mem_filter.mp hMem).2
  have hOnce :
      (addresses.filter labels.contains).Nodup :=
    (hAscending.filter _).imp Int.ne_of_lt
  have hSome := List.subperm_of_subset hOnce hMet
  rw [List.countP_eq_length_filter,
    ← Std.TreeMap.length_keys]
  refine ⟨hSome.length_le, ?_, ?_⟩
  · intro hSame address hLabelled
    have hAll := hSome.perm_of_length_le hSame.ge
    have hMem :=
      hAll.mem_iff.mpr (Std.TreeMap.mem_keys.mpr hLabelled)
    exact (List.mem_filter.mp hMem).1
  · intro hAll
    have hSubset :
        labels.keys ⊆ addresses.filter labels.contains := by
      intro address hMem
      have hLabelled := Std.TreeMap.mem_keys.mp hMem
      exact
        List.mem_filter.mpr
          ⟨hAll address hLabelled,
            Std.TreeMap.contains_iff_mem.mpr hLabelled⟩
    have hKeys : labels.keys.Nodup :=
      labels.keys_ascending.imp Int.ne_of_lt
    exact
      Nat.le_antisymm hSome.length_le
        (List.subperm_of_subset hKeys hSubset).length_le

end Labels

end Beeb

------------------------------------------------------------
-- Members Of An Analysis
------------------------------------------------------------

namespace Beeb

namespace Analysis

variable (adjust : Int)
variable (steps : List Placed)

/- The reachable addresses are those of the steps. -/
theorem mem_reachable_iff
    (address : Int) :
    address ∈ (ofSteps adjust steps).reachable ↔
      ∃ p ∈ steps, p.address adjust = address := by
  simp [ofSteps, Std.TreeSet.mem_ofList]

/- The calls in use are those that some step makes. -/
theorem mem_calls_iff
    (address : Int) :
    address ∈ (ofSteps adjust steps).calls ↔
      ∃ p ∈ steps, p.call? = some address := by
  simp [ofSteps, Std.TreeSet.mem_ofList]

/- The vectors in use are those that some step names. -/
theorem mem_vectors_iff
    (address : Int) :
    address ∈ (ofSteps adjust steps).vectors ↔
      ∃ p ∈ steps, p.vector? = some address := by
  simp [ofSteps, Std.TreeSet.mem_ofList]

/-
  The targets at which a step begins, in ascending order.
-/
def survivors : List Int :=
  (Std.TreeSet.ofList
      (steps.filterMap (·.target? adjust))).toList.filter
    (ofSteps adjust steps).reachable.contains

/- The survivors ascend. -/
theorem survivors_ascending :
    (survivors adjust steps).Pairwise (· < ·) := by
  apply List.Pairwise.filter
  exact Std.TreeSet.ordered_toList.imp fun hLess =>
    Int.compare_eq_lt.mp hLess

/-
  A target survives if some step begins at it, before or
  after the step that goes there.
-/
theorem mem_survivors_iff
    (address : Int) :
    address ∈ survivors adjust steps ↔
      (∃ p ∈ steps, p.target? adjust = some address) ∧
        ∃ p ∈ steps, p.address adjust = address := by
  rw [survivors, List.mem_filter, Std.TreeSet.mem_toList,
    Std.TreeSet.mem_ofList, ← mem_reachable_iff]
  simp [Std.TreeSet.contains_iff_mem]

/-
  The label of an address tells how many survivors lie
  before it.
-/
theorem getElem?_labels
    (address : Int)
    (label : Label) :
    (ofSteps adjust steps).labels[address]? = some label ↔
      ∃ index : Nat,
        (survivors adjust steps)[index]? = some address ∧
          label = .numbered index :=
  Labels.getElem?_number _ (survivors_ascending adjust steps)
    address label

/- The labels of an analysis are numbered. -/
theorem labels_numbered :
    (ofSteps adjust steps).labels.Numbered := by
  intro address label hLabel
  rcases (getElem?_labels adjust steps address label).mp
      hLabel with
    ⟨index, -, rfl⟩
  exact ⟨index, rfl⟩

/- An address is labelled if it survives. -/
theorem contains_labels
    (address : Int) :
    (ofSteps adjust steps).labels.contains address =
      (survivors adjust steps).contains address :=
  Labels.contains_number _ address

/- So the labelled addresses are the survivors. -/
theorem mem_labels_iff
    (address : Int) :
    address ∈ (ofSteps adjust steps).labels ↔
      address ∈ survivors adjust steps := by
  rw [← Std.TreeMap.contains_iff_mem, contains_labels,
    List.contains_iff_mem]

/- A target is rejected if no step begins at it. -/
theorem mem_rejected_iff
    (address : Int) :
    address ∈ (ofSteps adjust steps).rejected ↔
      (∃ p ∈ steps, p.target? adjust = some address) ∧
        ¬ ∃ p ∈ steps, p.address adjust = address := by
  rw [← mem_reachable_iff, ← Std.TreeSet.contains_iff_mem]
  simp [ofSteps, Std.TreeSet.mem_ofList]

/- Every target is either labelled or rejected. -/
theorem labelled_or_rejected_iff
    (address : Int) :
    address ∈ (ofSteps adjust steps).labels ∨
        address ∈ (ofSteps adjust steps).rejected ↔
      ∃ p ∈ steps, p.target? adjust = some address := by
  rw [mem_labels_iff, mem_survivors_iff, mem_rejected_iff,
    ← and_or_left]
  exact and_iff_left (Classical.em _)

/- They are met in ascending order. -/
theorem keys_labels :
    (ofSteps adjust steps).labels.keys =
      survivors adjust steps := by
  apply List.Pairwise.eq_of_mem_iff (r := (· < ·))
    (Labels.keys_ascending _)
    (survivors_ascending adjust steps)
  intro address
  rw [Std.TreeMap.mem_keys, mem_labels_iff]

end Analysis

end Beeb

------------------------------------------------------------
-- Labels Of Ascending Steps
------------------------------------------------------------

namespace Beeb

namespace Analysis

/- Steps that ascend begin at ascending addresses. -/
theorem addresses_ascending
    (adjust : Int)
    (steps : List Placed)
    (hAscending :
      (steps.map Placed.position).Pairwise (· < ·)) :
    (steps.map (·.address adjust)).Pairwise (· < ·) := by
  rw [List.pairwise_map] at hAscending ⊢
  refine hAscending.imp ?_
  intro p q hLess
  unfold Placed.address
  omega

/- As many steps are labelled as there are labels. -/
theorem countP_labels_eq_size
    (adjust : Int)
    (steps : List Placed)
    (hAscending :
      (steps.map Placed.position).Pairwise (· < ·)) :
    (steps.countP fun p =>
        (ofSteps adjust steps).labels.contains
          (p.address adjust)) =
      (ofSteps adjust steps).labels.size := by
  have hCount :=
    (Labels.countP_contains (ofSteps adjust steps).labels _
      (addresses_ascending adjust steps hAscending)).2
  rw [List.countP_map] at hCount
  refine hCount.mpr ?_
  intro address hLabelled
  have hMem := Std.TreeMap.mem_keys.mpr hLabelled
  rw [keys_labels] at hMem
  rw [List.mem_map]
  exact ((mem_survivors_iff adjust steps address).mp hMem).2

end Analysis

end Beeb
