import Beeb.Proofs.Walk.Course
import Mathlib.Data.List.Sort

/-
  Walks over programs that hold the same bytes at other
  positions.

  A step is told by the three bytes from its cursor on and
  by the next known code position.  So if two programs hold
  the same bytes in a window and just past it, a distance
  apart, then their walks take the same steps, that distance
  apart.

  Main declarations:
    * `Bytes.SameBytes`
    * `Step.classify_eq`
    * `Placed.moved`
    * `Walk.Course.eq_moved`
    * `Window.moved`
    * `Window.hints_moved`
-/

------------------------------------------------------------
-- The Same Bytes
------------------------------------------------------------

namespace Beeb

namespace Bytes

/- A slice within a slice. -/
theorem toList_slice_within
    (bytes : Bytes)
    (start stop first last : Int)
    (hStart : 0 ≤ start)
    (hFirst : start ≤ first)
    (hOrder : first ≤ last)
    (hLast : last ≤ stop) :
    (bytes.slice first last).toList =
      ((bytes.slice start stop).toList.drop
        (first - start).toNat).take (last - first).toNat := by
  rw [toList_slice bytes first last (by omega) hOrder,
    toList_slice bytes start stop hStart (by omega),
    List.drop_take, List.take_take, List.drop_drop]
  have hDrop :
      start.toNat + (first - start).toNat = first.toNat := by
    omega
  have hTake :
      min (last - first).toNat
          ((stop - start).toNat - (first - start).toNat) =
        (last - first).toNat := by
    omega
  rw [hDrop, hTake]

/-
  The bytes of a program from a start up to a stop are those
  of another program a distance further on. If one of the
  two ends in between, so does the other.
-/
def SameBytes
    (p q : Bytes)
    (start stop distance : Int) : Prop :=
  (q.slice (start + distance) (stop + distance)).toList =
    (p.slice start stop).toList

namespace SameBytes

variable {p q : Bytes}
variable {start stop distance : Int}

/- The bytes are the same in every part. -/
theorem narrow
    (hSame : SameBytes p q start stop distance)
    (hStart : 0 ≤ start)
    (hMoved : 0 ≤ start + distance)
    (first last : Int)
    (hFirst : start ≤ first)
    (hOrder : first ≤ last)
    (hLast : last ≤ stop) :
    SameBytes p q first last distance := by
  unfold SameBytes at hSame ⊢
  rw [toList_slice_within q (start + distance)
      (stop + distance) _ _ hMoved (by omega) (by omega)
      (by omega),
    toList_slice_within p start stop first last hStart hFirst
      hOrder hLast,
    hSame, Int.add_sub_add_right, Int.add_sub_add_right]

/- So is the first byte. -/
theorem fetch_eq
    (hSame : SameBytes p q start stop distance)
    (hStart : 0 ≤ start)
    (hMoved : 0 ≤ start + distance)
    (hSome : start < stop)
    (hInside : start < p.size) :
    q.fetch (start + distance) = p.fetch start := by
  rcases p.fetch_eq_ok start hStart hInside with
    ⟨b, hByte, hFetch⟩
  have hOther :
      q.toList[(start + distance).toNat]? = some b := by
    rw [← hByte, ← p.head?_slice start stop hStart hSome,
      ← hSame,
      q.head?_slice _ _ hMoved (by omega)]
  have hLength : (start + distance).toNat < q.size := by
    simpa using (List.getElem?_eq_some_iff.mp hOther).1
  rcases q.fetch_eq_ok (start + distance) hMoved (by omega)
    with ⟨c, hOtherByte, hOtherFetch⟩
  rw [hOther] at hOtherByte
  cases hOtherByte
  rw [hOtherFetch, hFetch]

end SameBytes

end Bytes

end Beeb

------------------------------------------------------------
-- The Same Steps
------------------------------------------------------------

namespace Beeb

namespace Step

open Bytes

variable {p q : Bytes}
variable {cursor distance : Int}
variable (hSame : SameBytes p q cursor (cursor + 3) distance)
variable (hStart : 0 ≤ cursor)
variable (hMoved : 0 ≤ cursor + distance)
variable (pending : Option Int)
variable (hPending : ∀ target ∈ pending, cursor < target)

/- A known code position cuts bytes wherever they are. -/
theorem cut?_add
    (cursor length distance : Int)
    (pending : Option Int) :
    cut? (cursor + distance) length
        (pending.map (· + distance)) =
      (cut? cursor length pending).map (· + distance) := by
  cases pending with
  | none => rfl
  | some target =>
    have hBoth :
        target + distance < cursor + distance + length ↔
          target < cursor + length := by
      omega
    simp only [cut?, Option.map_some, Option.filter_some, hBoth]
    split
    · rfl
    · rfl

include hSame hStart hMoved hPending

/- An instruction of the table reads three bytes at most. -/
theorem ofInstruction_eq
    (i : Instruction)
    (hTable : i ∈ Instruction.table) :
    ofInstruction q (cursor + distance)
        (pending.map (· + distance)) i =
      ofInstruction p cursor pending i := by
  have hLength := Instruction.length_bounds i hTable
  have hSlice :
      ∀ stop,
        cursor ≤ stop →
          stop ≤ cursor + 3 →
            (q.slice (cursor + distance)
                (stop + distance)).toList =
              (p.slice cursor stop).toList :=
    fun stop hOrder hStop =>
      hSame.narrow hStart hMoved cursor stop
        (Int.le_refl cursor) hOrder hStop
  unfold ofInstruction
  rw [cut?_add]
  cases hCut : cut? cursor i.length pending with
  | some target =>
    simp only [cut?, Option.filter_eq_some_iff,
      decide_eq_true_eq] at hCut
    have hAhead := hPending target hCut.1
    simp only [Option.map_some]
    rw [hSlice target (by omega) (by omega)]
  | none =>
    simp only [Option.map_none]
    rw [Int.add_right_comm,
      hSlice (cursor + i.length) (by omega) (by omega)]

/-
  The step at a cursor is told by the next three bytes of
  the program.
-/
theorem classify_eq
    (hInside : cursor < p.size) :
    classify q (cursor + distance)
        (pending.map (· + distance)) =
      classify p cursor pending := by
  rcases p.fetch_eq_ok cursor hStart hInside with
    ⟨first, -, hFetch⟩
  have hOther :=
    hSame.fetch_eq hStart hMoved (by omega) hInside
  unfold classify
  rw [hOther, hFetch]
  simp only [Except.bind]
  cases hFind : Instruction.ofOpcode? first.toNat with
  | some i =>
    exact
      ofInstruction_eq hSame hStart hMoved pending hPending i
        ((Instruction.ofOpcode?_eq_some_iff _ i).mp hFind).1
  | none =>
    have hOne :=
      hSame.narrow hStart hMoved cursor (cursor + 1)
        (Int.le_refl cursor) (by omega) (by omega)
    unfold SameBytes at hOne
    simp only [Int.add_right_comm cursor distance 1, hOne]

end Step

end Beeb

------------------------------------------------------------
-- Steps A Distance Apart
------------------------------------------------------------

namespace Beeb

/- The same step at a position further on. -/
def Placed.moved
    (distance : Int)
    (p : Placed) : Placed :=
  ⟨p.position + distance, p.step⟩

namespace Walk

/- Known code positions ahead move with the cursor. -/
theorem pending?_moved
    (hints : List Int)
    (cursor distance : Int) :
    pending? (hints.map (· + distance)) (cursor + distance) =
      (pending? hints cursor).map (· + distance) := by
  unfold pending?
  rw [List.find?_map]
  congr 2
  funext hint
  simp

/-
  Two courses that take the same step at every position of
  the window are the same, a distance apart.
-/
theorem Course.eq_moved
    {p q : Bytes}
    {stop cursor final final' : Int}
    {hints hints' : List Int}
    {steps steps' : List Placed}
    (distance : Int)
    (hSame : ∀ position,
      cursor ≤ position →
        position < stop →
          Step.classify q (position + distance)
              (pending? hints' (position + distance)) =
            Step.classify p position
              (pending? hints position))
    (hCourse : Course p stop hints cursor steps final)
    (hOther :
      Course q (stop + distance) hints' (cursor + distance)
        steps' final') :
    steps' = steps.map (Placed.moved distance) := by
  have hPairs :
      List.Forall₂
        (fun placed placed' =>
          placed.moved distance = placed')
        steps steps' := by
    apply hCourse.keepPace distance _ hOther
    intro placed hMem s hStep
    rcases hCourse.regular placed hMem with
      ⟨hRegular, hFrom, hInside⟩
    rw [hSame placed.position hFrom hInside,
      hRegular.classified, Except.ok.injEq] at hStep
    rw [← hStep]
    exact ⟨rfl, rfl⟩
  rw [← List.forall₂_map_left_iff, List.forall₂_eq_eq_eq]
    at hPairs
  exact hPairs.symm

end Walk

end Beeb

------------------------------------------------------------
-- Windows A Distance Apart
------------------------------------------------------------

namespace Beeb

namespace Window

/-
  The window that shows the same addresses further on in a
  program.
-/
def moved
    (distance : Int)
    (w : Window) : Window :=
  ⟨w.offset + distance, w.length, w.adjust - distance⟩

variable (w : Window)
variable (distance : Int)

/- Nothing changes for a window that stays where it is. -/
theorem moved_zero :
    w.moved 0 = w := by
  simp [moved]

/- Its addresses are its positions less what it moved. -/
theorem adjust_moved :
    (w.moved distance).adjust = w.adjust - distance :=
  rfl

/- The end of the window moves with it. -/
theorem stop_moved :
    (w.moved distance).stop = w.stop + distance := by
  simp only [stop, moved]
  omega

/- Known code positions move with the window. -/
theorem hints_moved
    (addresses : List Int) :
    (w.moved distance).hints addresses =
      (w.hints addresses).map (· + distance) := by
  have hAscending :
      ((w.hints addresses).map (· + distance)).Pairwise
        (· < ·) := by
    rw [List.pairwise_map]
    refine (w.hints_ascending addresses).imp ?_
    intro first second hLess
    omega
  apply List.Pairwise.eq_of_mem_iff (r := (· < ·))
    (hints_ascending _ addresses) hAscending
  intro position
  rw [mem_hints, List.mem_map]
  simp only [moved, address, mem_hints]
  constructor
  · rintro ⟨hFrom, hMem⟩
    refine ⟨position - distance, ⟨by omega, ?_⟩, by omega⟩
    have hAddress :
        position - distance + w.adjust =
          position + (w.adjust - distance) := by
      omega
    rwa [hAddress]
  · rintro ⟨other, ⟨hFrom, hMem⟩, rfl⟩
    refine ⟨by omega, ?_⟩
    have hAddress :
        other + distance + (w.adjust - distance) =
          other + w.adjust := by
      omega
    rwa [hAddress]

end Window

end Beeb
