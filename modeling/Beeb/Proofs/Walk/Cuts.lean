import Beeb.Proofs.Walk.Course
import Mathlib.Order.MinMax

/-
  What the next known code position has to do with a step.

  It matters only if it cuts the step short.  One where the
  step ends anyway cuts nothing, and one past the end of the
  program cuts off no byte that is there: it merely gives
  another reason for the cut.

  Main declarations:
    * `Walk.pending?_insert`
    * `Walk.pending?_filter_lt`
    * `Step.classify_sooner`
    * `Placed.blurred`
    * `Step.blurred_classify`
    * `Walk.Course.insert_boundary`
    * `Walk.Course.blurred_eq`
-/

------------------------------------------------------------
-- The Next Known Code Position
------------------------------------------------------------

namespace Beeb

namespace Walk

variable (hints hints' : List Int)
variable (cursor : Int)

/- The least of the positions past a cursor is the first. -/
theorem pending?_eq_some_iff
    (target : Int)
    (hAscending : hints.Pairwise (· < ·)) :
    pending? hints cursor = some target ↔
      target ∈ hints ∧ cursor < target ∧
        ∀ hint ∈ hints, cursor < hint → target ≤ hint := by
  constructor
  · exact pending?_eq_some hints cursor target hAscending
  · rintro ⟨hMem, hPast, hLeast⟩
    cases hPending : pending? hints cursor with
    | none =>
      have hNone :=
        (pending?_eq_none_iff hints cursor).mp hPending target
          hMem
      omega
    | some first =>
      rcases pending?_eq_some hints cursor first hAscending
          hPending with
        ⟨hFirst, hFirstPast, hFirstLeast⟩
      have hAbove := hLeast first hFirst hFirstPast
      have hBelow := hFirstLeast target hMem hPast
      rw [Int.le_antisymm hBelow hAbove]

/-
  One more position is the next one until the cursor gets
  there, unless another comes sooner.
-/
theorem pending?_insert
    (target : Int)
    (hAscending : hints.Pairwise (· < ·))
    (hAscending' : hints'.Pairwise (· < ·))
    (hMore :
      ∀ hint, hint ∈ hints' ↔ hint ∈ hints ∨ hint = target) :
    pending? hints' cursor =
      if cursor < target then
        some ((pending? hints cursor).elim target (min target))
      else pending? hints cursor := by
  cases hPending : pending? hints cursor with
  | none =>
    rw [pending?_eq_none_iff] at hPending
    split
    · rename_i hBefore
      rw [Option.elim_none,
        pending?_eq_some_iff hints' cursor target hAscending']
      refine ⟨(hMore target).mpr (.inr rfl), hBefore, ?_⟩
      intro hint hMem hPast
      rcases (hMore hint).mp hMem with hOld | rfl
      · have hBehind := hPending hint hOld
        omega
      · exact Int.le_refl hint
    · rename_i hPast
      rw [pending?_eq_none_iff]
      intro hint hMem
      rcases (hMore hint).mp hMem with hOld | rfl
      · exact hPending hint hOld
      · omega
  | some first =>
    rcases pending?_eq_some hints cursor first hAscending
        hPending with
      ⟨hFirst, hFirstPast, hLeast⟩
    split
    · rename_i hBefore
      rw [Option.elim_some,
        pending?_eq_some_iff hints' cursor _ hAscending']
      refine ⟨?_, by omega, ?_⟩
      · rw [hMore]
        rcases min_choice target first with hNew | hOld
        · exact .inr hNew
        · rw [hOld]
          exact .inl hFirst
      · intro hint hMem hPast
        rcases (hMore hint).mp hMem with hOld | rfl
        · have hAfter := hLeast hint hOld hPast
          omega
        · omega
    · rename_i hPast
      rw [pending?_eq_some_iff hints' cursor first hAscending']
      refine ⟨(hMore first).mpr (.inl hFirst), hFirstPast, ?_⟩
      intro hint hMem hAhead
      rcases (hMore hint).mp hMem with hOld | rfl
      · exact hLeast hint hOld hAhead
      · omega

/-
  The positions from a bound on are of no account to one
  before the bound.
-/
theorem pending?_filter_lt
    (bound : Int)
    (hAscending : hints.Pairwise (· < ·)) :
    pending? (hints.filter (· < bound)) cursor =
      (pending? hints cursor).filter (· < bound) := by
  apply Option.ext
  intro target
  rw [pending?_eq_some_iff _ cursor target
      (hAscending.filter _),
    Option.filter_eq_some_iff,
    pending?_eq_some_iff hints cursor target hAscending]
  simp only [List.mem_filter, decide_eq_true_eq, and_imp]
  constructor
  · rintro ⟨⟨hMem, hBelow⟩, hPast, hLeast⟩
    refine ⟨⟨hMem, hPast, ?_⟩, hBelow⟩
    intro hint hHint hAhead
    by_cases hNear : hint < bound
    · exact hLeast hint hHint hNear hAhead
    · omega
  · rintro ⟨⟨hMem, hPast, hLeast⟩, hBelow⟩
    refine ⟨⟨hMem, hBelow⟩, hPast, ?_⟩
    intro hint hHint hNear hAhead
    exact hLeast hint hHint hAhead

/-
  Positions that are the same up to a bound give the same
  next one up to any nearer bound.
-/
theorem filter_pending?_eq
    (bound near : Int)
    (hAscending : hints.Pairwise (· < ·))
    (hAscending' : hints'.Pairwise (· < ·))
    (hAgree :
      hints.filter (· < bound) = hints'.filter (· < bound))
    (hNear : near ≤ bound) :
    (pending? hints cursor).filter (· < near) =
      (pending? hints' cursor).filter (· < near) := by
  have hNarrow :
      ∀ known : List Int,
        known.filter (· < near) =
          (known.filter (· < bound)).filter (· < near) := by
    intro known
    rw [List.filter_filter]
    apply List.filter_congr
    intro hint hMem
    grind
  rw [← pending?_filter_lt hints cursor near hAscending,
    ← pending?_filter_lt hints' cursor near hAscending',
    hNarrow hints, hNarrow hints', hAgree]

end Walk

end Beeb

------------------------------------------------------------
-- A Cut Where A Step Ends
------------------------------------------------------------

namespace Beeb

namespace Step

variable (program : Bytes)
variable (cursor : Int)
variable (pending : Option Int)

/- The next known code position matters if it cuts. -/
theorem ofInstruction_of_cut?
    (pending' : Option Int)
    (i : Instruction)
    (hCut :
      cut? cursor i.length pending' =
        cut? cursor i.length pending) :
    ofInstruction program cursor pending' i =
      ofInstruction program cursor pending i := by
  unfold ofInstruction
  rw [hCut]

/- No position cuts bytes that end before it. -/
theorem cut?_of_le
    (length target : Int)
    (hClear : cursor + length ≤ target) :
    cut? cursor length (some target) = none := by
  rw [cut?, Option.filter_some, if_neg]
  simpa using hClear

/-
  A position inside the program that a step does not run
  across might as well be known: it cuts nothing.
-/
theorem classify_sooner
    (target : Int)
    (s : Step)
    (hStart : 0 ≤ cursor)
    (hPending : ∀ next ∈ pending, cursor < next)
    (hStep : classify program cursor pending = .ok s)
    (hAdvances : 0 < s.length)
    (hClear : cursor + s.length ≤ target)
    (hInside : target < program.size) :
    classify program cursor
        (some (pending.elim target (min target))) =
      .ok s := by
  rcases classify_eq_ok program cursor pending hStart
      (by omega) hPending with
    ⟨first, s', hFetch, hSame, hLength, -, -⟩
  rw [hStep, Except.ok.injEq] at hSame
  rw [← hSame] at hLength
  rw [← hStep]
  unfold classify
  rw [hFetch]
  simp only [Except.bind]
  cases hFind : Instruction.ofOpcode? first.toNat with
  | none => rfl
  | some i =>
    rw [hFind] at hLength
    apply ofInstruction_of_cut?
    cases pending with
    | none =>
      simp only [reach] at hLength
      exact cut?_of_le cursor i.length target (by omega)
    | some next =>
      simp only [reach] at hLength
      by_cases hSooner : next ≤ target
      · rw [Option.elim_some, min_eq_right hSooner]
      · rw [Option.elim_some,
          cut?_of_le cursor i.length _ (by omega),
          cut?_of_le cursor i.length next (by omega)]

end Step

namespace Walk

/-
  A walk goes on as it did if a code position becomes known
  at which one of its steps begins: it cuts none of the
  steps before, and those after it are past it.
-/
theorem Course.insert_boundary
    {program : Bytes}
    {stop cursor final final' : Int}
    {hints hints' : List Int}
    {steps steps' : List Placed}
    (hCourse : Course program stop hints cursor steps final)
    (hOther :
      Course program stop hints' cursor steps' final')
    (hAscending : hints.Pairwise (· < ·))
    (hAscending' : hints'.Pairwise (· < ·))
    (p : Placed)
    (hMem : p ∈ steps)
    (hMore :
      ∀ hint,
        hint ∈ hints' ↔ hint ∈ hints ∨ hint = p.position) :
    steps' = steps := by
  apply hCourse.eq_of_classified hOther
  intro q hq
  have hRegular := (hCourse.regular q hq).1
  rw [pending?_insert hints hints' q.position p.position
    hAscending hAscending' hMore]
  split
  · rename_i hBefore
    have hClear := hCourse.stop_le_of_lt q p hq hMem hBefore
    have hInside := (hCourse.regular p hMem).1.position_lt
    apply Step.classify_sooner program q.position _ _ _
      hRegular.starts _ hRegular.classified hRegular.advances
      hClear hInside
    intro next hNext
    exact
      (pending?_eq_some hints q.position next hAscending
        hNext).2.1
  · exact hRegular.classified

end Walk

end Beeb

------------------------------------------------------------
-- A Cut At The End Of The Program
------------------------------------------------------------

namespace Beeb

/-
  A verdict that does not tell the two ways apart in which
  an instruction can be cut short.
-/
def Verdict.blurred : Verdict → Verdict
| .straddlesCode i => .endOfProgram i
| verdict => verdict

/- A step with such a verdict. -/
def Step.blurred
    (s : Step) : Step :=
  ⟨s.verdict.blurred, s.data⟩

/- Such a step where it is. -/
def Placed.blurred
    (p : Placed) : Placed :=
  ⟨p.position, p.step.blurred⟩

namespace Step

variable (program : Bytes)
variable (cursor : Int)
variable (pending : Option Int)

/- Bytes cut off at the end of the program, or past it. -/
theorem slice_of_size_le
    (stop stop' : Int)
    (hStop : program.size ≤ stop)
    (hStop' : program.size ≤ stop') :
    program.slice cursor stop = program.slice cursor stop' := by
  rw [program.slice_eq_slice_min cursor stop (by omega),
    program.slice_eq_slice_min cursor stop' (by omega),
    min_eq_right hStop, min_eq_right hStop']

/-
  A position past the program, or past the bytes that an
  instruction may have, cuts off nothing.
-/
theorem blurred_ofInstruction
    (i : Instruction)
    (hTable : i ∈ Instruction.table)
    (hStart : 0 ≤ cursor)
    (hEnd : cursor < program.size) :
    (ofInstruction program cursor
        (pending.filter
          (· < min (cursor + 3) program.size)) i).map blurred =
      (ofInstruction program cursor pending i).map
        blurred := by
  have hLength := Instruction.length_bounds i hTable
  cases pending with
  | none => rfl
  | some target =>
    rw [Option.filter_some]
    split
    · rfl
    rename_i hFar
    rw [decide_eq_true_eq] at hFar
    by_cases hCut : target < cursor + i.length
    · -- Only the end of the program is that near.
      have hSize : program.size ≤ target := by omega
      have hCuts :
          cut? cursor i.length (some target) =
            some target := by
        rw [cut?, Option.filter_some, if_pos (by simpa)]
      have hShort :
          ((program.slice cursor
              (cursor + i.length)).toList.length : Int) <
            i.length := by
        rw [program.length_slice cursor _ hStart (by omega)
          (by omega)]
        omega
      have hJudge :
          judge i
              (program.slice cursor
                (cursor + i.length)).toList =
            .ok (.endOfProgram i) := by
        rw [judge, if_pos hShort]
      have hNone : cut? cursor i.length none = none := rfl
      simp only [ofInstruction, hCuts, hNone, hJudge]
      rw [slice_of_size_le program cursor target
        (cursor + i.length) hSize (by omega)]
      rfl
    · apply congrArg
      apply ofInstruction_of_cut?
      rw [cut?_of_le cursor i.length target (by omega)]
      rfl

/- So it gives no other step, but for the reason. -/
theorem blurred_classify
    (hStart : 0 ≤ cursor)
    (hEnd : cursor < program.size) :
    (classify program cursor
        (pending.filter
          (· < min (cursor + 3) program.size))).map blurred =
      (classify program cursor pending).map blurred := by
  rcases program.fetch_eq_ok cursor hStart hEnd with
    ⟨first, -, hFetch⟩
  unfold classify
  rw [hFetch]
  simp only [Except.bind]
  cases hFind : Instruction.ofOpcode? first.toNat with
  | none => rfl
  | some i =>
    apply blurred_ofInstruction program cursor pending i _
      hStart hEnd
    exact ((Instruction.ofOpcode?_eq_some_iff _ i).mp hFind).1

/- So those that agree that far give the same step. -/
theorem blurred_classify_eq
    (pending' : Option Int)
    (hStart : 0 ≤ cursor)
    (hEnd : cursor < program.size)
    (hNear :
      pending.filter (· < min (cursor + 3) program.size) =
        pending'.filter
          (· < min (cursor + 3) program.size)) :
    (classify program cursor pending).map blurred =
      (classify program cursor pending').map blurred := by
  rw [← blurred_classify program cursor pending hStart hEnd,
    ← blurred_classify program cursor pending' hStart hEnd,
    hNear]

end Step

namespace Walk

/-
  Known code positions that agree up to two bytes past the
  window, as far as the program goes, give the same steps,
  but for the reason why one is cut short.
-/
theorem Course.blurred_eq
    {program : Bytes}
    {stop cursor final final' : Int}
    {hints hints' : List Int}
    {steps steps' : List Placed}
    (hCourse : Course program stop hints cursor steps final)
    (hOther :
      Course program stop hints' cursor steps' final')
    (hAscending : hints.Pairwise (· < ·))
    (hAscending' : hints'.Pairwise (· < ·))
    (hAgree :
      hints.filter (· < min (stop + 2) program.size) =
        hints'.filter (· < min (stop + 2) program.size)) :
    steps.map Placed.blurred = steps'.map Placed.blurred := by
  have hPairs :
      List.Forall₂
        (fun p p' => p.blurred = p'.blurred) steps steps' := by
    apply hCourse.keepPace 0
    · rwa [Int.add_zero, Int.add_zero]
    · intro p hMem s hStep
      rcases hCourse.regular p hMem with
        ⟨hRegular, -, hInside⟩
      have hNear :=
        filter_pending?_eq hints hints' p.position
          (min (stop + 2) program.size)
          (min (p.position + 3) program.size) hAscending
          hAscending' hAgree (by omega)
      have hBlurred :=
        Step.blurred_classify_eq program p.position _ _
          hRegular.starts hRegular.position_lt hNear
      rw [Int.add_zero] at hStep
      rw [hRegular.classified, hStep] at hBlurred
      have hSame : p.step.blurred = s.blurred :=
        Except.ok.inj hBlurred
      constructor
      · have hData : p.step.data = s.data := by
          show p.step.blurred.data = s.blurred.data
          rw [hSame]
        rw [Step.length, Step.length, hData]
      · rw [Placed.blurred, Placed.blurred, hSame,
          Int.add_zero]
  rwa [← List.forall₂_eq_eq_eq, List.forall₂_map_left_iff,
    List.forall₂_map_right_iff]

end Walk

end Beeb
