import Beeb.Proofs.Command.Arguments

/-
  Bounds of the window that a command asks for: those that
  are resolved always make a valid window, and a length cuts
  the window down but never makes it longer.

  Main declarations:
    * `Command.resolveOffset_bounds`
    * `Command.resolveLength_bounds`
    * `Command.checked_eq_error_iff`
    * `Command.resolveOffset_eq_error_iff`
    * `Command.resolveLength_eq_error_iff`
    * `Command.resolveWindow_eq_ok_iff`
    * `Command.resolved_window_fits`
-/

------------------------------------------------------------
-- Resolved Bounds
------------------------------------------------------------

namespace Beeb

namespace Command

/- An offset is inside the file, or at its start. -/
theorem resolveOffset_bounds
    (size : Nat)
    (offset : Option String)
    (o : Int)
    (hOffset : resolveOffset size offset = .ok o) :
    0 ≤ o ∧ o ≤ size := by
  rw [resolveOffset_eq_ok_iff] at hOffset
  cases offset with
  | none =>
    simp only at hOffset
    omega
  | some text =>
    rcases hOffset with ⟨-, hStart, hEnd⟩
    exact ⟨hStart, Int.le_of_lt hEnd⟩

/- A length is no more than what there is. -/
theorem resolveLength_bounds
    (available : Int)
    (length : Option String)
    (l : Int)
    (hSome : 0 ≤ available)
    (hLength : resolveLength available length = .ok l) :
    0 ≤ l ∧ l ≤ available := by
  rw [resolveLength_eq_ok_iff] at hLength
  cases length with
  | none =>
    simp only at hLength
    omega
  | some text =>
    rcases hLength with ⟨given, -, hGiven, rfl⟩
    omega

/- A window is resolved bound by bound. -/
theorem resolveWindow_eq_ok_iff
    (size : Int)
    (offset length : Option String)
    (o l : Int) :
    resolveWindow size offset length = .ok (o, l) ↔
      resolveOffset size offset = .ok o ∧
        resolveLength (size - o) length = .ok l := by
  simp only [resolveWindow, bind_eq_ok_iff]
  constructor
  · rintro ⟨_, hOffset, _, hLength, hPair⟩
    cases hPair
    exact ⟨hOffset, hLength⟩
  · rintro ⟨hOffset, hLength⟩
    exact ⟨o, hOffset, l, hLength, rfl⟩

end Command

end Beeb

------------------------------------------------------------
-- Refused Bounds
------------------------------------------------------------

namespace Beeb

namespace Command

/-
  A number that is read and then checked is refused if it is
  no number, or by the check.
-/
theorem checked_eq_error_iff
    (what text : String)
    (check : Int → Except ArgumentError Int) :
    (∃ e, readNumber what text >>= check = .error e) ↔
      (∃ e, Numeral.parse text = .error e) ∨
        ∃ n,
          Numeral.parse text = .ok n ∧
            ∃ e, check n = .error e := by
  unfold readNumber
  cases Numeral.parse text <;>
    simp [Except.mapError, bind, Except.bind]

/- Which offsets are refused. -/
theorem resolveOffset_eq_error_iff
    (size : Int)
    (offset : Option String) :
    (∃ e, resolveOffset size offset = .error e) ↔
      ∃ text,
        offset = some text ∧
          ((∃ e, Numeral.parse text = .error e) ∨
            ∃ n,
              Numeral.parse text = .ok n ∧
                (n < 0 ∨ size ≤ n)) := by
  cases offset with
  | none => simp [resolveOffset]
  | some text =>
    simp only [resolveOffset, checked_eq_error_iff,
      Option.some.injEq, exists_eq_left']
    refine or_congr_right <| exists_congr fun n =>
      and_congr_right fun _ => ?_
    by_cases hStart : n < 0
    · simp [hStart]
    · by_cases hEnd : size ≤ n <;>
        simp [hStart, hEnd, pure, Except.pure]

/-
  Which lengths are refused. How much there is does not
  matter for this.
-/
theorem resolveLength_eq_error_iff
    (available : Int)
    (length : Option String) :
    (∃ e, resolveLength available length = .error e) ↔
      ∃ text,
        length = some text ∧
          ((∃ e, Numeral.parse text = .error e) ∨
            ∃ n, Numeral.parse text = .ok n ∧ n < 0) := by
  cases length with
  | none => simp [resolveLength]
  | some text =>
    simp only [resolveLength, checked_eq_error_iff,
      Option.some.injEq, exists_eq_left']
    refine or_congr_right <| exists_congr fun n =>
      and_congr_right fun _ => ?_
    by_cases hNegative : n < 0 <;>
      simp [hNegative, pure, Except.pure]

/- A window is refused for one of its bounds. -/
theorem resolveWindow_eq_error_iff
    (size : Int)
    (offset length : Option String) :
    (∃ e, resolveWindow size offset length = .error e) ↔
      (∃ e, resolveOffset size offset = .error e) ∨
        ∃ e, resolveLength size length = .error e := by
  have hSame :
      ∀ o,
        (∃ e, resolveLength (size - o) length = .error e) ↔
          ∃ e, resolveLength size length = .error e := by
    intro o
    rw [resolveLength_eq_error_iff, resolveLength_eq_error_iff]
  cases hOffset : resolveOffset size offset with
  | error e => simp [resolveWindow, hOffset, bind, Except.bind]
  | ok o =>
    rw [← hSame o]
    cases hLength : resolveLength (size - o) length <;>
      simp [resolveWindow, hOffset, hLength, bind, Except.bind,
        pure, Except.pure]

end Command

end Beeb

------------------------------------------------------------
-- Windows Of A File
------------------------------------------------------------

namespace Beeb

namespace Command

/- A window that fits makes a disassembly. -/
theorem exists_create_of_fits
    (program : Bytes)
    (w : Window)
    (codeAddresses : List Int)
    (vars : List Variable)
    (hFits : w.validate program.size = .ok ()) :
    ∃ d,
      Disassembly.create program w codeAddresses vars =
        .ok d :=
  ⟨⟨program, w, codeAddresses, Variable.merge vars, hFits⟩,
    (Disassembly.create_eq_ok_iff _ _ _ _ _).mpr
      ⟨rfl, rfl, rfl, rfl⟩⟩

/-
  The window of a file is always a valid one. What is
  resolved lies in the file, so that any program of that
  size can be disassembled there, at any load address. The
  check of windows accepts those that lie in the program,
  and no others. A length that is as much as there is, or
  more, is as good as none, and a smaller one is kept. Bounds
  are refused if and only if one of them is no number, the
  offset is not in the file, or the length is negative.
-/
theorem resolved_window_fits
    (size : Nat) :
    (∀ offset length o l,
        resolveWindow size offset length = .ok (o, l) →
          0 ≤ o ∧ 0 ≤ l ∧ o + l ≤ size ∧
            ∀ (program : Bytes) (adjust : Int)
                (codeAddresses : List Int)
                (vars : List Variable),
              program.size = size → 0 ≤ adjust →
                ∃ d,
                  Disassembly.create program ⟨o, l, adjust⟩
                      codeAddresses vars = .ok d) ∧
      (∀ o l adjust : Int,
        Window.validate ⟨o, l, adjust⟩ size = .ok () ↔
          0 ≤ o ∧ 0 ≤ l ∧ 0 ≤ adjust ∧ o + l ≤ size) ∧
      (∀ offset o l text v,
        resolveWindow size offset none = .ok (o, l) →
          Numeral.parse text = .ok v →
            (size - o ≤ v →
                resolveWindow size offset (some text) =
                  .ok (o, l)) ∧
              (0 ≤ v → v < size - o →
                resolveWindow size offset (some text) =
                  .ok (o, v))) ∧
      ∀ offset length,
        (∃ e, resolveWindow size offset length = .error e) ↔
          (∃ text e,
            (offset = some text ∨ length = some text) ∧
              Numeral.parse text = .error e) ∨
            (∃ text n,
              offset = some text ∧
                Numeral.parse text = .ok n ∧
                (n < 0 ∨ size ≤ n)) ∨
            ∃ text n,
              length = some text ∧
                Numeral.parse text = .ok n ∧ n < 0 := by
  have hValid := fun o l adjust : Int =>
    Window.validate_eq_ok_iff ⟨o, l, adjust⟩ size
  refine ⟨?_, hValid, ?_, ?_⟩
  · intro offset length o l hResolved
    rcases (resolveWindow_eq_ok_iff _ _ _ _ _).mp hResolved with
      ⟨hOffset, hLength⟩
    rcases resolveOffset_bounds size offset o hOffset with
      ⟨hStart, hEnd⟩
    rcases resolveLength_bounds (size - o) length l (by omega)
        hLength with
      ⟨hPositive, hShort⟩
    have hInside : o + l ≤ size := by omega
    refine ⟨hStart, hPositive, hInside, ?_⟩
    intro program adjust codeAddresses vars hSize hAdjust
    apply exists_create_of_fits
    rw [hSize]
    exact
      (hValid o l adjust).mpr
        ⟨hStart, hPositive, hAdjust, hInside⟩
  · intro offset o l text v hRest hText
    rcases (resolveWindow_eq_ok_iff _ _ _ _ _).mp hRest with
      ⟨hOffset, hNone⟩
    have hAll : l = size - o := by
      rw [resolveLength_eq_ok_iff] at hNone
      exact hNone
    have hEnd := (resolveOffset_bounds size offset o hOffset).2
    have hCut :
        ∀ n, 0 ≤ v → min v (size - o) = n →
          resolveWindow size offset (some text) =
            .ok (o, n) := by
      intro n hPositive hMin
      rw [resolveWindow_eq_ok_iff, resolveLength_eq_ok_iff]
      exact ⟨hOffset, v, hText, hPositive, hMin⟩
    exact
      ⟨fun hLong => hCut l (by omega) (by omega),
        fun hPositive hShort => hCut v hPositive (by omega)⟩
  · intro offset length
    rw [resolveWindow_eq_error_iff, resolveOffset_eq_error_iff,
      resolveLength_eq_error_iff]
    constructor
    · rintro (⟨text, hText, ⟨e, hNumber⟩ | ⟨n, hOut⟩⟩ |
        ⟨text, hText, ⟨e, hNumber⟩ | ⟨n, hNegative⟩⟩)
      · exact .inl ⟨text, e, .inl hText, hNumber⟩
      · exact .inr (.inl ⟨text, n, hText, hOut⟩)
      · exact .inl ⟨text, e, .inr hText, hNumber⟩
      · exact .inr (.inr ⟨text, n, hText, hNegative⟩)
    · rintro (⟨text, e, hText | hText, hNumber⟩ |
        ⟨text, n, hText, hOut⟩ | ⟨text, n, hText, hNegative⟩)
      · exact .inl ⟨text, hText, .inl ⟨e, hNumber⟩⟩
      · exact .inr ⟨text, hText, .inl ⟨e, hNumber⟩⟩
      · exact .inl ⟨text, hText, .inr ⟨n, hOut⟩⟩
      · exact .inr ⟨text, hText, .inr ⟨n, hNegative⟩⟩

/- More is asked for than there is behind an offset. -/
theorem resolved_window_fits_cut :
    resolveWindow 8 (some "&2") (some "0x40") = .ok (2, 6) ∧
      ∃ d,
        Disassembly.create (Array.replicate 8 0x60)
            ⟨2, 6, 0x1900⟩ [] [] = .ok d := by
  rcases resolved_window_fits 8 with ⟨hFits, -, hCut, -⟩
  have hRest :
      resolveWindow 8 (some "&2") none = .ok (2, 6) := by
    decide
  have hAll :
      resolveWindow 8 (some "&2") (some "0x40") =
        .ok (2, 6) :=
    (hCut (some "&2") 2 6 "0x40" 64 hRest (by decide)).1
      (by decide)
  exact
    ⟨hAll,
      (hFits _ _ 2 6 hAll).2.2.2 _ 0x1900 [] [] rfl
        (by decide)⟩

end Command

end Beeb
