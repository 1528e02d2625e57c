import Beeb.Proofs.Listing.Labels

/-
  An analysis in place of the one that a program has: where
  the checks between the two passes stop the listing.

  The last check only compares two numbers of labels.  It
  finds every label at which no step begins, since no two
  steps begin at one address.

  Main declarations:
    * `Labels.WritableAt`
    * `Placed.Mentions`
    * `Analysis.Passes`
    * `Placed.text_cases`
    * `Disassembly.drain_of_passed`
    * `Disassembly.drain_of_unseen`
    * `Disassembly.drain_of_illegible`
    * `Disassembly.drain_ends_iff`
-/

------------------------------------------------------------
-- Steps That Are Passed
------------------------------------------------------------

namespace Beeb

/- The label of an address has a name, if there is one. -/
def Labels.WritableAt
    (labels : Labels)
    (address : Int) : Prop :=
  ∀ label : Label,
    labels[address]? = some label →
      ∃ name, label.name = .ok name

/-
  The addresses whose labels the lines of a step show: its
  own, and where it goes if it is code and makes no system
  call.
-/
def Placed.Mentions
    (p : Placed)
    (adjust address : Int) : Prop :=
  p.address adjust = address ∨
    (p.step.isCode = true ∧
      p.target? adjust = some address ∧ p.call? = none)

/-
  What lets a listing get past a step: the analysis has seen
  it, and the labels that its lines show have names.
-/
structure Analysis.Passes
    (a : Analysis)
    (adjust : Int)
    (p : Placed) : Prop where
  seen : p.address adjust ∈ a.reachable
  legible : ∀ address,
    p.Mentions adjust address → a.labels.WritableAt address

/- The label of a number with too many digits. -/
theorem Label.ofIndex_of_large
    (n : Nat)
    (hLarge : Nat.pow 10 Numeral.digitLimit ≤ n) :
    ofIndex (Int.ofNat n) = .overlong (Int.ofNat n) := by
  have hDigits :=
    Numeral.lt_length_toDigits n _ (by decide) hLarge
  have hDecimal :
      Numeral.decimal? (Int.ofNat n) =
        .error .tooLongToWrite :=
    if_neg (Nat.not_le.mpr hDigits)
  rw [ofIndex, hDecimal]

/- A label without a name has too many digits. -/
theorem Labels.exists_of_not_writableAt
    (labels : Labels)
    (address : Int)
    (hNot : ¬ labels.WritableAt address) :
    ∃ label : Label,
      labels[address]? = some label ∧
        label.name = .error .tooLongToWrite := by
  unfold WritableAt at hNot
  push Not at hNot
  rcases hNot with ⟨label, hLabel, hUnnamed⟩
  refine ⟨label, hLabel, ?_⟩
  cases label with
  | numbered index => exact absurd rfl (hUnnamed _)
  | overlong index => rfl

end Beeb

------------------------------------------------------------
-- Operands Of Steps
------------------------------------------------------------

namespace Beeb

/-
  The operand of a step that is code is written with one
  label at most: that of its target, unless it makes a
  system call.
-/
theorem Placed.text_cases
    (p : Placed)
    (i : Instruction)
    (adjust : Int)
    (labels : Labels)
    (vars : List Variable)
    (hFaithful : p.step.Faithful)
    (hCode : p.step.verdict = .code i) :
    let text :=
      Operand.text i p.step.data (p.address adjust) labels vars
    (∃ target plain,
        p.target? adjust = some target ∧
          p.call? = none ∧
          text =
            (match labels[target]? with
              | some label => label.name
              | none => .ok plain).mapError .label) ∨
      ((∀ target,
          p.target? adjust = some target →
            p.call? ≠ none) ∧
        ∃ operand, text = .ok operand) := by
  intro text
  have hComplete := p.step.complete?_of_code i hFaithful hCode
  rcases Listing.mem_table_of_code p.step i hFaithful hCode
    with ⟨hTable, hLength⟩
  by_cases hBranch : i.flow = .branch
  · rcases i.encoded?_of_branch (p.address adjust) p.step.data
        hTable hBranch hLength with
      ⟨opcode, b, -, hDistance, -⟩
    refine
      .inl
        ⟨p.address adjust + (b.toInt8.toInt + 2),
          Operand.relative (b.toInt8.toInt + 2), ?_, ?_, ?_⟩
    · simp [target?, hComplete, hBranch, hDistance,
        Except.toOption]
    · simp [call?, hComplete, hBranch]
    · exact
        Operand.text_of_branch i _ _ _ _ _ hBranch hDistance
  rcases i.length_eq_size hTable hBranch with
    ⟨mode, hMode, hSize⟩
  by_cases hJump : i.flow = .jump ∧ mode = .absolute
  · rcases hJump with ⟨hFlow, rfl⟩
    rcases i.encoded?_of_absolute (p.address adjust)
        p.step.data hTable hMode hLength with
      ⟨opcode, low, high, -, hWord, -⟩
    generalize
      (low.toNat + 256 * high.toNat : Int) = word at hWord
    have hText :=
      Operand.text_of_jump i p.step.data (p.address adjust)
        labels vars word hFlow hMode hWord
    rw [Operand.jumpTarget] at hText
    cases hName : Mos.callName? word with
    | some name =>
      rw [hName] at hText
      have hCall :=
        p.call?_of_jump i word hComplete hMode hWord hFlow
          (by rw [hName]; rfl)
      exact .inr ⟨by simp [hCall], name, hText⟩
    | none =>
      rw [hName] at hText
      refine
        .inl
          ⟨word, Operand.number 4 word,
            p.target?_of_jump i word hComplete hMode hWord
              adjust hFlow,
            ?_, hText⟩
      simp [call?, word?, hComplete, hFlow, hMode, hWord,
        hName, Except.toOption]
  · have hNoTarget : p.target? adjust = none := by
      cases hFlow : i.flow with
      | branch => exact absurd hFlow hBranch
      | neither => simp [target?, hComplete, hFlow]
      | jump =>
        have hIndirect : i.mode = some .indirect := by
          rcases i.mode_of_jump hTable hFlow with
            hAbsolute | hIndirect
          · rw [hMode] at hAbsolute
            exact
              absurd ⟨hFlow, Option.some.inj hAbsolute⟩ hJump
          · exact hIndirect
        simp [target?, hComplete, hFlow, hIndirect]
    rcases Operand.exists_ofMode mode p.step.data vars
        (hLength.trans hSize) with
      ⟨operand, hOperand⟩
    refine .inr ⟨by simp [hNoTarget], operand, ?_⟩
    have hText :=
      Operand.text_of_mode i p.step.data (p.address adjust)
        labels vars mode hBranch hMode hJump
    rw [hOperand] at hText
    exact hText

end Beeb

------------------------------------------------------------
-- Parts Of A Plan
------------------------------------------------------------

namespace Beeb

namespace Listing

variable (a : Analysis)
variable (vars : List Variable)
variable (adjust : Int)
variable (p : Placed)

/- The line of a label that has a name can be written. -/
theorem failure?_labelItems
    (address : Int)
    (hWritable : a.labels.WritableAt address)
    (item : Item)
    (hMem : item ∈ labelItems a.labels address) :
    item.failure? a.labels vars = none := by
  unfold labelItems at hMem
  cases hLabel : a.labels[address]? with
  | none =>
    rw [hLabel] at hMem
    cases hMem
  | some label =>
    rcases hWritable label hLabel with ⟨name, hName⟩
    rw [hLabel, Option.map_some, hName] at hMem
    rw [List.mem_singleton.mp hMem]
    rfl

/- A label line is all that it gives. -/
theorem isLabel_of_mem_labelItems
    (address : Int)
    (line : Line)
    (hMem :
      line ∈
        (labelItems a.labels address).flatMap
          (Item.lines a.labels vars)) :
    line.isLabel = true := by
  unfold labelItems at hMem
  split at hMem
  · simp only [List.flatMap_singleton, Item.lines,
      List.mem_singleton] at hMem
    rw [hMem]
    rfl
  · cases hMem
  · cases hMem

/-
  The line of a step can be written if and only if the label
  that its operand needs has a name.
-/
theorem failure?_ofStep
    (hFaithful : p.step.Faithful) :
    ((Item.ofStep adjust p).failure? a.labels vars = none ∧
        ∀ target,
          p.step.isCode = true →
            p.target? adjust = some target →
              p.call? = none →
                a.labels.WritableAt target) ∨
      ((Item.ofStep adjust p).failure? a.labels vars =
          some (.operand (.label .tooLongToWrite)) ∧
        ∃ target,
          p.Mentions adjust target ∧
            ¬ a.labels.WritableAt target) := by
  by_cases hCode : ∃ i, p.step.verdict = .code i
  · rcases hCode with ⟨i, hCode⟩
    have hIsCode := p.step.isCode_iff.mpr ⟨i, hCode⟩
    rw [ofStep_of_code adjust p i hCode, Item.failure?,
      instructionLine]
    rcases p.text_cases i adjust a.labels vars hFaithful
        hCode with
      ⟨target, plain, hTarget, hCall, hText⟩ |
        ⟨hNoLabel, operand, hText⟩
    · have hMentions : p.Mentions adjust target :=
        .inr ⟨hIsCode, hTarget, hCall⟩
      rw [hText]
      by_cases hWritable : a.labels.WritableAt target
      · refine .inl ⟨?_, ?_⟩
        · cases hLabel : a.labels[target]? with
          | none => rfl
          | some label =>
            rcases hWritable label hLabel with ⟨name, hName⟩
            simp only [hName]
            rfl
        · intro other _ hOther _
          rw [hTarget] at hOther
          cases hOther
          exact hWritable
      · rcases a.labels.exists_of_not_writableAt target
            hWritable with
          ⟨label, hLabel, hName⟩
        refine .inr ⟨?_, target, hMentions, hWritable⟩
        simp only [hLabel, hName]
        rfl
    · rw [hText]
      exact
        .inl
          ⟨rfl, fun target _ hTarget hCall =>
            absurd hCall (hNoLabel target hTarget)⟩
  · rw [ofStep_of_data adjust p fun i hIs => hCode ⟨i, hIs⟩]
    refine .inl ⟨rfl, fun target hIsCode => ?_⟩
    exact absurd (p.step.isCode_iff.mp hIsCode) hCode

/- What a step gives can be written if it is passed. -/
theorem failure?_of_passes
    (hFaithful : p.step.Faithful)
    (hPasses : a.Passes adjust p)
    (item : Item)
    (hMem : item ∈ stepItems a.labels adjust p) :
    item.failure? a.labels vars = none := by
  rcases List.mem_append.mp hMem with hLabel | hStep
  · exact
      failure?_labelItems a vars (p.address adjust)
        (hPasses.legible _ (.inl rfl)) item hLabel
  · rw [List.mem_singleton.mp hStep]
    rcases failure?_ofStep a vars adjust p hFaithful with
      ⟨hSound, -⟩ | ⟨-, target, hMentions, hNot⟩
    · exact hSound
    · exact absurd (hPasses.legible target hMentions) hNot

/-
  A step that was seen but is not passed stops the listing,
  at its label or behind it, over a label that is too long.
-/
theorem stepItems_of_illegible
    (hFaithful : p.step.Faithful)
    (hSeen : p.address adjust ∈ a.reachable)
    (hNot : ¬ a.Passes adjust p) :
    ∃ before item after e,
      stepItems a.labels adjust p = before ++ item :: after ∧
        (∀ item ∈ before,
          item.failure? a.labels vars = none) ∧
        (∀ line ∈ before.flatMap (Item.lines a.labels vars),
          line.isLabel = true) ∧
        item.failure? a.labels vars = some e ∧
        e.message = NumeralError.tooLongToWrite.message := by
  by_cases hOwn : a.labels.WritableAt (p.address adjust)
  · rcases failure?_ofStep a vars adjust p hFaithful with
      ⟨-, hTarget⟩ | ⟨hStops, -⟩
    · refine absurd ⟨hSeen, ?_⟩ hNot
      rintro address (rfl | ⟨hIsCode, hAddress, hCall⟩)
      · exact hOwn
      · exact hTarget address hIsCode hAddress hCall
    · exact
        ⟨labelItems a.labels (p.address adjust),
          .ofStep adjust p, [], _, rfl,
          failure?_labelItems a vars _ hOwn,
          isLabel_of_mem_labelItems a vars _, hStops, rfl⟩
  · rcases a.labels.exists_of_not_writableAt _ hOwn with
      ⟨label, hLabel, hName⟩
    have hStop :
        labelItems a.labels (p.address adjust) =
          [.stop (.label .tooLongToWrite)] := by
      simp [labelItems, hLabel, hName]
    refine
      ⟨[], .stop (.label .tooLongToWrite),
        [.ofStep adjust p], _, ?_, by simp, by simp, rfl,
        rfl⟩
    rw [stepItems, hStop]
    rfl

end Listing

end Beeb

------------------------------------------------------------
-- Listings Of Any Analysis
------------------------------------------------------------

namespace Beeb

namespace Disassembly

open Listing

variable (d : Disassembly)
variable (a : Analysis)

/- The parts of a plan up to and with those of steps. -/
def itemsBefore
    (steps : List Placed) : List Item :=
  (headerText a d.vars d.loadAddress).map (.line ∘ .header) ++
    steps.flatMap (stepItems a.labels d.window.adjust)

/- The lines of a listing up to and with those of steps. -/
def linesBefore
    (steps : List Placed) : List Line :=
  (headerText a d.vars d.loadAddress).map .header ++
    steps.flatMap (stepLines a.labels d.vars d.window.adjust)

/- The one is what the other gives. -/
theorem flatMap_lines_itemsBefore
    (steps : List Placed) :
    (d.itemsBefore a steps).flatMap
        (Item.lines a.labels d.vars) =
      d.linesBefore a steps := by
  rw [itemsBefore, List.flatMap_append, flatMap_lines_header,
    List.flatMap_assoc]
  rfl

/- All of it can be written if the steps are passed. -/
theorem failure?_itemsBefore
    (steps : List Placed)
    (hSteps :
      ∀ p ∈ steps,
        p ∈ d.steps ∧ a.Passes d.window.adjust p)
    (item : Item)
    (hMem : item ∈ d.itemsBefore a steps) :
    item.failure? a.labels d.vars = none := by
  rcases List.mem_append.mp hMem with hHeader | hStep
  · rcases List.mem_map.mp hHeader with ⟨text, -, rfl⟩
    rfl
  · rcases List.mem_flatMap.mp hStep with ⟨p, hp, hItem⟩
    rcases hSteps p hp with ⟨hIn, hPasses⟩
    exact
      failure?_of_passes a d.vars d.window.adjust p
        (d.faithful_of_mem_steps p hIn) hPasses item hItem

/-
  The plan up to and with some steps that are all seen.
-/
theorem exists_plan_eq
    (hShort : ∀ v ∈ d.vars, ¬ v.Overlong)
    (hNamed : a.Named)
    (steps later : List Placed)
    (hSteps : d.steps = steps ++ later)
    (hSeen :
      ∀ p ∈ steps, p.address d.window.adjust ∈ a.reachable) :
    ∃ rest,
      plan d a = d.itemsBefore a steps ++ rest ∧
        (later = [] →
          rest = closing a.labels d.window d.steps) ∧
        ∀ p after,
          later = p :: after →
            p.address d.window.adjust ∉ a.reachable →
              rest =
                [.stop
                  (.unseen (p.address d.window.adjust))] := by
  have hContains :
      ∀ p ∈ steps,
        a.reachable.contains (p.address d.window.adjust) =
          true :=
    fun p hp => Std.TreeSet.contains_iff_mem.mpr (hSeen p hp)
  have hPlan := plan_of_named d a hNamed hShort
  unfold body at hPlan
  simp only at hPlan
  rw [hSteps, List.takeWhile_append_of_pos hContains,
    List.dropWhile_append_of_pos hContains,
    List.flatMap_append, List.append_assoc,
    ← List.append_assoc] at hPlan
  refine ⟨_, hPlan, ?_, ?_⟩
  · rintro rfl
    rw [hSteps]
    rfl
  · rintro p after rfl hUnseen
    have hHere :
        a.reachable.contains (p.address d.window.adjust) =
          false := by
      rw [← Bool.not_eq_true, Std.TreeSet.contains_iff_mem]
      exact hUnseen
    simp [hHere]

variable (reports : List Report)
/-
  A listing whose plan goes on after some steps with parts
  that can be written, and then with one that cannot.
-/
theorem drain_of_stopped
    (steps : List Placed)
    (items : List Item)
    (item : Item)
    (rest : List Item)
    (e : ListingError)
    (hPlan :
      plan d a =
        d.itemsBefore a steps ++ (items ++ item :: rest))
    (hSteps :
      ∀ p ∈ steps,
        p ∈ d.steps ∧ a.Passes d.window.adjust p)
    (hSound :
      ∀ item ∈ items, item.failure? a.labels d.vars = none)
    (hStops : item.failure? a.labels d.vars = some e) :
    (Reader.drain d a reports).failure = some e ∧
      (Reader.drain d a reports).lines =
        d.linesBefore a steps ++
          items.flatMap (Item.lines a.labels d.vars) := by
  rw [← List.append_assoc] at hPlan
  have hBefore :
      ∀ item ∈ d.itemsBefore a steps ++ items,
        item.failure? a.labels d.vars = none := by
    intro item hMem
    rcases List.mem_append.mp hMem with hMem | hItem
    · exact d.failure?_itemsBefore a steps hSteps item hMem
    · exact hSound item hItem
  have hRead :=
    read_of_stopped a.labels d.vars
      ((plan d a).length + 1) _ item rest e hBefore hStops
      (by
        rw [hPlan]
        simp only [List.length_append, List.length_cons]
        omega)
  rw [← hPlan, List.flatMap_append,
    d.flatMap_lines_itemsBefore a steps] at hRead
  exact hRead.symm

variable (hShort : ∀ v ∈ d.vars, ¬ v.Overlong)
variable (hNamed : a.Named)

include hShort hNamed

/-
  A step that the analysis has not seen stops the listing
  before its first line.
-/
theorem drain_of_unseen
    (earlier : List Placed)
    (p : Placed)
    (later : List Placed)
    (hSteps : d.steps = earlier ++ p :: later)
    (hEarlier : ∀ q ∈ earlier, a.Passes d.window.adjust q)
    (hUnseen : p.address d.window.adjust ∉ a.reachable) :
    (Reader.drain d a reports).failure =
        some (.unseen (p.address d.window.adjust)) ∧
      (Reader.drain d a reports).lines =
        d.linesBefore a earlier := by
  rcases d.exists_plan_eq a hShort hNamed earlier _ hSteps
      (fun q hq => (hEarlier q hq).seen) with
    ⟨rest, hPlan, -, hRest⟩
  rw [hRest p later rfl hUnseen] at hPlan
  have hRead :=
    d.drain_of_stopped a reports earlier [] _ []
      _ hPlan
      (fun q hq => ⟨by simp [hSteps, hq], hEarlier q hq⟩)
      (by simp) rfl
  simpa using hRead

/-
  A step that it has seen, and whose lines need a label that
  is too long, stops the listing before its own line.
-/
theorem drain_of_illegible
    (earlier : List Placed)
    (p : Placed)
    (later : List Placed)
    (hSteps : d.steps = earlier ++ p :: later)
    (hEarlier : ∀ q ∈ earlier, a.Passes d.window.adjust q)
    (hSeen : p.address d.window.adjust ∈ a.reachable)
    (hNot : ¬ a.Passes d.window.adjust p) :
    ∃ shown e,
      (Reader.drain d a reports).failure = some e ∧
        e.message = NumeralError.tooLongToWrite.message ∧
        (Reader.drain d a reports).lines =
          d.linesBefore a earlier ++ shown ∧
        ∀ line ∈ shown, line.isLabel = true := by
  rcases stepItems_of_illegible a d.vars d.window.adjust p
      (d.faithful_of_mem_steps p (by simp [hSteps])) hSeen
      hNot with
    ⟨before, item, after, e, hItems, hSound, hShown, hStops,
      hReason⟩
  have hSplit : d.steps = (earlier ++ [p]) ++ later := by
    rw [hSteps, List.append_assoc, List.singleton_append]
  have hAllSeen :
      ∀ q ∈ earlier ++ [p],
        q.address d.window.adjust ∈ a.reachable := by
    intro q hq
    rcases List.mem_append.mp hq with hq | hq
    · exact (hEarlier q hq).seen
    · rw [List.mem_singleton.mp hq]
      exact hSeen
  rcases d.exists_plan_eq a hShort hNamed _ _ hSplit hAllSeen
    with ⟨rest, hPlan, -, -⟩
  have hWith :
      d.itemsBefore a (earlier ++ [p]) ++ rest =
        d.itemsBefore a earlier ++
          (before ++ item :: (after ++ rest)) := by
    simp only [itemsBefore, List.flatMap_append,
      List.flatMap_singleton, hItems, List.append_assoc,
      List.cons_append]
  rw [hWith] at hPlan
  rcases d.drain_of_stopped a reports earlier
      before item _ e hPlan
      (fun q hq => ⟨by simp [hSteps, hq], hEarlier q hq⟩)
      hSound hStops with
    ⟨hFailure, hLines⟩
  exact ⟨_, e, hFailure, hReason, hLines, hShown⟩

/-
  A listing that gets past all steps shows all of them. Then
  the number of labels that it came across decides. These
  are all labels only if a step begins at each of them, since
  the steps ascend.
-/
theorem drain_of_passed
    (hSteps :
      ∀ p ∈ d.steps, a.Passes d.window.adjust p) :
    (Reader.drain d a reports).lines =
        d.linesBefore a d.steps ∧
      ((∀ address ∈ a.labels, d.Begins address) →
        (Reader.drain d a reports).failure = none) ∧
      (¬ (∀ address ∈ a.labels, d.Begins address) →
        ∃ emitted,
          emitted < a.labels.size ∧
            (Reader.drain d a reports).failure =
              some
                (.labelCount emitted a.labels.size)) := by
  let emitted :=
    d.steps.countP fun p =>
      a.labels.contains (p.address d.window.adjust)
  have hAscending :=
    Analysis.addresses_ascending d.window.adjust d.steps
      d.steps_ascending
  rcases a.labels.countP_contains _ hAscending with
    ⟨hAtMost, hAllMet⟩
  rw [List.countP_map] at hAtMost hAllMet
  simp only [List.mem_map] at hAllMet
  change emitted ≤ a.labels.size at hAtMost
  change
    emitted = a.labels.size ↔
      ∀ address ∈ a.labels, d.Begins address at hAllMet
  rw [← hAllMet]
  have hAll :
      ∀ p ∈ d.steps,
        p ∈ d.steps ∧ a.Passes d.window.adjust p :=
    fun p hp => ⟨hp, hSteps p hp⟩
  rcases d.exists_plan_eq a hShort hNamed d.steps [] (by simp)
      (fun p hp => (hSteps p hp).seen) with
    ⟨rest, hPlan, hRest, -⟩
  rw [hRest rfl] at hPlan
  -- The plan ends with the last check alone: it fails, or
  -- gives no line.
  by_cases hCount : emitted = a.labels.size
  · have hClosing :
        (∀ item ∈ closing a.labels d.window d.steps,
            item.failure? a.labels d.vars = none) ∧
          (closing a.labels d.window d.steps).flatMap
              (Item.lines a.labels d.vars) = [] := by
      rcases closing_of_count a.labels d.window d.steps
          hCount with
        hNone | ⟨r, hRemark⟩
      · simp [hNone]
      · simp [hRemark, Item.failure?, Item.lines]
    have hSound :
        ∀ item ∈ plan d a,
          item.failure? a.labels d.vars = none := by
      intro item hMem
      rw [hPlan] at hMem
      rcases List.mem_append.mp hMem with hMem | hItem
      · exact
          d.failure?_itemsBefore a d.steps hAll item hMem
      · exact hClosing.1 item hItem
    rcases read_of_sound a.labels d.vars
        ((plan d a).length + 1) (plan d a) hSound
        (by omega) with
      ⟨hLines, hFailure⟩
    refine
      ⟨hLines.trans ?_, fun _ => hFailure, fun hDiffer =>
        absurd hCount hDiffer⟩
    rw [hPlan, List.flatMap_append,
      d.flatMap_lines_itemsBefore a d.steps, hClosing.2,
      List.append_nil]
  · have hClosing :
        closing a.labels d.window d.steps =
          [] ++
            [.stop (.labelCount emitted a.labels.size)] := by
      unfold closing
      simp only
      rw [if_pos hCount]
      rfl
    rw [hClosing] at hPlan
    rcases d.drain_of_stopped a reports d.steps [] _ [] _
        hPlan hAll (by simp) rfl with
      ⟨hFailure, hLines⟩
    rw [List.flatMap_nil, List.append_nil] at hLines
    exact
      ⟨hLines, fun hSame => absurd hSame hCount, fun _ =>
        ⟨emitted, Nat.lt_of_le_of_ne hAtMost hCount,
          hFailure⟩⟩

/-
  A listing that ends without a failure got past all steps.
-/
theorem passes_of_drain
    (hWritten : (Reader.drain d a reports).failure = none)
    (p : Placed)
    (hMem : p ∈ d.steps) :
    a.Passes d.window.adjust p := by
  classical
  by_contra hNot
  -- The first step that is not passed stops the listing.
  have hFound :
      d.steps.find?
          (fun q => decide ¬ a.Passes d.window.adjust q) ≠
        none := by
    intro hNone
    rw [List.find?_eq_none] at hNone
    exact hNone p hMem (decide_eq_true hNot)
  rcases Option.ne_none_iff_exists'.mp hFound with
    ⟨first, hFirst⟩
  rcases List.find?_eq_some_iff_append.mp hFirst with
    ⟨hStops, earlier, later, hSteps, hEarlier⟩
  have hStops : ¬ a.Passes d.window.adjust first := by
    simpa using hStops
  have hEarlier :
      ∀ q ∈ earlier, a.Passes d.window.adjust q := by
    simpa using hEarlier
  by_cases hSeen :
      first.address d.window.adjust ∈ a.reachable
  · rcases d.drain_of_illegible a reports hShort hNamed
        earlier first later hSteps hEarlier hSeen hStops with
      ⟨shown, e, hFailure, -⟩
    rw [hWritten] at hFailure
    cases hFailure
  · rw [(d.drain_of_unseen a reports hShort hNamed earlier
      first later hSteps hEarlier hSeen).1] at hWritten
    cases hWritten

end Disassembly

end Beeb

------------------------------------------------------------
-- The Checks Between The Passes
------------------------------------------------------------

namespace Beeb

namespace Disassembly

open Listing

/-
  The checks between the passes are complete: whatever
  analysis is put in place of the one that the program has,
  as long as its system symbols have names. The listing ends
  without a failure if and only if the analysis has seen
  every step, a step begins at every address that it labels,
  and the labels that the lines show are not too long. The
  first step that it has not seen stops the listing behind
  the lines of the earlier steps, and the failure tells its
  address. If all steps were seen, a labelled address at
  which no step begins makes the listing fail behind its
  last line, over the number of labels. Labels that are too
  long stop it at the first step that shows one.
-/
theorem drain_ends_iff
    (d : Disassembly)
    (a : Analysis)
    (reports : List Report)
    (hShort : ∀ v ∈ d.vars, ¬ v.Overlong)
    (hNamed : a.Named) :
    let result := Reader.drain d a reports
    let adjust := d.window.adjust
    (result.failure = none ↔
        (∀ p ∈ d.steps, a.Passes adjust p) ∧
          ∀ address ∈ a.labels, d.Begins address) ∧
      (∀ earlier p later,
        d.steps = earlier ++ p :: later →
          (∀ q ∈ earlier, a.Passes adjust q) →
            (p.address adjust ∉ a.reachable →
              result.failure =
                  some (.unseen (p.address adjust)) ∧
                result.lines = d.linesBefore a earlier) ∧
              (p.address adjust ∈ a.reachable →
                ¬ a.Passes adjust p →
                  ∃ shown e,
                    result.failure = some e ∧
                      e.message =
                        NumeralError.tooLongToWrite.message ∧
                      result.lines =
                        d.linesBefore a earlier ++ shown ∧
                      ∀ line ∈ shown,
                        line.isLabel = true)) ∧
      ((∀ p ∈ d.steps, a.Passes adjust p) →
        result.lines = d.linesBefore a d.steps ∧
          (¬ (∀ address ∈ a.labels, d.Begins address) →
            ∃ emitted,
              emitted < a.labels.size ∧
                result.failure =
                  some
                    (.labelCount emitted
                      a.labels.size))) := by
  intro result adjust
  have hPassed :
      (∀ p ∈ d.steps, a.Passes adjust p) → _ :=
    d.drain_of_passed a reports hShort hNamed
  refine ⟨⟨fun hWritten => ?_, ?_⟩, ?_, ?_⟩
  · have hSteps :=
      d.passes_of_drain a reports hShort hNamed hWritten
    refine ⟨hSteps, ?_⟩
    by_contra hNot
    rcases (hPassed hSteps).2.2 hNot with
      ⟨emitted, -, hFailure⟩
    rw [hFailure] at hWritten
    cases hWritten
  · rintro ⟨hSteps, hBegun⟩
    exact (hPassed hSteps).2.1 hBegun
  · intro earlier p later hSteps hEarlier
    exact
      ⟨d.drain_of_unseen a reports hShort hNamed earlier p
          later hSteps hEarlier,
        d.drain_of_illegible a reports hShort hNamed earlier p
          later hSteps hEarlier⟩
  · intro hSteps
    rcases hPassed hSteps with ⟨hLines, -, hCount⟩
    exact ⟨hLines, hCount⟩

/-
  A label at an address past the only step: the step is
  shown, and then the numbers of labels differ.
-/
theorem drain_ends_iff_label_past_end :
    let d : Disassembly :=
      ⟨#[0x60], ⟨0, 1, 0⟩, [], [], rfl⟩
    let a : Analysis :=
      { labels := .number [1]
        reachable := .ofList [(0 : Int)] }
    (∀ v ∈ d.vars, ¬ v.Overlong) ∧
      a.Named ∧
      (Reader.drain d a []).failure =
        some (.labelCount 0 1) ∧
      (Reader.drain d a []).lines =
        d.linesBefore a d.steps := by
  intro d a
  have hShort : ∀ v ∈ d.vars, ¬ v.Overlong := by
    intro v hv
    cases hv
  have hNamed : a.Named := ⟨by simp [a], by simp [a]⟩
  have hNumbered : a.labels.Numbered := by
    intro address label hLabel
    rcases (Labels.getElem?_number [1] (by simp) address
        label).mp hLabel with
      ⟨index, -, rfl⟩
    exact ⟨index, rfl⟩
  have hSteps :
      ∀ p ∈ d.steps, a.Passes d.window.adjust p := by
    have hOnly :
        d.steps =
          [⟨0, .code ⟨0x60, "RTS", 1, some .implicit⟩,
            [0x60]⟩] := by
      decide +kernel
    intro p hMem
    rw [hOnly, List.mem_singleton] at hMem
    subst hMem
    refine ⟨by decide +kernel, fun address _ => ?_⟩
    exact Labels.Numbered.writable hNumbered address
  have hNotBegun :
      ¬ (∀ address ∈ a.labels, d.Begins address) := by
    intro hAll
    rcases hAll 1 (by decide +kernel) with ⟨p, hMem, hSame⟩
    have hOther :
        ∀ p ∈ d.steps, p.address d.window.adjust ≠ 1 := by
      decide +kernel
    exact hOther p hMem hSame
  rcases (d.drain_ends_iff a [] hShort hNamed).2.2 hSteps with
    ⟨hLines, hCount⟩
  rcases hCount hNotBegun with ⟨emitted, hFewer, hFailure⟩
  have hOne : a.labels.size = 1 := by decide +kernel
  rw [hOne] at hFewer hFailure
  cases Nat.lt_one_iff.mp hFewer
  exact ⟨hShort, hNamed, hFailure, hLines⟩

/-
  A label whose number has too many digits has no name. It
  makes the listing fail, although the only step was seen
  and begins at it.
-/
theorem overlong_label_stops :
    let index := Int.ofNat (Nat.pow 10 Numeral.digitLimit)
    let d : Disassembly :=
      ⟨#[0x60], ⟨0, 1, 0⟩, [], [], rfl⟩
    let a : Analysis :=
      { labels :=
          .ofList [((0 : Int), Label.ofIndex index)]
        reachable := .ofList [(0 : Int)] }
    (Label.ofIndex index).name = .error .tooLongToWrite ∧
      (∀ p ∈ d.steps,
        p.address d.window.adjust ∈ a.reachable) ∧
      (∀ address ∈ a.labels, d.Begins address) ∧
      (Reader.drain d a []).failure =
        some (.label .tooLongToWrite) := by
  intro index d a
  have hLong : Label.ofIndex index = .overlong index :=
    Label.ofIndex_of_large _ (Nat.le_refl _)
  refine ⟨by rw [hLong]; rfl, by decide +kernel, ?_, ?_⟩
  · intro address hLabelled
    have hZero : [(0 : Int)].contains address = true :=
      Std.TreeMap.mem_ofList.mp hLabelled
    rw [List.contains_iff_mem, List.mem_singleton] at hZero
    exact ⟨_, List.mem_of_mem_head? rfl, hZero.symm⟩
  · simp only [a, hLong]
    decide +kernel

end Disassembly

end Beeb
