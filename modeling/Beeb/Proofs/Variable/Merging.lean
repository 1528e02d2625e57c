import Beeb.Listing.Session
import Beeb.Proofs.Command.Arguments
import Mathlib.Data.List.Induction

/-
  Lists of variables in which later definitions replace
  earlier ones.

  What is left of a list are the last definitions of its
  names, in their order.  It does not matter whether
  definitions are merged at once or in parts, so a user who
  adds them one by one holds what merging all of them gives.

  Main declarations:
    * `Variable.lasting`
    * `Variable.merge_eq_lasting`
    * `Variable.merge_merge_append`
    * `Variable.merge_append_merge`
    * `Listing.Session.vars_run`
    * `Listing.Session.merging_keeps_last`
-/

------------------------------------------------------------
-- Last Definitions
------------------------------------------------------------

namespace Beeb

namespace Variable

/-
  The definitions whose names are not defined again behind
  them.
-/
def lasting : List Variable → List Variable
| [] => []
| v :: later =>
  if v.name ∈ later.map name then lasting later
  else v :: lasting later

/-
  More definitions leave those whose names they do not
  define.
-/
theorem lasting_append
    (vars later : List Variable) :
    lasting (vars ++ later) =
      (lasting vars).filter (·.name ∉ later.map name) ++
        lasting later := by
  induction vars with
  | nil => rfl
  | cons v vars ih =>
    simp only [List.cons_append, lasting, ih, List.map_append,
      List.mem_append]
    by_cases hSooner : v.name ∈ vars.map name
    · rw [if_pos (Or.inl hSooner), if_pos hSooner]
    rw [if_neg hSooner]
    by_cases hLater : v.name ∈ later.map name
    · rw [if_pos (Or.inr hLater),
        List.filter_cons_of_neg (by simpa using hLater)]
    · rw [if_neg (by tauto),
        List.filter_cons_of_pos (by simpa using hLater)]
      rfl

/- What is left when definitions are merged. -/
theorem merge_eq_lasting
    (vars : List Variable) :
    merge vars = lasting vars := by
  induction vars using List.reverseRecOn with
  | nil => rfl
  | append_singleton vars v ih =>
    have hDefine : merge (vars ++ [v]) = define (merge vars) v := by
      simp [merge]
    rw [hDefine, ih, lasting_append, define]
    simp [lasting]

/- The names that are left are those that are defined. -/
theorem mem_names_lasting
    (vars : List Variable)
    (other : String) :
    other ∈ (lasting vars).map name ↔ other ∈ vars.map name := by
  induction vars with
  | nil => rfl
  | cons v vars ih =>
    rw [lasting, List.map_cons, List.mem_cons]
    split
    · rename_i hLater
      rw [ih]
      constructor
      · exact .inr
      · rintro (rfl | hMem)
        · exact hLater
        · exact hMem
    · rw [List.map_cons, List.mem_cons, ih]

/- A definition is left if none of its name is behind it. -/
theorem mem_lasting_iff
    (vars : List Variable)
    (v : Variable) :
    v ∈ lasting vars ↔
      ∃ before after,
        vars = before ++ v :: after ∧
          v.name ∉ after.map name := by
  constructor
  · intro hMem
    induction vars with
    | nil => cases hMem
    | cons w vars ih =>
      have hSplit :
          v ∈ lasting vars →
            ∃ before after,
              w :: vars = before ++ v :: after ∧
                v.name ∉ after.map name := by
        intro hLater
        rcases ih hLater with ⟨before, after, rfl, hLast⟩
        exact ⟨w :: before, after, rfl, hLast⟩
      rw [lasting] at hMem
      split at hMem
      · exact hSplit hMem
      · rename_i hLast
        rcases List.mem_cons.mp hMem with rfl | hLater
        · exact ⟨[], vars, rfl, hLast⟩
        · exact hSplit hLater
  · rintro ⟨before, after, rfl, hLast⟩
    rw [lasting_append, lasting, if_neg hLast]
    simp

end Variable

end Beeb

------------------------------------------------------------
-- Merging In Parts
------------------------------------------------------------

namespace Beeb

namespace Variable

/- Nothing is replaced if all names are different. -/
theorem lasting_of_nodup
    (vars : List Variable)
    (hNodup : (vars.map name).Nodup) :
    lasting vars = vars := by
  induction vars with
  | nil => rfl
  | cons v vars ih =>
    rw [List.map_cons, List.nodup_cons] at hNodup
    rw [lasting, if_neg hNodup.1, ih hNodup.2]

/- To merge again changes nothing. -/
theorem merge_merge
    (vars : List Variable) :
    merge (merge vars) = merge vars := by
  rw [merge_eq_lasting (merge vars)]
  exact lasting_of_nodup _ (nodup_merge vars)

/- The first definitions may be merged before the others. -/
theorem merge_merge_append
    (vars later : List Variable) :
    merge (merge vars ++ later) = merge (vars ++ later) := by
  have hFirst : lasting (merge vars) = lasting vars := by
    rw [← merge_eq_lasting, merge_merge, merge_eq_lasting]
  rw [merge_eq_lasting, merge_eq_lasting (vars ++ later),
    lasting_append, lasting_append, hFirst]

/- So may the last ones. -/
theorem merge_append_merge
    (vars later : List Variable) :
    merge (vars ++ merge later) = merge (vars ++ later) := by
  have hLater : lasting (merge later) = lasting later := by
    rw [← merge_eq_lasting, merge_merge, merge_eq_lasting]
  have hNames :
      ∀ v : Variable,
        v.name ∉ (merge later).map name ↔
          v.name ∉ later.map name := by
    intro v
    rw [merge_eq_lasting, mem_names_lasting]
  rw [merge_eq_lasting, merge_eq_lasting (vars ++ later),
    lasting_append, lasting_append, hLater]
  simp only [hNames]

end Variable

end Beeb

------------------------------------------------------------
-- Variables Of A Session
------------------------------------------------------------

namespace Beeb

namespace Listing

namespace Session

open Variable

/- One action adds its variables to those that were merged. -/
theorem vars_act
    (s : Session)
    (action : Action)
    (given : List Variable)
    (hMerged : s.disassembly.vars = merge given) :
    (s.act action).2.disassembly.vars =
      merge (given ++ action.added) := by
  have hAdd :
      ∀ v : Variable,
        (s.disassembly.add v).vars = merge (given ++ [v]) := by
    intro v
    rw [Disassembly.add, hMerged, merge_merge_append]
  cases action with
  | add v => exact hAdd v
  | define definition =>
    cases hParse : Variable.parse definition with
    | ok v =>
      simp only [act, Disassembly.addDefinition, hParse,
        Action.added]
      exact hAdd v
    | error e =>
      simp only [act, Disassembly.addDefinition, hParse,
        Action.added]
      simpa [change, Except.map, Except.toOption] using hMerged
  | read count =>
    rw [Action.added, List.append_nil]
    exact hMerged

/- The variables after any actions. -/
theorem vars_run
    (s : Session)
    (actions : List Action)
    (given : List Variable)
    (hMerged : s.disassembly.vars = merge given) :
    (s.run actions).disassembly.vars =
      merge (given ++ actions.flatMap Action.added) := by
  induction actions generalizing s given with
  | nil => simpa [run] using hMerged
  | cons action actions ih =>
    have hNext :=
      ih (s.act action).2 (given ++ action.added)
        (s.vars_act action given hMerged)
    rw [List.flatMap_cons, ← List.append_assoc, ← hNext]
    rfl

/- A definition that is refused changes nothing. -/
theorem act_of_refused
    (s : Session)
    (definition : String)
    (e : VariableError)
    (hRefused : Variable.parse definition = .error e) :
    s.disassembly.addDefinition definition = .error e ∧
      (s.act (.define definition)).2 = s := by
  have hAdd :
      s.disassembly.addDefinition definition = .error e := by
    rw [Disassembly.addDefinition, hRefused]
    rfl
  refine ⟨hAdd, ?_⟩
  rw [act, hAdd]
  rfl

/-
  Merging keeps the last definition of each name, in the
  order of these, and may be done in parts. So a session
  holds what merging the variables it began with and all
  that were added gives, and a definition that is refused
  leaves it as it was.
-/
theorem merging_keeps_last :
    (∀ a b c : List Variable,
      let merged := merge (a ++ b ++ c)
      (merged.map name).Nodup ∧
        merged = lasting (a ++ b ++ c) ∧
        (∀ v,
          v ∈ merged ↔
            ∃ before after,
              a ++ b ++ c = before ++ v :: after ∧
                v.name ∉ after.map name) ∧
        merged = merge (merge (a ++ b) ++ c) ∧
        merged = merge (a ++ merge (b ++ c))) ∧
    (∀ (program : Bytes) (window : Window)
        (codeAddresses : List Int) (given : List Variable)
        (d : Disassembly),
      Disassembly.create program window codeAddresses given =
          .ok d →
        ∀ (reader : Reader) (actions : List Action),
          (run ⟨d, reader⟩ actions).disassembly.vars =
            merge (given ++ actions.flatMap Action.added)) ∧
    (∀ (s : Session) (definition : String) (e : VariableError),
      Variable.parse definition = .error e →
        s.disassembly.addDefinition definition = .error e ∧
          (s.act (.define definition)).2 = s) := by
  refine ⟨fun a b c => ?_, ?_, act_of_refused⟩
  · refine
      ⟨nodup_merge _, merge_eq_lasting _, fun v => ?_, ?_, ?_⟩
    · rw [merge_eq_lasting]
      exact mem_lasting_iff _ v
    · rw [merge_merge_append]
    · rw [merge_append_merge, List.append_assoc]
  · intro program window codeAddresses given d hCreate reader
      actions
    have hMerged : d.vars = merge given :=
      ((Disassembly.create_eq_ok_iff _ _ _ _ d).mp
        hCreate).2.2.2
    exact vars_run ⟨d, reader⟩ actions given hMerged

/-
  A session that redefines two names, the one of them twice,
  and tries a definition that is refused.
-/
theorem merging_keeps_last_refused :
    let given : List Variable :=
      [⟨"lives", 1⟩, ⟨"score", 2⟩, ⟨"lives", 3⟩]
    let actions : List Action :=
      [.add ⟨"score", 5⟩, .define "level=&7", .define "1up=3",
        .read 2, .define "lives = 4"]
    ∃ d,
      Disassembly.create #[0x60] ⟨0, 1, 0⟩ [] given = .ok d ∧
        d.vars = [⟨"score", 2⟩, ⟨"lives", 3⟩] ∧
        d.addDefinition "1up=3" = .error (.badName "1up") ∧
        (run ⟨d, .fresh⟩ actions).disassembly.vars =
          [⟨"score", 5⟩, ⟨"level", 7⟩, ⟨"lives", 4⟩] := by
  intro given actions
  let d : Disassembly :=
    ⟨#[0x60], ⟨0, 1, 0⟩, [], merge given, rfl⟩
  have hCreate :
      Disassembly.create #[0x60] ⟨0, 1, 0⟩ [] given = .ok d :=
    (Disassembly.create_eq_ok_iff _ _ _ _ d).mpr
      ⟨rfl, rfl, rfl, rfl⟩
  have hRefused :
      Variable.parse "1up=3" = .error (.badName "1up") :=
    rfl
  have hRun :=
    merging_keeps_last.2.1 _ _ _ given d hCreate .fresh actions
  have hLast :
      merge (given ++ actions.flatMap Action.added) =
        [⟨"score", 5⟩, ⟨"level", 7⟩, ⟨"lives", 4⟩] :=
    rfl
  refine ⟨d, hCreate, rfl, ?_, hRun.trans hLast⟩
  exact (merging_keeps_last.2.2 ⟨d, .fresh⟩ _ _ hRefused).1

end Session

end Listing

end Beeb
