import Beeb.Listing.Plan

/-
  Readers: a listing that is read a few lines at a time.

  The analysis is made, and the header written, when the
  first line is asked for.  Each later line is written with
  the variables that the disassembly has when that line is
  asked for.  What comes after the last line happens only
  when one more line is asked for.

  Key definitions include:
    * `Beeb.Listing.Chunk`
    * `Beeb.Listing.read`
    * `Beeb.Listing.Reader`
    * `Beeb.Listing.Reader.ended`
    * `Beeb.Listing.Reader.next`
    * `Beeb.Listing.Reader.drain`
    * `Beeb.Disassembly.read`
    * `Beeb.Disassembly.listing`
-/

------------------------------------------------------------
-- Reading A Plan
------------------------------------------------------------

namespace Beeb

namespace Listing

/-
  What reading gave: lines, reports, what went wrong, and
  what is left.
-/
structure Chunk where
  lines : List Line
  reports : List Report
  failure : Option ListingError
  rest : List Item

/- The line of an instruction, with its operand. -/
def instructionLine
    (labels : Labels)
    (vars : List Variable)
    (i : Instruction)
    (address : Int)
    (data : List UInt8) : Except OperandError Line :=
  (Operand.text i data address labels vars).map
    fun operand =>
      .instruction i.mnemonic operand address data

/-
  Read up to `limit` lines of a plan. `done` and `noted`
  hold the lines and the reports before, latest first.
-/
def readOnto
    (labels : Labels)
    (vars : List Variable)
    (limit : Nat)
    (items : List Item)
    (done : List Line)
    (noted : List Report) : Chunk :=
  match limit, items with
  | 0, rest => ⟨done.reverse, noted.reverse, none, rest⟩
  | _ + 1, [] => ⟨done.reverse, noted.reverse, none, []⟩
  | limit + 1, .line line :: rest =>
    readOnto labels vars limit rest (line :: done) noted
  | limit + 1, .instruction i address data :: rest =>
    match instructionLine labels vars i address data with
    | .ok line =>
      readOnto labels vars limit rest (line :: done) noted
    | .error e =>
      ⟨done.reverse, noted.reverse, some (.operand e), []⟩
  | limit + 1, .remark r :: rest =>
    readOnto labels vars (limit + 1) rest done (r :: noted)
  | _ + 1, .stop e :: _ =>
    ⟨done.reverse, noted.reverse, some e, []⟩
termination_by structural items

/- Read up to `limit` lines of a plan. -/
def read
    (labels : Labels)
    (vars : List Variable)
    (limit : Nat)
    (items : List Item) : Chunk :=
  readOnto labels vars limit items [] []

/-
  The lines and reports before do not matter to those that
  follow.
-/
theorem readOnto_eq
    (labels : Labels)
    (vars : List Variable)
    (limit : Nat)
    (items : List Item)
    (done : List Line)
    (noted : List Report) :
    readOnto labels vars limit items done noted =
      let chunk := read labels vars limit items
      { chunk with
        lines := done.reverse ++ chunk.lines
        reports := noted.reverse ++ chunk.reports } := by
  induction items generalizing limit done noted with
  | nil => cases limit <;> simp [read, readOnto]
  | cons item items ih =>
    cases limit with
    | zero => simp [read, readOnto]
    | succ limit =>
      cases item with
      | line l =>
        simp only [read, readOnto]
        rw [ih, ih limit [l] []]
        simp
      | instruction i address data =>
        simp only [read, readOnto]
        cases instructionLine labels vars i address data with
        | ok l =>
          simp only
          rw [ih, ih limit [l] []]
          simp
        | error e => simp
      | remark r =>
        simp only [read, readOnto]
        rw [ih, ih (limit + 1) [] [r]]
        simp
      | stop e => simp [read, readOnto]

end Listing

end Beeb

------------------------------------------------------------
-- Readers
------------------------------------------------------------

namespace Beeb

namespace Listing

/- A listing that has been read in part. -/
inductive Reader where
/- Nothing has been asked for yet. -/
| fresh
/-
  The labels of the analysis, and what is left of the plan.
-/
| reading (labels : Labels) (rest : List Item)

namespace Reader

/- Whether nothing is left to be read. -/
def ended : Reader → Bool
| .fresh => false
| .reading _ rest => rest.isEmpty

/-
  The lines, reports and failure of one reading, and the
  reader after it.
-/
structure Result where
  lines : List Line
  reports : List Report
  failure : Option ListingError
  reader : Reader

/- Read on in a plan. -/
def resume
    (labels : Labels)
    (vars : List Variable)
    (limit : Nat)
    (items : List Item)
    (reports : List Report) : Result :=
  let chunk := read labels vars limit items
  ⟨chunk.lines, reports ++ chunk.reports, chunk.failure,
    .reading labels chunk.rest⟩

/- Read up to `limit` further lines. -/
def next
    (d : Disassembly)
    (limit : Nat) : Reader → Result
| .fresh =>
  if limit = 0 then ⟨[], [], none, .fresh⟩
  else
    let a := d.analysis
    resume a.labels d.vars limit (plan d a)
      (d.strayReports ++ [a.report])
| .reading labels rest =>
  resume labels d.vars limit rest []

/-
  Read all of the listing that an analysis gives; `reports`
  came with the analysis. One line more than the plan can
  have reaches its end.
-/
def drain
    (d : Disassembly)
    (a : Analysis)
    (reports : List Report) : Result :=
  let items := plan d a
  resume a.labels d.vars (items.length + 1) items
    (d.strayReports ++ reports)

end Reader

end Listing

end Beeb

------------------------------------------------------------
-- Whole Listings
------------------------------------------------------------

namespace Beeb

namespace Disassembly

/-
  All lines of the listing, with the reports and the failure
  if there is one.
-/
def read
    (d : Disassembly) : Listing.Reader.Result :=
  let a := d.analysis
  Listing.Reader.drain d a [a.report]

/- Lines as one text, each ended by a line feed. -/
def joinLines
    (lines : List Listing.Line) : String :=
  String.join (lines.map (·.render ++ "\n"))

/-
  The listing as one text, with the reports made on the way.
-/
def listing
    (d : Disassembly) :
    Except Listing.ListingError String × List Report :=
  let result := d.read
  match result.failure with
  | some e => (.error e, result.reports)
  | none => (.ok (joinLines result.lines), result.reports)

end Disassembly

end Beeb
