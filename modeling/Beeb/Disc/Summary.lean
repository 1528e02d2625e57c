import Beeb.Disc.Image
import Beeb.Numeral.Reader
import Beeb.Text.Split

/-
  Summaries: what the description of a disc image shows, and
  how it is read off the lines of a description.

  A line for a number has its name in the first twelve
  columns.  The line of a file has the filename in the first
  seven, and numbers after it with spaces between them.

  Key definitions include:
    * `Beeb.Text.words`
    * `Beeb.Disc.Row`
    * `Beeb.Disc.Row.read?`
    * `Beeb.Disc.Summary`
    * `Beeb.Disc.Image.summary`
    * `Beeb.Disc.Summary.read?`
-/

------------------------------------------------------------
-- Words
------------------------------------------------------------

namespace Beeb

namespace Text

/- The words of a text: what stands between its spaces. -/
def words
    (cs : List Char) : List (List Char) :=
  (splitChars ' ' cs).filter (!·.isEmpty)

/- Words on both sides of a space. -/
theorem words_append
    (cs ds : List Char) :
    words (cs ++ ' ' :: ds) = words cs ++ words ds := by
  rw [words, splitChars_append, List.filter_append]
  rfl

/- A text without a space is a word, if it is not empty. -/
theorem words_of_notMem
    (cs : List Char)
    (hSolid : ' ' ∉ cs)
    (hSome : cs ≠ []) :
    words cs = [cs] := by
  rw [words, splitChars_of_notMem ' ' cs hSolid]
  simp [hSome]

/- Spaces before words do not matter. -/
theorem words_replicate_append
    (count : Nat)
    (cs : List Char) :
    words (List.replicate count ' ' ++ cs) = words cs := by
  induction count with
  | zero => rfl
  | succ count ih =>
    rw [List.replicate_succ, List.cons_append]
    exact (words_append [] _).trans ih

end Text

end Beeb

------------------------------------------------------------
-- Rows
------------------------------------------------------------

namespace Beeb

namespace Disc

/- What a description shows of a file. -/
structure Row where
  filename : String
  length : Int
  loadAddress : Nat
  execAddress : Nat
  startSector : Int
deriving DecidableEq, Repr

/- What a description shows of an entry. -/
def Entry.shown
    (e : Entry) : Row :=
  ⟨e.filename, e.length, e.loadAddress, e.execAddress,
    e.startSector⟩

/- Read the line of a file. -/
def Row.read?
    (text : String) : Option Row :=
  let cs := text.toList
  match Text.words (cs.drop 7) with
  | [length, loadAddress, execAddress, startSector] =>
    some
      { filename :=
          String.ofList (Text.dropEnd isFiller (cs.take 7))
        length := Numeral.value 16 length
        loadAddress := Numeral.value 16 loadAddress
        execAddress := Numeral.value 16 execAddress
        startSector := Numeral.value 10 startSector }
  | _ => none

end Disc

end Beeb

------------------------------------------------------------
-- Summaries
------------------------------------------------------------

namespace Beeb

namespace Disc

/- What a description shows of an image. -/
structure Summary where
  title : String
  fileCount : Nat
  sectors : Nat
  bootOption : Nat
  cycle : Nat
  rows : List Row
deriving DecidableEq, Repr

/- What the description of an image shows. -/
def Image.summary
    (image : Image) : Summary :=
  { title := image.title
    fileCount := image.entries.length
    sectors := image.sectors
    bootOption := image.bootOption
    cycle := image.cycle
    rows := image.entries.map Entry.shown }

/- Read the lines of a description. -/
def Summary.read? : List String → Option Summary
| title :: fileCount :: sectors :: bootOption :: cycle ::
    _ :: _ :: files => do
  let decimal := fun line : String =>
    Numeral.value 10 (line.toList.drop 12)
  let rows ← files.mapM Row.read?
  return { title := String.ofList (title.toList.drop 12)
           fileCount := decimal fileCount
           sectors := decimal sectors
           bootOption := decimal bootOption
           cycle := Numeral.value 16 (cycle.toList.drop 14)
           rows }
| _ => none

end Disc

end Beeb
