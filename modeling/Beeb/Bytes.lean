/-
  Bytes and positions in them.

  Positions are integers.  A negative position counts back
  from the end, so `-1` is the position of the last byte.
  Fetching a byte outside fails; a slice is cut to what is
  there.

  Key definitions include:
    * `Beeb.Bytes`
    * `Beeb.FetchError`
    * `Beeb.Bytes.fetch`
    * `Beeb.Bytes.clamp`
    * `Beeb.Bytes.slice`
-/

------------------------------------------------------------
-- Positions
------------------------------------------------------------

namespace Beeb

/- The contents of a program, a file or a disc image. -/
abbrev Bytes := Array UInt8

/- A position at which there is no byte. -/
structure FetchError where
  position : Int
deriving DecidableEq, Repr

/- The least number that does not fit in 63 bits. -/
def FetchError.limit : Int := 0x8000000000000000

/-
  The wording of a fetch error; positions beyond 63 bits
  have their own.
-/
def FetchError.message
    (e : FetchError) : String :=
  if -limit ≤ e.position ∧ e.position < limit then
    "index out of range"
  else
    "cannot fit 'int' into an index-sized integer"

namespace Bytes

/- The byte at a position. -/
def fetch
    (bytes : Bytes)
    (position : Int) : Except FetchError UInt8 :=
  let index :=
    if position < 0 then position + bytes.size else position
  if index < 0 then .error ⟨position⟩
  else
    match bytes[index.toNat]? with
    | some b => .ok b
    | none => .error ⟨position⟩

/- The index that a slice bound stands for. -/
def clamp
    (size : Nat)
    (position : Int) : Nat :=
  if position < 0 then (position + size).toNat
  else min position.toNat size

/-
  The bytes from one position up to another, as far as there
  are any.
-/
def slice
    (bytes : Bytes)
    (start stop : Int) : Bytes :=
  bytes.extract (clamp bytes.size start) (clamp bytes.size stop)

/- The byte at an index, zero past the end. -/
def byteAt
    (bytes : Bytes)
    (index : Nat) : Nat :=
  (bytes.getD index 0).toNat

end Bytes

end Beeb
