/-
  The machine operating system of the BBC Micro: its entry
  points and its vectors.

  A vector is a pointer of two bytes, listed under the
  address of its low byte.

  Key definitions include:
    * `Beeb.Mos.calls`
    * `Beeb.Mos.vectors`
    * `Beeb.Mos.callName?`
    * `Beeb.Mos.vectorName?`
    * `Beeb.Mos.vectorBase?`
-/

------------------------------------------------------------
-- Entry Points And Vectors
------------------------------------------------------------

namespace Beeb

namespace Mos

/- Names of addresses. -/
abbrev Names := List (Int × String)

/- The name of an address. -/
def Names.find?
    (names : Names)
    (address : Int) : Option String :=
  List.lookup address names

/- The entry points. -/
def calls : Names := [
  (0xFFB9, "OSRDRM"),
  (0xFFBF, "OSEVEN"),
  (0xFFC2, "GSINIT"),
  (0xFFC5, "GSREAD"),
  (0xFFC8, "NVRDCH"),
  (0xFFCB, "NVWRCH"),
  (0xFFCE, "OSFIND"),
  (0xFFE0, "OSRDCH"),
  (0xFFE3, "OSASCI"),
  (0xFFE7, "OSNEWL"),
  (0xFFEE, "OSWRCH"),
  (0xFFF1, "OSWORD"),
  (0xFFF4, "OSBYTE"),
  (0xFFF7, "OSCLI")
]

/- The vectors. -/
def vectors : Names := [
  (0x200, "USERV"),
  (0x202, "BRKV"),
  (0x204, "IRQ1V"),
  (0x206, "IRQ2V"),
  (0x208, "CLIV"),
  (0x20A, "BYTEV"),
  (0x20C, "WORDV"),
  (0x20E, "WRCHV"),
  (0x210, "RDCHV"),
  (0x212, "FILEV"),
  (0x214, "ARGV"),
  (0x216, "BGETV"),
  (0x218, "BPUTV"),
  (0x21A, "GBPBV"),
  (0x21C, "FINDV"),
  (0x21E, "FSCV"),
  (0x220, "EVENTV"),
  (0x222, "UPTV"),
  (0x224, "NETV"),
  (0x226, "VDUV"),
  (0x228, "KEYV"),
  (0x22A, "INSV"),
  (0x22C, "REMV"),
  (0x22E, "CNPV"),
  (0x230, "IND1V"),
  (0x232, "IND2V"),
  (0x234, "IND3V")
]

/- The name of an entry point. -/
def callName?
    (address : Int) : Option String :=
  calls.find? address

/- The name of the vector whose low byte is at an address. -/
def vectorName?
    (address : Int) : Option String :=
  vectors.find? address

/- The even address at or just below an address. -/
def evenBase
    (address : Int) : Int :=
  address - address % 2

/-
  Only the second byte of a vector is known by its base: an
  even address would have the name of its base.
-/
theorem evenBase_add_one
    (address : Int)
    (name : String)
    (hUnnamed : vectorName? address = none)
    (hBase : vectorName? (evenBase address) = some name) :
    evenBase address + 1 = address := by
  have hDiffer : evenBase address ≠ address := by
    intro hSame
    rw [hSame, hUnnamed] at hBase
    cases hBase
  unfold evenBase at hDiffer ⊢
  omega

/- The address of the vector that an address belongs to. -/
def vectorBase?
    (address : Int) : Option Int :=
  if (vectorName? address).isSome then some address
  else if (vectorName? (evenBase address)).isSome then
    some (evenBase address)
  else none

end Mos

end Beeb
