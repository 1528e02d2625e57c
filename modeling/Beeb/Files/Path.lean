import Beeb.Text.Split

/-
  Paths of files and directories.

  A path keeps neither empty parts nor `.`, so `./a//b/` is
  `a/b`; it does keep `..`, whose meaning depends on the
  directories there are.

  Key definitions include:
    * `Beeb.Path`
    * `Beeb.Path.ofString`
    * `Beeb.Path.text`
    * `Beeb.Path.join`
    * `Beeb.Path.upTo`
-/

------------------------------------------------------------
-- Paths
------------------------------------------------------------

namespace Beeb

/-
  A path: how many slashes it begins with, and its parts.
  One slash means the root directory; two are kept apart
  from one, and more count as one.
-/
structure Path where
  slashes : Nat
  parts : List String
deriving DecidableEq, Repr

namespace Path

/- Whether a part of a path is kept. -/
def keeps
    (part : String) : Bool :=
  part ≠ "" && part ≠ "."

/- The path that a text stands for. -/
def ofString
    (text : String) : Path :=
  let leading := (text.toList.takeWhile (· = '/')).length
  { slashes := if leading = 2 then 2 else min leading 1
    parts := (Text.split '/' text).filter keeps }

/- The text of a path; the empty path is a dot. -/
def text
    (p : Path) : String :=
  if p.slashes = 0 ∧ p.parts = [] then "."
  else
    String.ofList (List.replicate p.slashes '/') ++
      "/".intercalate p.parts

/-
  A path seen from another one; one that begins at the root
  stays as it is.
-/
def join
    (p q : Path) : Path :=
  if q.slashes = 0 then ⟨p.slashes, p.parts ++ q.parts⟩ else q

/- The first parts of a path. -/
def upTo
    (p : Path)
    (count : Nat) : Path :=
  { p with parts := p.parts.take count }

/-
  Whether a path holds a character that no file name may
  hold.
-/
def hasNul
    (p : Path) : Bool :=
  p.parts.any (·.toList.contains '\x00')

end Path

end Beeb
