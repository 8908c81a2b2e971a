import Mathlib.Data.List.Forall2

/-!
# Patterns of `LIKE`

A pattern is a list of pieces: `_` for one character, `%` for any text, and characters that stand
for themselves, up to what a collation takes for the same. `Like.readPattern` reads one from a text
in which an escape character takes the meaning of what follows it away.
-/

namespace Like

inductive Piece
  | one
  | any
  | this (c : Char)
deriving DecidableEq, Repr

/-- A text matches a pattern as a whole. -/
def fits (same : Char → Char → Bool) : List Piece → List Char → Bool
  | [], s => s.isEmpty
  | .one :: p, s => !s.isEmpty && fits same p s.tail
  | .this c :: p, s => s.head?.any (same c) && fits same p s.tail
  | .any :: p, s => s.tails.any (fits same p)

def readChar (c : Char) : Piece := if c = '%' then .any else if c = '_' then .one else .this c

/-- `LIKE … ESCAPE`: the pattern that a text is. An escape at the end is an error. -/
def readPattern (escape : Char) : List Char → Option (List Piece)
  | [] => some []
  | [c] => if c = escape then none else some [readChar c]
  | c :: d :: p =>
    if c = escape then (readPattern escape p).map (.this d :: ·)
    else (readPattern escape (d :: p)).map (readChar c :: ·)

/-- `s LIKE pattern ESCAPE escape` -/
def like (same : Char → Char → Bool) (escape : Char) (s pattern : String) : Bool :=
  (readPattern escape pattern.toList).any fun p => fits same p s.toList

variable {escape c d : Char} {p : List Char} {same : Char → Char → Bool}

theorem readPattern_escape (d : Char) (p : List Char) :
    readPattern escape (escape :: d :: p) = (readPattern escape p).map (.this d :: ·) := by
  rw [readPattern, if_pos rfl]

theorem readPattern_cons (hc : c ≠ escape) (p : List Char) :
    readPattern escape (c :: p) = (readPattern escape p).map (readChar c :: ·) := by
  cases p with
  | nil =>
    change (if c = escape then none else some [readChar c]) = _
    rw [if_neg hc]
    rfl
  | cons d p => rw [readPattern, if_neg hc]

end Like
