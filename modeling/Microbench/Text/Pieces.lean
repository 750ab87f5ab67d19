/-!
# Cutting texts at a mark

## Main definitions

* `Text.pieces` — the pieces between the occurrences of a mark.
-/

namespace Microbench.Text

/-- The pieces of a text between the occurrences of a mark; a text without it is one piece. -/
def pieces (mark : Char) : List Char → List (List Char)
  | [] => [[]]
  | c :: cs =>
    if c = mark then [] :: pieces mark cs
    else
      match pieces mark cs with
      | [] => [[c]]
      | piece :: rest => (c :: piece) :: rest

end Microbench.Text
