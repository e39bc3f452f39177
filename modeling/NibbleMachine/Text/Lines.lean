namespace NibbleMachine
namespace Text

/-!
# Lines

A line ends at a line feed, at a carriage return, or at the pair of both, which
counts once.  The last line need not be terminated, and a terminated last line
is not followed by an empty one.  No other separator of the Unicode standard
ends a line, so line numbers do not depend on form feeds or the like.
-/

/-- Put a character in front of the first line. -/
def extendFirst (c : Char) : List (List Char) -> List (List Char)
  | [] => [[c]]
  | line :: rest => (c :: line) :: rest

def lines : List Char -> List (List Char)
  | [] => []
  | '\r' :: '\n' :: rest => [] :: lines rest
  | c :: rest =>
      if c = '\r' || c = '\n' then [] :: lines rest
      else extendFirst c (lines rest)

/-- Write every line end as one line feed. -/
def unifyLineEnds : List Char -> List Char
  | [] => []
  | '\r' :: '\n' :: rest => '\n' :: unifyLineEnds rest
  | c :: rest => (if c = '\r' then '\n' else c) :: unifyLineEnds rest

end Text
end NibbleMachine
