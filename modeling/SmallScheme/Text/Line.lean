/-!
# Lines

A file may end its lines in any of three ways; a session reads lines that end in a line feed only.
-/

namespace SmallScheme.Text

/-- Every carriage return becomes a line feed, and a pair of the two becomes one. -/
def unifyLineEnds : List Char → List Char
  | '\r' :: '\n' :: rest => '\n' :: unifyLineEnds rest
  | '\r' :: rest => '\n' :: unifyLineEnds rest
  | c :: rest => c :: unifyLineEnds rest
  | [] => []

/-- The lines of a text behind the piece `begun` (latest character first) of the first one. Each
line keeps its line feed. -/
def linesFrom (begun : List Char) : List Char → List (List Char)
  | [] => if begun.isEmpty then [] else [begun.reverse]
  | c :: rest =>
    if c = '\n' then (c :: begun).reverse :: linesFrom [] rest else linesFrom (c :: begun) rest

/-- The lines of a text, each with its line feed; the last one may lack it. -/
def lines (text : List Char) : List (List Char) :=
  linesFrom [] text

end SmallScheme.Text
