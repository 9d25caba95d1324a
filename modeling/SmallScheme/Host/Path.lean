/-!
# Paths

A path is a row of names below a root, which is empty for relative paths. Empty names and single
dots name nothing, so they are dropped when a path is read.
-/

namespace SmallScheme.Host

/-- The name of a place in a file system. -/
structure Path where
  /-- The slashes at the beginning: none, one or two. -/
  root : String
  names : List String
  deriving DecidableEq, Repr

namespace Path

/-- The pieces between the slashes of a text. -/
def pieces (text : List Char) : List (List Char) :=
  match text with
  | [] => [[]]
  | c :: rest =>
    if c = '/' then [] :: pieces rest
    else
      match pieces rest with
      | piece :: others => (c :: piece) :: others
      | [] => [[c]]

/-- The root of a path: two slashes at the beginning are kept, one or more than two mean one. -/
def rootOf (text : List Char) : String :=
  match (text.takeWhile (· == '/')).length with
  | 0 => ""
  | 2 => "//"
  | _ => "/"

/-- The path that a text names. -/
def ofText (text : String) : Path :=
  let names := (pieces text.toList).filter fun piece => piece ≠ [] && piece ≠ ['.']
  ⟨rootOf text.toList, names.map String.ofList⟩

/-- A path as text. The path without names is a dot, unless it has a root. -/
def text (path : Path) : String :=
  if path.root.isEmpty && path.names.isEmpty then "."
  else path.root ++ "/".intercalate path.names

end Path

end SmallScheme.Host
