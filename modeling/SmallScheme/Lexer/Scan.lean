import SmallScheme.Error
import SmallScheme.Text.Blank

/-!
# Scanning one token

`scan` cuts the next token off a text that does not begin with a blank. It takes the longest piece
that its first characters call for, and what it takes and leaves make up the text (`scan_tiles`).
-/

namespace SmallScheme

/-- What scanning recognises. -/
inductive Mode where
  /-- All tokens. -/
  | structural
  /-- Literals only; lists, quotations and names are unknown. -/
  | literals
  deriving DecidableEq, Repr

/-- What scanning yields: a token, or the fault of converting it; the piece of text it was cut
from; and the text that is left. -/
structure Scan where
  token : Except Fault Token
  spelling : List Char
  rest : List Char

namespace Scan

/-- The number of digits of the greatest integer that a program can write. -/
def greatestLength : Nat :=
  19

/-- Whether a text is at a place where a literal may end. -/
def endsHere : List Char → Bool
  | [] => true
  | c :: _ => Text.isBlank c || c == ')'

/-- Whether a character continues a name. -/
def continuesName (c : Char) : Bool :=
  !Text.isBlank c && c != ')'

/-- The token of a run of digits that nothing but an end follows. -/
def integerToken (digits : List Char) : Except Fault Token :=
  if greatestLength < (digits.dropWhile (· == '0')).length then .ok .unknown
  else if Numeral.longest < digits.length then .error (.numeralTooLong digits.length)
  else
    let value := Nat.ofDigitChars 10 digits 0
    if Numeral.Fits value then .ok (.literal (.integer value)) else .ok .unknown

/-- Scans a number from its run of digits on. A point makes it a float, with or without digits
behind the point. -/
def number (digits : List Char) : List Char → Scan
  | '.' :: rest =>
    let fraction := rest.takeWhile Char.isDigit
    let after := rest.dropWhile Char.isDigit
    let token :=
      if endsHere after then .literal (.float (Double.ofDecimal digits fraction)) else .unknown
    ⟨.ok token, digits ++ '.' :: fraction, after⟩
  | rest => ⟨if endsHere rest then integerToken digits else .ok .unknown, digits, rest⟩

/-- Scans a literal behind its number sign: a boolean, or a backslash and any one character. -/
def hash : List Char → Scan
  | 't' :: rest => ⟨.ok (.literal (.boolean true)), ['#', 't'], rest⟩
  | 'f' :: rest => ⟨.ok (.literal (.boolean false)), ['#', 'f'], rest⟩
  | '\\' :: c :: rest =>
    let token := if endsHere rest then .literal (.character (String.singleton c)) else .unknown
    ⟨.ok token, ['#', '\\', c], rest⟩
  | c :: rest => ⟨.ok .unknown, ['#', c], rest⟩
  | [] => ⟨.ok .unknown, ['#'], []⟩

/-- Scans a name from its first character on, and makes a token of it. -/
def name (first : Char) (rest : List Char) (token : List Char → Token) : Scan :=
  let spelling := first :: rest.takeWhile continuesName
  ⟨.ok (token spelling), spelling, rest.dropWhile continuesName⟩

end Scan

/-- Scans the token that begins with the given character. -/
def scan (mode : Mode) (first : Char) (rest : List Char) : Scan :=
  if first.isDigit then
    Scan.number (first :: rest.takeWhile Char.isDigit) (rest.dropWhile Char.isDigit)
  else if first = '#' then Scan.hash rest
  else
    match mode with
    | .literals => Scan.name first rest fun _ => .unknown
    | .structural =>
      if first = '(' then ⟨.ok .openParen, ['('], rest⟩
      else if first = ')' then ⟨.ok .closeParen, [')'], rest⟩
      else if first = '\'' then ⟨.ok .quoteMark, ['\''], rest⟩
      else Scan.name first rest fun spelling => .atom (String.ofList spelling)

namespace Scan

private theorem number_tiles (digits rest : List Char) :
    (number digits rest).spelling ++ (number digits rest).rest = digits ++ rest := by
  unfold number
  split <;> simp [List.takeWhile_append_dropWhile]

private theorem hash_tiles (rest : List Char) :
    (hash rest).spelling ++ (hash rest).rest = '#' :: rest := by
  unfold hash
  split <;> simp

private theorem name_tiles (first : Char) (rest : List Char) (token : List Char → Token) :
    (name first rest token).spelling ++ (name first rest token).rest = first :: rest := by
  simp [name, List.takeWhile_append_dropWhile]

end Scan

/-- The piece that is scanned and the text that is left make up the text. -/
theorem scan_tiles (mode : Mode) (first : Char) (rest : List Char) :
    (scan mode first rest).spelling ++ (scan mode first rest).rest = first :: rest := by
  unfold scan
  split
  · rw [Scan.number_tiles, List.cons_append, List.takeWhile_append_dropWhile]
  · split
    · next h => rw [Scan.hash_tiles, h]
    · cases mode with
      | literals => exact Scan.name_tiles ..
      | structural =>
        dsimp only
        split
        · next h => simp [h]
        · split
          · next h => simp [h]
          · split
            · next h => simp [h]
            · exact Scan.name_tiles ..

/-- Every token is cut from a piece that is not empty. -/
theorem scan_spelling_ne_nil (mode : Mode) (first : Char) (rest : List Char) :
    (scan mode first rest).spelling ≠ [] := by
  unfold scan Scan.number Scan.hash Scan.name
  repeat' split
  all_goals simp

/-- Scanning leaves less text than there was. -/
theorem scan_rest_length_le (mode : Mode) (first : Char) (rest : List Char) :
    (scan mode first rest).rest.length ≤ rest.length := by
  have htiles := congrArg List.length (scan_tiles mode first rest)
  have hpos := List.length_pos_iff.mpr (scan_spelling_ne_nil mode first rest)
  simp only [List.length_append, List.length_cons] at htiles
  omega

end SmallScheme
