import SmallScheme.Lexer.Stream
import SmallScheme.Limits

/-!
# Reading expressions

The reader takes tokens one by one and keeps the lists and quotations that are begun and not yet
complete. An expression is read when nothing is left open; the reader never looks at a token behind
it. A token that cannot go on with what is open is refused at once.
-/

namespace SmallScheme

/-- Something that is begun and needs more expressions, or a closing parenthesis. -/
inductive Opened where
  /-- A list, with its members so far, latest first. -/
  | list (members : List Datum)
  /-- A quotation without what it quotes. -/
  | quotation

namespace Reader

/-- What reading makes of a token. -/
inductive Progress where
  /-- The expression is complete. -/
  | complete (datum : Datum)
  /-- More tokens are needed; this is open, innermost first. -/
  | incomplete (opened : List Opened)
  | stopped (fault : Fault)

/-- Gives a datum to what is open. It completes the quotations it is given to. -/
def supply (datum : Datum) : List Opened → Progress
  | [] => .complete datum
  | .quotation :: outer => supply datum.quoted outer
  | .list members :: outer => .incomplete (.list (datum :: members) :: outer)

/-- Opens something, unless as much is open as the limit allows. -/
def deepen (limit : Nat) (inner : Opened) (opened : List Opened) : Progress :=
  if opened.length < limit then .incomplete (inner :: opened) else .stopped .exhausted

/-- The error of a text that ends while something is open. -/
def endError : List Opened → Error
  | [] => .unexpectedEnd
  | .list _ :: _ => .unclosedList
  | .quotation :: _ => .nothingQuoted

/-- Reads a token that ends at a position. -/
def step (limit : Nat) (opened : List Opened) (token : Token) (position : Nat) : Progress :=
  match token with
  | .openParen => deepen limit (.list []) opened
  | .quoteMark => deepen limit .quotation opened
  | .closeParen =>
    match opened with
    | .list members :: outer => supply (.list members.reverse) outer
    | _ => .stopped (.reported .unexpectedClose)
  | .atom name => supply (.symbol name) opened
  | .literal (.integer value) => supply (.integer value) opened
  | .literal (.boolean value) => supply (.boolean value) opened
  | .literal (.float value) => .stopped (.reported (.floatLiteral value))
  | .literal (.character text) => .stopped (.reported (.characterLiteral text))
  | .unknown => .stopped (.reported (.unknownToken position))
  | .endOfInput => .stopped (.reported (endError opened))

/-- Reads a lexeme. -/
def stepLexeme (limit : Nat) (opened : List Opened) (lexeme : Lexeme) : Progress :=
  match lexeme.token with
  | .ok token => step limit opened token lexeme.stop
  | .error fault => .stopped fault

/-- Reads tokens until the expression is complete. -/
def readFrom (limit length : Nat) (opened : List Opened) :
    List Lexeme → Except Fault Datum × TokenStream
  | [] => (.error (.reported (endError opened)), ⟨[], length, length⟩)
  | lexeme :: rest =>
    match stepLexeme limit opened lexeme with
    | .complete datum => (.ok datum, ⟨rest, lexeme.stop, length⟩)
    | .incomplete opened => readFrom limit length opened rest
    | .stopped fault => (.error fault, ⟨rest, lexeme.stop, length⟩)

/-- Reading takes at least one token if there is one. -/
theorem readFrom_pending_length_lt (limit length : Nat) (opened : List Opened) (lexeme : Lexeme)
    (rest : List Lexeme) :
    (readFrom limit length opened (lexeme :: rest)).2.pending.length < rest.length + 1 := by
  induction rest generalizing opened lexeme with
  | nil =>
    unfold readFrom
    cases stepLexeme limit opened lexeme <;> simp [readFrom]
  | cons next rest ih =>
    unfold readFrom
    cases stepLexeme limit opened lexeme with
    | complete => simp
    | incomplete opened => exact Nat.lt_succ_of_lt (ih opened next)
    | stopped => simp

end Reader

namespace TokenStream

/-- Reads one expression. -/
def read (limits : Limits) (stream : TokenStream) : Except Fault Datum × TokenStream :=
  Reader.readFrom limits.reading stream.length [] stream.pending

/-- Reads all expressions. What stops the reading comes behind those that were read. -/
def readAll (limits : Limits) (stream : TokenStream) :
    List Datum × Option Fault × TokenStream :=
  match h : stream.pending with
  | [] => ([], none, stream.finished)
  | lexeme :: rest =>
    match hread : stream.read limits with
    | (.error fault, after) => ([], some fault, after)
    | (.ok datum, after) =>
      have : after.pending.length < stream.pending.length := by
        have hlt := Reader.readFrom_pending_length_lt limits.reading stream.length [] lexeme rest
        rw [read, h] at hread
        rw [hread] at hlt
        simpa [h] using hlt
      let (data, fault, last) := after.readAll limits
      (datum :: data, fault, last)
termination_by stream.pending.length

end TokenStream

/-- Reads one expression from a text and ignores what follows it. -/
def Datum.read (limits : Limits) (text : List Char) : Except Fault Datum :=
  ((TokenStream.ofText .structural text).read limits).1

/-- The expressions of a text, and what keeps the rest of it from being read. -/
structure Program where
  expressions : List Datum
  fault : Option Fault

/-- Reads a whole text. Text nested too deeply is an error of the program. -/
def Program.ofText (limits : Limits) (text : List Char) : Program :=
  let (expressions, fault, _) := (TokenStream.ofText .structural text).readAll limits
  let named : Fault → Fault
    | .exhausted => .reported (.tooDeep .reading)
    | fault => fault
  ⟨expressions, fault.map named⟩

end SmallScheme
