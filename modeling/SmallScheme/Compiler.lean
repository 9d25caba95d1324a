import SmallScheme.Assembly.Builder
import SmallScheme.Lexer.Stream
import SmallScheme.Log

/-!
# Compiling

The compiler turns every integer of a text into a function that returns it. It reads tokens, not
expressions, and stops at the first token that is no integer; it can be resumed behind that token.
-/

namespace SmallScheme

open Assembly

/-- A compilation under way. -/
structure Compiler where
  tokens : TokenStream
  builder : Builder
  /-- The number of functions made. -/
  functions : Nat
  log : Array Log.Entry

namespace Compiler

/-- The compilation of a text, adding to what a builder holds. -/
def ofText (mode : Mode) (text : List Char) (builder : Builder) : Compiler :=
  ⟨TokenStream.ofText mode text, builder, 0, #[]⟩

/-- What the names of functions begin with. -/
def functionStem : String :=
  "__scheme__anonymous__function__"

/-- Adds a log entry. -/
def note (message : String) (compiler : Compiler) : Compiler :=
  { compiler with log := compiler.log.push ⟨.debug, .codeGenerator, message⟩ }

/-- Opens a function of a new name. -/
def openFunction (compiler : Compiler) : String × Compiler :=
  let name := functionStem ++ toString compiler.functions
  (name, { compiler with
    functions := compiler.functions + 1
    builder := compiler.builder.openFunction name })

/-- Makes a function that returns an integer. If the integer is too long to be written, the function
is left open. -/
def emitInteger (value : Int) (compiler : Compiler) : Except Fault Unit × Compiler :=
  let (name, compiler) := compiler.openFunction
  match compiler.builder.move (.immediateToRegister value .result) with
  | (.ok _, builder) =>
    let compiler := compiler.note (name ++ " returns " ++ toString value)
    (.ok (), { compiler with builder := builder.leaveFunction })
  | (.error fault, builder) => (.error fault, { compiler with builder })

/-- Stores what should be a float, and refuses it all the same: no code returns it. -/
def emitFloat (offer : Offer) (compiler : Compiler) : Fault × Compiler :=
  match compiler.builder.store offer with
  | (.ok record, builder) =>
    let compiler := { compiler with builder }
    match record.constant.plain with
    | .ok value => (.reported (.floatCode value record.label), compiler)
    | .error fault => (fault, compiler)
  | (.error error, builder) => (.reported error, { compiler with builder })

/-- Compiles the tokens that are left, which are given. -/
def compileFrom : List Lexeme → Compiler → Except Fault Unit × Compiler
  | [], compiler =>
    let compiler := { compiler with tokens := compiler.tokens.finished }
    (.ok (), compiler.note ("generated " ++ toString compiler.functions ++ " functions"))
  | lexeme :: rest, compiler =>
    let tokens := { compiler.tokens with pending := rest, position := lexeme.stop }
    let compiler := { compiler with tokens }
    match lexeme.token with
    | .error fault => (.error fault, compiler)
    | .ok (.literal (.integer value)) =>
      match compiler.emitInteger value with
      | (.ok _, compiler) => compileFrom rest compiler
      | (.error fault, compiler) => (.error fault, compiler)
    | .ok (.literal (.float value)) =>
      let (fault, compiler) := compiler.emitFloat (.constant (.literal (.float value)))
      (.error fault, compiler)
    | .ok (.literal (.boolean _)) => (.error (.reported .booleanCode), compiler)
    | .ok (.literal (.character _)) => (.error (.reported .characterCode), compiler)
    | .ok _ => (.error (.reported (.unknownToken compiler.tokens.position)), compiler)

/-- Compiles up to the end of the text, or to a token that cannot be compiled. -/
def start (compiler : Compiler) : Except Fault Unit × Compiler :=
  compileFrom compiler.tokens.pending compiler

/-- Compiles a text as a whole. -/
def compile (text : List Char) : Except Fault String × List Log.Entry :=
  match (ofText .literals text .empty).start with
  | (.ok _, compiler) => (compiler.builder.build, compiler.log.toList)
  | (.error fault, compiler) => (.error fault, compiler.log.toList)

end Compiler

end SmallScheme
