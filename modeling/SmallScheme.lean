import SmallScheme.Datum.Equality
import SmallScheme.Main
import SmallScheme.Proofs.Evaluation.Agreement
import SmallScheme.Proofs.Printer.RoundTrip
import SmallScheme.Proofs.Data.Computed
import SmallScheme.Proofs.Environment.Values
import SmallScheme.Proofs.Evaluation.Closure
import SmallScheme.Proofs.Interpreter.Runs
import SmallScheme.Proofs.Interpreter.Values
import SmallScheme.Proofs.Lexer.Joining
import SmallScheme.Proofs.Printer.Results
import SmallScheme.Proofs.Reader.Joining
import SmallScheme.Proofs.Interpreter.Splitting
import SmallScheme.Proofs.Compiler.Functions
import SmallScheme.Proofs.Lexer.Modes
import SmallScheme.Proofs.Reader.Integers
import SmallScheme.Proofs.Compiler.Integers
import SmallScheme.Proofs.Assembly.History
import SmallScheme.Proofs.Data.Obstacles
import SmallScheme.Proofs.Evaluation.Levels
import SmallScheme.Proofs.Interpreter.Limits
import SmallScheme.Proofs.Reader.Faults
import SmallScheme.Proofs.Interpreter.Faults
import SmallScheme.Proofs.CommandLine.Statuses
import SmallScheme.Proofs.Lexer.Tiling
import SmallScheme.Proofs.Compiler.Resuming
import SmallScheme.Proofs.Interpreter.Layout
import SmallScheme.Proofs.Repl.Dialogue
import SmallScheme.Proofs.Lexer.DigitRuns
import SmallScheme.Proofs.Reader.Looking
import SmallScheme.Proofs.Reader.Refusals
import SmallScheme.Proofs.Compiler.Modes
import SmallScheme.Proofs.Evaluation.EqualProcedures
import SmallScheme.Proofs.Evaluation.Bodies
import SmallScheme.Proofs.Evaluation.Arithmetic
import SmallScheme.Proofs.Environment.History
import SmallScheme.Proofs.Assembly.Moves
import SmallScheme.Proofs.Assembly.Unambiguous
import SmallScheme.Proofs.Assembly.Blocks
import SmallScheme.Proofs.Compiler.Labels
import SmallScheme.Proofs.Printer.Tokens
import SmallScheme.Proofs.Evaluation.FirstOrder
import SmallScheme.Proofs.Printer.Procedures
