import MarathiScript.Text.Ranges
import MarathiScript.Text.Letters
import MarathiScript.Text.Nested
import MarathiScript.Text.Json
import MarathiScript.Text.Quoted
import MarathiScript.Text.Outline
import MarathiScript.Token
import MarathiScript.Token.Piece
import MarathiScript.Token.Cursor
import MarathiScript.Program
import MarathiScript.Program.Reader
import MarathiScript.Program.Parse
import MarathiScript.Program.Outline
import MarathiScript.Decimal.Nearest
import MarathiScript.Decimal.Literal
import MarathiScript.Decimal.Shortest
import MarathiScript.Log
import MarathiScript.Table
import MarathiScript.Value
import MarathiScript.Value.Combine
import MarathiScript.Environment
import MarathiScript.Evaluation
import MarathiScript.Session
import MarathiScript.Session.Execution
import MarathiScript.Session.Fuel
import MarathiScript.Script
import MarathiScript.CommandLine
import MarathiScript.CommandLine.Response
import MarathiScript.CommandLine.Words
import MarathiScript.Main
import MarathiScript.Proofs.Run.Rules
import MarathiScript.Proofs.Run.Frames
import MarathiScript.Proofs.Run.Lookup
import MarathiScript.Proofs.Run.Snapshot
import MarathiScript.Proofs.Run.Copies
import MarathiScript.Proofs.Syntax.Reads
import MarathiScript.Proofs.Syntax.Unparse
import MarathiScript.Proofs.Syntax.Grammar
import MarathiScript.Proofs.Syntax.Statements
import MarathiScript.Proofs.Syntax.Parse
import MarathiScript.Proofs.Syntax.Resume
import MarathiScript.Proofs.Lexical.Lexeme
import MarathiScript.Proofs.Lexical.Scan
import MarathiScript.Proofs.Lexical.Choice
import MarathiScript.Proofs.Lexical.Spacing
import MarathiScript.Proofs.Run.Footprint
import MarathiScript.Proofs.Run.Limit
import MarathiScript.Proofs.Run.Code
import MarathiScript.Proofs.Run.Termination
import MarathiScript.Proofs.Lexical.Seam
import MarathiScript.Proofs.Sequence
import MarathiScript.Proofs.Run.Notes
import MarathiScript.Proofs.Run.Output
import MarathiScript.Proofs.Run.Loops
import MarathiScript.Proofs.Run.Progress
import MarathiScript.Proofs.Run.Calls
import MarathiScript.Proofs.Run.Failures
import MarathiScript.Proofs.Run.Origin
import MarathiScript.Proofs.Run.Kinds
import MarathiScript.Proofs.Run.Provided
import MarathiScript.Proofs.Run.Unread
import MarathiScript.Proofs.Lexical.Call
import MarathiScript.Proofs.Lexical.Fault
import MarathiScript.Proofs.Lexical.Pull
import MarathiScript.Proofs.Syntax.Lexemes
import MarathiScript.Proofs.Rejections
import MarathiScript.Proofs.Command.Responses
import MarathiScript.Proofs.Files.Names
import MarathiScript.Proofs.Files.Places
import MarathiScript.Proofs.Command.Tests
import MarathiScript.Proofs.Values.Zeros
import MarathiScript.Proofs.Values.Operators
import MarathiScript.Proofs.Values.Chains
import MarathiScript.Proofs.Values.Comparisons
