import ScriptLexer.Main
import ScriptLexer.Proofs.Segment.First
import ScriptLexer.Proofs.Scan.Items
import ScriptLexer.Proofs.Segmentation
import ScriptLexer.Proofs.Position
import ScriptLexer.Proofs.Segment.Context
import ScriptLexer.Proofs.Concatenation
import ScriptLexer.Proofs.Lexeme
import ScriptLexer.Proofs.Layout
import ScriptLexer.Proofs.Extension
import ScriptLexer.Proofs.Scan.Calls
import ScriptLexer.Proofs.Relocation
import ScriptLexer.Proofs.Restart
import ScriptLexer.Proofs.CommentRemoval
import ScriptLexer.Proofs.LineEnds
import ScriptLexer.Proofs.CommandLine.Printing
import ScriptLexer.Proofs.CommandLine.Log
import ScriptLexer.Proofs.CommandLine.Session
import ScriptLexer.Proofs.Reader.Record
import ScriptLexer.Proofs.Adjacency
import ScriptLexer.Proofs.Binary64.Scale
import ScriptLexer.Proofs.Binary64.Rounding
import ScriptLexer.Proofs.Binary64.Value
import ScriptLexer.Proofs.Binary64.CorrectRounding
import ScriptLexer.Proofs.Numeral
import ScriptLexer.Proofs.Order
import ScriptLexer.Proofs.Decimal
import ScriptLexer.Proofs.Binary64.Shortest
import ScriptLexer.Proofs.DottedChain
import ScriptLexer.Proofs.Equality
import ScriptLexer.Proofs.Quotation
import ScriptLexer.Proofs.Binary64.Parse
import ScriptLexer.Proofs.Reader.Offset
import ScriptLexer.Proofs.Reader.Safety
