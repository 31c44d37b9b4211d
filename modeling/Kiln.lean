import Kiln.Main
import Kiln.Files.Tree
import Kiln.Tree.Build
import Kiln.Tree.Divergence
import Kiln.Proofs.Grammar.Climbing
import Kiln.Proofs.Grammar.Functions
import Kiln.Proofs.Grammar.Documents
import Kiln.Proofs.Grammar.FirstFault
import Kiln.Proofs.Coverage.Stretches
import Kiln.Proofs.Coverage.Trivia
import Kiln.Proofs.Coverage.Tokens
import Kiln.Proofs.Coverage.Directives
import Kiln.Proofs.Coverage.Pieces
import Kiln.Proofs.Coverage.Blocks
import Kiln.Proofs.Coverage.Items
import Kiln.Proofs.RoundTrip.Lexemes
import Kiln.Proofs.RoundTrip.Built
import Kiln.Proofs.RoundTrip.Detached
import Kiln.Proofs.RoundTrip.Lines
import Kiln.Proofs.Reading.Loops
import Kiln.Proofs.Reading.Steps
import Kiln.Proofs.Lexing.Spelling
import Kiln.Proofs.RoundTrip.Reading
import Kiln.Proofs.RoundTrip.DirectiveLines
import Kiln.Proofs.RoundTrip.Documents
import Kiln.Proofs.Comparison.Essence
import Kiln.Proofs.Comparison.Produced
import Kiln.Proofs.Lexing.Texts
import Kiln.Proofs.Lexing.Spacing
import Kiln.Proofs.Relocation.Parts
import Kiln.Proofs.Relocation.LineByLine
import Kiln.Proofs.Relocation.Unions
import Kiln.Proofs.Relocation.Trees
import Kiln.Proofs.Relocation.Parsing
import Kiln.Proofs.Relocation.Directives
import Kiln.Proofs.Relocation.Lines
import Kiln.Proofs.Relocation.Concatenation
import Kiln.Proofs.Lines.Canonical
import Kiln.Proofs.Merging.Highlights
import Kiln.Proofs.Merging.Spans
import Kiln.Proofs.Merging.Excerpts
import Kiln.Proofs.Merging.Leaves
import Kiln.Proofs.Merging.Nesting
import Kiln.Proofs.Comparison.Differences
import Kiln.Proofs.Comparison.Places
import Kiln.Proofs.Comparison.Reports
import Kiln.Directive.Handlers
import Kiln.Proofs.Scanning.Agreement
import Kiln.Proofs.Scanning.Faults
import Kiln.Proofs.Scanning.Progress
import Kiln.Proofs.Printing.Emission
import Kiln.Proofs.Sessions.Calls
import Kiln.Proofs.Sessions.Runs
import Kiln.Proofs.Safety.Bounds
import Kiln.Proofs.Safety.Readings
import Kiln.Proofs.Safety.Reports
import Kiln.Proofs.Safety.Accesses
import Kiln.Proofs.Safety.Nodes
import Kiln.Proofs.Safety.Pieces
import Kiln.Proofs.Safety.Guarding
import Kiln.Proofs.Printing.Indicators
import Kiln.Proofs.Grammar.Grouping
import Kiln.Proofs.Relocation.Endings
import Kiln.Proofs.CommandLine.Options
import Kiln.Proofs.CommandLine.Outcome
import Kiln.Proofs.Lexing.LongestMatch
import Kiln.Proofs.Lexing.Numbers
import Kiln.Proofs.Lexing.Strings
import Kiln.Proofs.Lexing.Symbols
import Kiln.Proofs.Directives.LineEnds
import Kiln.Proofs.Directives.Inclusions
import Kiln.Proofs.Directives.InlineBlocks
import Kiln.Proofs.Printing.Carets
import Kiln.Proofs.Checking.FirstViolation
import Kiln.Proofs.Outlines.Expressions
import Kiln.Proofs.Outlines.Documents
import Kiln.Proofs.Scanning.Moves
import Kiln.Proofs.Scanning.Stepping
import Kiln.Proofs.Sessions.Logs
import Kiln.Proofs.Merging.Mismatches
import Kiln.Proofs.Printing.Windows
