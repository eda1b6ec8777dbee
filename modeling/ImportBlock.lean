import ImportBlock.Main
import ImportBlock.Proofs.Text.Words
import ImportBlock.Proofs.Text.Spaces
import ImportBlock.Proofs.Text.Sorting
import ImportBlock.Proofs.Clause.Reading
import ImportBlock.Proofs.Clause.Printing
import ImportBlock.Proofs.Clause.Origin
import ImportBlock.Proofs.Statement.Printing
import ImportBlock.Proofs.Statement.Origin
import ImportBlock.Proofs.Grammar
import ImportBlock.Proofs.Boundary
import ImportBlock.Proofs.Settled
import ImportBlock.Proofs.Rewritten
import ImportBlock.Proofs.Idempotence
import ImportBlock.Proofs.Survival
import ImportBlock.Proofs.Joining
import ImportBlock.Proofs.Sources
import ImportBlock.Proofs.LineOrder
import ImportBlock.Proofs.Layout
import ImportBlock.Proofs.Body
import ImportBlock.Proofs.FinalNewline
import ImportBlock.Proofs.Files.Rewriting
import ImportBlock.Proofs.Run.Order
import ImportBlock.Proofs.Run.Modes
import ImportBlock.Proofs.Diff.Patch
import ImportBlock.Proofs.FirstWins
import ImportBlock.Proofs.Incremental
import ImportBlock.Proofs.Repetition
import ImportBlock.Proofs.FirstCopies
import ImportBlock.Proofs.DistinctLines
import ImportBlock.Proofs.WellFormed
import ImportBlock.Proofs.Checked.Optimize
import ImportBlock.Proofs.Diff.Search
import ImportBlock.Proofs.Diff.Lines
import ImportBlock.Proofs.Run.CutShort
import ImportBlock.Proofs.Run.Reader
import ImportBlock.Proofs.Files.Discovery
import ImportBlock.Proofs.Files.Project
import ImportBlock.Proofs.Text.WordSearch
import ImportBlock.Proofs.Trace
import ImportBlock.Proofs.Settings.Precedence
