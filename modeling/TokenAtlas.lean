import TokenAtlas.Dump.Directory
import TokenAtlas.Dump.Json
import TokenAtlas.Feature.State
import TokenAtlas.Log.Json
import TokenAtlas.Log.Memory
import TokenAtlas.Main
import TokenAtlas.Proofs.Atom.Fixpoint
import TokenAtlas.Proofs.Atom.Lines
import TokenAtlas.Proofs.Atom.Parts
import TokenAtlas.Proofs.Atom.Slices
import TokenAtlas.Proofs.CommandLine.Grammar
import TokenAtlas.Proofs.Cursor.Lookahead
import TokenAtlas.Proofs.Dump.Rereading
import TokenAtlas.Proofs.Feature.Announcement
import TokenAtlas.Proofs.Feature.ImportOrigins
import TokenAtlas.Proofs.Feature.Innermost
import TokenAtlas.Proofs.Feature.Namespace
import TokenAtlas.Proofs.Levels.Counting
import TokenAtlas.Proofs.Log.Delivery
import TokenAtlas.Proofs.Output.ByLine
import TokenAtlas.Proofs.Output.Trimming
import TokenAtlas.Proofs.Pipeline.Positions
import TokenAtlas.Proofs.Scan.Balance
import TokenAtlas.Proofs.Scan.CalledNames
import TokenAtlas.Proofs.Scan.Curlies
import TokenAtlas.Proofs.Scan.Eager
import TokenAtlas.Proofs.Scan.Granularity
import TokenAtlas.Proofs.Scan.Horizon
import TokenAtlas.Proofs.Scan.ImportNames
import TokenAtlas.Proofs.Scan.Recall
import TokenAtlas.Proofs.Scan.TypeNames
import TokenAtlas.Proofs.Source.Defaults
import TokenAtlas.Proofs.Source.Environment
import TokenAtlas.Proofs.Source.Intersections
import TokenAtlas.Proofs.Source.Items
import TokenAtlas.Proofs.Source.Methods
import TokenAtlas.Proofs.Source.Passages
import TokenAtlas.Proofs.Source.Resolution
import TokenAtlas.Proofs.Symbol.Ledger
import TokenAtlas.Proofs.Text.Clamping
import TokenAtlas.Proofs.Text.Counting
