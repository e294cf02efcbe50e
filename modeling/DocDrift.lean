import DocDrift.Main
import DocDrift.Poll
import DocDrift.Proofs.FileTree.Growth
import DocDrift.Proofs.Pass.Coverage
import DocDrift.Proofs.Store.Advice
import DocDrift.Proofs.Pass.Runs
import DocDrift.Proofs.Store.Records
import DocDrift.Proofs.Pass.Alike
import DocDrift.Proofs.Pass.Rest
import DocDrift.Proofs.Pass.Cut
import DocDrift.Proofs.Pass.Redo
import DocDrift.Proofs.Pass.Resumption
import DocDrift.Proofs.Pass.Interruption
import DocDrift.Proofs.Change.Layout
import DocDrift.Proofs.Change.Agreement
import DocDrift.Proofs.Source.Layout
import DocDrift.Proofs.Scoring.Growth
import DocDrift.Proofs.Change.Hierarchy
import DocDrift.Proofs.Pass.Outcomes
import DocDrift.Proofs.Pass.Completeness
import DocDrift.Proofs.Pass.Verdicts
import DocDrift.Proofs.Pass.Registry
import DocDrift.Proofs.Decimal.Rounding
import DocDrift.Proofs.Decimal.Shortest
import DocDrift.Proofs.Json.Rereading
import DocDrift.Proofs.Json.Numbers
import DocDrift.Proofs.Json.FloatText
import DocDrift.Proofs.Store.Rereading
import DocDrift.Proofs.Pass.Repetition
import DocDrift.Proofs.Pass.Replay
import DocDrift.Proofs.Change.Sameness
import DocDrift.Proofs.Pass.Forced
import DocDrift.Proofs.Scoring.Context
import DocDrift.Proofs.Pass.Judging
import DocDrift.Proofs.Json.Holding
import DocDrift.Proofs.Change.Payload
import DocDrift.Proofs.Scoring.Payload
import DocDrift.Proofs.Store.Ledger
import DocDrift.Proofs.Pass.Audit
import DocDrift.Proofs.Poll
import DocDrift.Proofs.Change.Classes
import DocDrift.Proofs.Change.Counts
import DocDrift.Proofs.Change.LineLabels
import DocDrift.Proofs.Scoring.Privacy
import DocDrift.Proofs.Store.Symbols
import DocDrift.Proofs.Store.Keeping
import DocDrift.Proofs.Store.Costs
import DocDrift.Proofs.Store.Cleaning
import DocDrift.Proofs.IgnoreFile.Ensure
import DocDrift.Proofs.Pass.Documents
import DocDrift.Proofs.Scoring.Precedence
import DocDrift.Proofs.Scoring.Bias
import DocDrift.Proofs.Change.Reversal
import DocDrift.Proofs.Scoring.Shuffling
import DocDrift.Proofs.Outline
import DocDrift.Proofs.Config.Saving
import DocDrift.Proofs.Source.Names
