import SeedGrammar.CharSet.Basic
import SeedGrammar.CharSet.ClassText
import SeedGrammar.CharSet.Compact
import SeedGrammar.Engine.Parse
import SeedGrammar.Error.Record
import SeedGrammar.Grammar.Lint
import SeedGrammar.Proofs.Engine.DepthLimit
import SeedGrammar.Proofs.Engine.SeedHistory
import SeedGrammar.Proofs.Engine.Recall
import SeedGrammar.Proofs.Grammar.Forest
import SeedGrammar.Proofs.Grammar.Lowering
import SeedGrammar.Proofs.Grammar.Resolution
import SeedGrammar.Proofs.Engine.Direct
import SeedGrammar.Proofs.Engine.Preservation
import SeedGrammar.Proofs.Grammar.Requests
import SeedGrammar.Proofs.Engine.Typing
import SeedGrammar.Proofs.Grammar.Typing
import SeedGrammar.Proofs.Engine.LoopFree
import SeedGrammar.Proofs.Engine.LeftFold
import SeedGrammar.Proofs.Grammar.FoldingRules
import SeedGrammar.Proofs.Engine.Positions
import SeedGrammar.Proofs.Engine.Termination
import SeedGrammar.Proofs.Engine.Purity
import SeedGrammar.Proofs.Engine.Shift
import SeedGrammar.Proofs.Engine.Places
import SeedGrammar.Proofs.Text.Offsets
import SeedGrammar.Proofs.Text.Translation
import SeedGrammar.Proofs.Text.Spans
import SeedGrammar.Proofs.Engine.LintClean
import SeedGrammar.Proofs.CharSet.Membership
import SeedGrammar.Proofs.Engine.Abandoned
import SeedGrammar.Proofs.Engine.TypeSafety
import SeedGrammar.Proofs.Grammar.QueryHistory
import SeedGrammar.Proofs.Grammar.WellFormed
import SeedGrammar.Proofs.Grammar.Settled
import SeedGrammar.Proofs.Engine.KeptState
import SeedGrammar.Proofs.Engine.Reentry
import SeedGrammar.Proofs.Engine.FirstSets
import SeedGrammar.Proofs.Engine.Captures
import SeedGrammar.Proofs.Engine.Exchange
import SeedGrammar.Proofs.Engine.ChoiceGrouping
import SeedGrammar.Proofs.Engine.MapFusion
import SeedGrammar.Proofs.Engine.FusedRepetition
import SeedGrammar.Proofs.Engine.FusedExpressions
import SeedGrammar.Proofs.Engine.MaximalRuns
import SeedGrammar.Proofs.Engine.Growth
import SeedGrammar.Proofs.Grammar.ReferenceCycles
import SeedGrammar.Proofs.Engine.DeadAlternatives
import SeedGrammar.Proofs.Grammar.LintReports
import SeedGrammar.Proofs.CharSet.CompactForm
import SeedGrammar.Proofs.Text.Lines
import SeedGrammar.Proofs.Json.Written
import SeedGrammar.Proofs.Error.Record
import SeedGrammar.Proofs.Text.Literals
import SeedGrammar.Proofs.Grammar.Computations
import SeedGrammar.Proofs.Grammar.LeftReach
import SeedGrammar.Proofs.Grammar.CacheHistory
import SeedGrammar.Proofs.Grammar.Rendering
