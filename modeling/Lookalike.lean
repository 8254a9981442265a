import Lookalike.Files.Folder
import Lookalike.Main
import Lookalike.NumberArray.Distance
import Lookalike.Proofs.Chain.Fixpoint
import Lookalike.Proofs.Chain.Greedy
import Lookalike.Proofs.Chain.LookAhead
import Lookalike.Proofs.Distance.Capped
import Lookalike.Proofs.Relevance.Bounds
import Lookalike.Proofs.ScoreMap.EarlyExit
import Lookalike.Proofs.ScoreMap.Formula
import Lookalike.Proofs.ScoreMap.Matched
import Lookalike.Proofs.Scorer.Batch
import Lookalike.Proofs.Scorer.Extended
import Lookalike.Proofs.Scorer.Mismatched
import Lookalike.Proofs.Scorer.Order
import Lookalike.Proofs.Scorer.Permuted
import Lookalike.Proofs.Scorer.Questions
import Lookalike.Proofs.Scorer.Recognition
import Lookalike.Proofs.Scorer.Repeated
import Lookalike.Proofs.Settings.Environment
import Lookalike.Proofs.TopList.Selection
import Lookalike.Proofs.VectorStore.Aligned
import Lookalike.Proofs.VectorStore.Flat
