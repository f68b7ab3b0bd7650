import LatentFactors.Decimal.Scientific
import LatentFactors.Main
import LatentFactors.Vec.Program
import LatentFactors.Proofs.Arithmetic
import LatentFactors.Proofs.Arithmetic.Real
import LatentFactors.Proofs.Arithmetic.Rational
import LatentFactors.Proofs.Arithmetic.Order
import LatentFactors.Proofs.Arithmetic.Undefined
import LatentFactors.Proofs.Outcome
import LatentFactors.Proofs.Table
import LatentFactors.Proofs.Numeral
import LatentFactors.Proofs.Vec.Entries
import LatentFactors.Proofs.Vec.Product
import LatentFactors.Proofs.Vec.Writing
import LatentFactors.Proofs.Vec.Exchange
import LatentFactors.Proofs.Vec.Program
import LatentFactors.Proofs.Hypothesis.Scores
import LatentFactors.Proofs.Hypothesis.Counts
import LatentFactors.Proofs.Hypothesis.Distribution
import LatentFactors.Proofs.Hypothesis.Exchange
import LatentFactors.Proofs.Hypothesis.Cumulative
import LatentFactors.Proofs.Gradient.Pointwise
import LatentFactors.Proofs.Gradient.Simultaneous
import LatentFactors.Proofs.Gradient.Cuts
import LatentFactors.Proofs.Gradient.Steps
import LatentFactors.Proofs.Gradient.ClosedForm
import LatentFactors.Proofs.Gradient.Exchange
import LatentFactors.Proofs.Gradient.Factors
import LatentFactors.Proofs.Gradient.Bounds
import LatentFactors.Proofs.Gradient.ChainRule
import LatentFactors.Proofs.Renumbering
import LatentFactors.Proofs.Gradient.Renumbering
import LatentFactors.Proofs.Stateful
import LatentFactors.Proofs.Store.Operations
import LatentFactors.Proofs.Store.Offers
import LatentFactors.Proofs.Store.Shape
import LatentFactors.Proofs.Store.Start
import LatentFactors.Proofs.Store.Growth
import LatentFactors.Proofs.Store.TwoRuns
import LatentFactors.Proofs.Store.Transpose
import LatentFactors.Proofs.Store.Reading
import LatentFactors.Proofs.Store.Renumbering
import LatentFactors.Proofs.Store.Equivalent
import LatentFactors.Proofs.Config
import LatentFactors.Proofs.Algorithm
import LatentFactors.Proofs.Algorithm.Overrides
import LatentFactors.Proofs.Learner.Gather
import LatentFactors.Proofs.Learner.RawScore
import LatentFactors.Proofs.Learner.Reading
import LatentFactors.Proofs.Learner.Step
import LatentFactors.Proofs.Learner.Frame
import LatentFactors.Proofs.Learner.Runs
import LatentFactors.Proofs.Learner.Slots
import LatentFactors.Proofs.Learner.Sizes
import LatentFactors.Proofs.Learner.Progress
import LatentFactors.Proofs.Learner.Probability
import LatentFactors.Proofs.Learner.ClosedForm
import LatentFactors.Proofs.Learner.Centred
import LatentFactors.Proofs.Learner.Locality
import LatentFactors.Proofs.Learner.Settling
import LatentFactors.Proofs.Learner.Renumbering
import LatentFactors.Proofs.Learner.Transpose
import LatentFactors.Proofs.Learner.Equivalent
import LatentFactors.Proofs.Learner.WithoutSides
import LatentFactors.Proofs.Recommender.Calls
import LatentFactors.Proofs.Recommender.Equivalent
import LatentFactors.Proofs.Recommender.Evolution
import LatentFactors.Proofs.Recommender.History
import LatentFactors.Proofs.Recommender.Ranking
import LatentFactors.Proofs.Recommender.RawRanking
import LatentFactors.Proofs.Experiment
import LatentFactors.Proofs.Recommender.Refusal
import LatentFactors.Proofs.Learner.Blocks
import LatentFactors.Proofs.Learner.Provenance
import LatentFactors.Proofs.Recommender.Accounting
import LatentFactors.Proofs.Recommender.Preparing
import LatentFactors.Proofs.Learner.Interchange
import LatentFactors.Proofs.Tuning.Search
import LatentFactors.Proofs.Grouping
import LatentFactors.Proofs.Frame
import LatentFactors.Proofs.Ratings
import LatentFactors.Proofs.Id
import LatentFactors.Proofs.SideInfo
import LatentFactors.Proofs.SideInfo.Decoding
import LatentFactors.Proofs.SideInfo.Range
import LatentFactors.Proofs.SideInfo.Loading
import LatentFactors.Proofs.Experiment.Predictions
import LatentFactors.Proofs.Evaluation.Means
import LatentFactors.Proofs.Evaluation.ClassScores
import LatentFactors.Proofs.Evaluation.Errors
import LatentFactors.Proofs.Evaluation.UserScores
import LatentFactors.Proofs.Experiment.Errors
import LatentFactors.Proofs.Recommender.Estimates
