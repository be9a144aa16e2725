import BlockBuilder.Ledger.Node
import BlockBuilder.Proofs.Share.Addition
import BlockBuilder.Proofs.Share.Exactness
import BlockBuilder.Proofs.Share.Portions
import BlockBuilder.Proofs.Auction.Acceptance
import BlockBuilder.Proofs.Auction.Conditions
import BlockBuilder.Proofs.Auction.Extraction
import BlockBuilder.Proofs.Auction.Fairness
import BlockBuilder.Proofs.Auction.Rule
import BlockBuilder.Proofs.Draft.Accounting
import BlockBuilder.Proofs.Draft.Adding
import BlockBuilder.Proofs.Pool.Contents
import BlockBuilder.Proofs.Pool.Eviction
import BlockBuilder.Proofs.Pool.Histories
import BlockBuilder.Proofs.Pool.Likeness
import BlockBuilder.Proofs.Pool.Origin
import BlockBuilder.Proofs.Pool.Precedence
import BlockBuilder.Proofs.Pool.SlotMap
import BlockBuilder.Proofs.Lane.Building
import BlockBuilder.Proofs.Lane.Choice
import BlockBuilder.Proofs.Lane.Claim
import BlockBuilder.Proofs.Lane.Contribution
import BlockBuilder.Proofs.Lane.Eviction
import BlockBuilder.Proofs.Lane.Evolution
import BlockBuilder.Proofs.Lane.Filling
import BlockBuilder.Proofs.Lane.Isolation
import BlockBuilder.Proofs.Lane.Judging
import BlockBuilder.Proofs.Lane.Outcome
import BlockBuilder.Proofs.Lane.Offers
import BlockBuilder.Proofs.Lane.Pricing
import BlockBuilder.Proofs.Lane.Replay
import BlockBuilder.Proofs.Registry.Arrangement
import BlockBuilder.Proofs.Registry.Bundles
import BlockBuilder.Proofs.Registry.Evolution
import BlockBuilder.Proofs.Registry.Layout
import BlockBuilder.Proofs.Registry.Likeness
import BlockBuilder.Proofs.Registry.Limits
import BlockBuilder.Proofs.Registry.Ownership
import BlockBuilder.Proofs.Builder.Agreement
import BlockBuilder.Proofs.Builder.Atomicity
import BlockBuilder.Proofs.Builder.Budget
import BlockBuilder.Proofs.Builder.Carryover
import BlockBuilder.Proofs.Builder.Eviction
import BlockBuilder.Proofs.Builder.HighestBid
import BlockBuilder.Proofs.Builder.Lanes
import BlockBuilder.Proofs.Builder.Progress
import BlockBuilder.Proofs.Builder.Reached
import BlockBuilder.Proofs.Builder.Shape
import BlockBuilder.Proofs.Builder.Soundness
import BlockBuilder.Proofs.Builder.Starvation
import BlockBuilder.Proofs.Builder.Submission
import BlockBuilder.Proofs.Builder.Verdict
import BlockBuilder.Proofs.Ledger.Commits
import BlockBuilder.Proofs.Ledger.Losers
import BlockBuilder.Proofs.Ledger.Pending
import BlockBuilder.Proofs.Ledger.Reading
import BlockBuilder.Proofs.Ledger.Rounds
import BlockBuilder.Proofs.Ledger.Sequences
import BlockBuilder.Proofs.Ledger.WireForm
import BlockBuilder.Proofs.Ledger.Workload
import BlockBuilder.Proofs.Toml.Keys
