import SharpEvPicks.Api.BodyCap
import SharpEvPicks.Api.LoginRate
import SharpEvPicks.Api.PollHealth
import SharpEvPicks.Api.SessionTokens
import SharpEvPicks.Backtesting.AllOrNothing
import SharpEvPicks.Backtesting.AnchorLedger
import SharpEvPicks.Backtesting.NoLookAhead
import SharpEvPicks.Backtesting.Reliability
import SharpEvPicks.Clv.Evidence
import SharpEvPicks.Clv.MatchUrl
import SharpEvPicks.Clv.OneTrust
import SharpEvPicks.Clv.Rotation
import SharpEvPicks.Clv.Trust
import SharpEvPicks.Clv.VocabularyMerge
import SharpEvPicks.Edge.Anchors
import SharpEvPicks.Edge.Breakdown
import SharpEvPicks.Edge.Completeness
import SharpEvPicks.Edge.Odds
import SharpEvPicks.Edge.Policy
import SharpEvPicks.Edge.RespelledBets
import SharpEvPicks.Edge.Respelling
import SharpEvPicks.Edge.Board
import SharpEvPicks.Edge.Spreads
import SharpEvPicks.Edge.SteamOrder
import SharpEvPicks.Edge.Threshold
import SharpEvPicks.Edge.TwoPrices
import SharpEvPicks.Edge.Value
import SharpEvPicks.Identity
import SharpEvPicks.Ingestion.ArchiveBacked
import SharpEvPicks.Ingestion.BakedLines
import SharpEvPicks.Ingestion.BetfairApi
import SharpEvPicks.Ingestion.CacheRoundTrip
import SharpEvPicks.Ingestion.CycleVerdict
import SharpEvPicks.Ingestion.EqualLines
import SharpEvPicks.Ingestion.ExchangeBooks
import SharpEvPicks.Ingestion.GateBacked
import SharpEvPicks.Ingestion.JoinExact
import SharpEvPicks.Ingestion.JsonCycle
import SharpEvPicks.Ingestion.KeyRotation
import SharpEvPicks.Ingestion.LinePairs
import SharpEvPicks.Ingestion.LineQuotes
import SharpEvPicks.Ingestion.OneOrigin
import SharpEvPicks.Ingestion.OneQuote
import SharpEvPicks.Ingestion.PreInPlay
import SharpEvPicks.Ingestion.ProxyRuns
import SharpEvPicks.Ingestion.RightSide
import SharpEvPicks.Ingestion.SessionPool
import SharpEvPicks.Maintenance.AuditAlerts
import SharpEvPicks.Maintenance.BankrollLedger
import SharpEvPicks.Maintenance.WrongGames
import SharpEvPicks.Notifications.Delivery
import SharpEvPicks.Pipeline.Alerts
import SharpEvPicks.Pipeline.Cells
import SharpEvPicks.Pipeline.Coalescing
import SharpEvPicks.Pipeline.Commits
import SharpEvPicks.Pipeline.ExposureAccounting
import SharpEvPicks.Pipeline.FairProbs
import SharpEvPicks.Pipeline.FillRealism
import SharpEvPicks.Pipeline.Fingerprint
import SharpEvPicks.Pipeline.Folding
import SharpEvPicks.Pipeline.GradeablePicks
import SharpEvPicks.Pipeline.Haircut
import SharpEvPicks.Pipeline.Minted
import SharpEvPicks.Pipeline.ModelPipeline
import SharpEvPicks.Pipeline.OddsSeen
import SharpEvPicks.Pipeline.OnePremium
import SharpEvPicks.Pipeline.Persistence
import SharpEvPicks.Pipeline.Premium
import SharpEvPicks.Pipeline.Provenance
import SharpEvPicks.Pipeline.RestartSeed
import SharpEvPicks.Pipeline.Snapshots
import SharpEvPicks.Pipeline.StakeBounds
import SharpEvPicks.Pipeline.ValuePipeline
import SharpEvPicks.Pipeline.Vocabulary
import SharpEvPicks.Probabilities.ClosedForm
import SharpEvPicks.Probabilities.Devig
import SharpEvPicks.Probabilities.EqualMargins
import SharpEvPicks.Probabilities.Reordering
import SharpEvPicks.Python.Dict
import SharpEvPicks.Python.FixedPoint
import SharpEvPicks.Python.Lookups
import SharpEvPicks.Python.Reordering
import SharpEvPicks.Python.Rounding
import SharpEvPicks.Python.Sorting
import SharpEvPicks.Python.Str
import SharpEvPicks.Resolution.Acceptance
import SharpEvPicks.Resolution.Aliases
import SharpEvPicks.Resolution.Matching
import SharpEvPicks.Resolution.Names
import SharpEvPicks.Resolution.OrderBlind
import SharpEvPicks.Resolution.ProperSimilarity
import SharpEvPicks.Resolution.Quarantine
import SharpEvPicks.Resolution.SeedAliases
import SharpEvPicks.Resolution.Similarity
import SharpEvPicks.Resolution.Spellings
import SharpEvPicks.Risk.Exposure
import SharpEvPicks.Risk.Staking
import SharpEvPicks.Schemas
import SharpEvPicks.Settlement.Bets
import SharpEvPicks.Settlement.Blending
import SharpEvPicks.Settlement.BulkHint
import SharpEvPicks.Settlement.Dedup
import SharpEvPicks.Settlement.Engine
import SharpEvPicks.Settlement.LoneTransactions
import SharpEvPicks.Settlement.Lookup
import SharpEvPicks.Settlement.Merging
import SharpEvPicks.Settlement.OneResult
import SharpEvPicks.Settlement.Outcomes
import SharpEvPicks.Settlement.Results
import SharpEvPicks.Settlement.SportFence
import SharpEvPicks.Settlement.SpreadPairs
import SharpEvPicks.Settlement.ThreeWay
import SharpEvPicks.Settlement.TwoWay
import SharpEvPicks.Storage.Archive
import SharpEvPicks.Storage.Attachments
import SharpEvPicks.Storage.Closes
import SharpEvPicks.Storage.EventStages
import SharpEvPicks.Storage.Events
import SharpEvPicks.Storage.FixtureMerge
import SharpEvPicks.Storage.Kickoffs
import SharpEvPicks.Storage.Landings
import SharpEvPicks.Storage.LinkReuse
import SharpEvPicks.Storage.MarketKeys
import SharpEvPicks.Storage.Picks
import SharpEvPicks.Storage.Redetection
import SharpEvPicks.Storage.RefStability
import SharpEvPicks.Storage.Rekeying
import SharpEvPicks.Storage.ScrapeClock
import SharpEvPicks.Transition.Partial
import SharpEvPicks.Transition.Run
