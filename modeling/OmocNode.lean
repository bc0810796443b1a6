import OmocNode.Proofs.IpFilterRuns
import OmocNode.Proofs.QuotedPublications
import OmocNode.Proofs.MulticallSignatures
import OmocNode.Proofs.PublisherCount
import OmocNode.Proofs.FallbackTurns
import OmocNode.Proofs.PairTasks
import OmocNode.Proofs.NonceProgress
import OmocNode.Proofs.PriceFeedRuns
import OmocNode.Proofs.SyncedQuorum
import OmocNode.Proofs.ExchangeSignature
import OmocNode.Proofs.GasPriceRecovery
import OmocNode.Proofs.GasPriceLimits
import OmocNode.Proofs.ExchangeOutcomes
import OmocNode.Proofs.StalePeers
import OmocNode.Proofs.StoppedTasks
import OmocNode.Proofs.NearestSample
import OmocNode.Proofs.StakeBuckets
import OmocNode.Proofs.PublishOutcomes
import OmocNode.Proofs.Subscriptions
import OmocNode.Proofs.PairIsolation
import OmocNode.Proofs.UnneededVerdict
import OmocNode.Proofs.WholeFetch
import OmocNode.Proofs.TurnVerdicts
import OmocNode.Proofs.UnauthenticatedRequests
import OmocNode.Proofs.RoundMembership
import OmocNode.Proofs.PriceChangeLatch
import OmocNode.Proofs.StartUp
import OmocNode.Proofs.TaskCountdown
import OmocNode.Proofs.ChainView
import OmocNode.Proofs.NonceLock
import OmocNode.BcExecute
import OmocNode.Runs
import OmocNode.Proofs.TaskSignatures
import OmocNode.Proofs.MedianPrice
import OmocNode.Proofs.WeightedMedian
import OmocNode.PriceFeeder
import OmocNode.Proofs.TaskTurns
import OmocNode.Proofs.SignatureRequests
import OmocNode.Proofs.DecimalText
import OmocNode.Proofs.SignedMessages
import OmocNode.Proofs.PreExpiryWindow
import OmocNode.Proofs.TurnRuns
import OmocNode.Proofs.ChainReads
import OmocNode.Proofs.SignEndpoints
import OmocNode.Proofs.FaultyPeers
import OmocNode.Proofs.PublishedQuorum
import OmocNode.Proofs.TurnAgreement
import OmocNode.Proofs.TurnWindows
import OmocNode.Proofs.StateSwitches
import OmocNode.Proofs.FallbackSequence
import OmocNode.OracleTurn
import OmocNode.BlockchainInfo
import OmocNode.RequestValidation
import OmocNode.App
import OmocNode.CoinPairLoop
import OmocNode.OracleDao
import OmocNode.Proofs.StakeLottery
import OmocNode.SelectNext
import OmocNode.Proofs.DecimalRounding
import OmocNode.Sha256
