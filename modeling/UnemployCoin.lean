import UnemployCoin.IssuedRecords
import UnemployCoin.Base58
import UnemployCoin.CommandAuthorization
import UnemployCoin.FreezeRefinement
import UnemployCoin.UniqueIssuance
import UnemployCoin.Supply
import UnemployCoin.ReissueConflict
import UnemployCoin.RestrictedTransfers
import UnemployCoin.TagRefinement
import UnemployCoin.BlockAssets
import UnemployCoin.VerifierRefinement
import UnemployCoin.CoinsRestored
import UnemployCoin.IndexesRestored
import UnemployCoin.MempoolIndexes
import UnemployCoin.ReissueBounds
import UnemployCoin.AssetViews
import UnemployCoin.CoinsCache
import UnemployCoin.HeaderRoundTrip
import UnemployCoin.AssetScripts
import UnemployCoin.Activation
import UnemployCoin.MempoolClosure
import UnemployCoin.CoinSerialization
import UnemployCoin.PartialMerkleTree
import UnemployCoin.SnapshotStores
import UnemployCoin.Rewards
import UnemployCoin.MessageStore
import UnemployCoin.CrashRecovery
import UnemployCoin.CacheSetups
import UnemployCoin.AssetRecovery
import UnemployCoin.BlockDownload
import UnemployCoin.Bip9
import UnemployCoin.TransactionFormat
import UnemployCoin.AddressQueries
import UnemployCoin.BurnFees
import UnemployCoin.ScriptFlags
import UnemployCoin.AssetOwnership
import UnemployCoin.AddrManWrap
import UnemployCoin.VerifierGrammar
import UnemployCoin.NameGrammar
import UnemployCoin.SpendAssets
import UnemployCoin.CommandOrder
import UnemployCoin.SkipList
import UnemployCoin.Compact
import UnemployCoin.DarkGravityWave
import UnemployCoin.AssetDirectory
import UnemployCoin.CLRUCache
import UnemployCoin.CheckMultiSig
import UnemployCoin.ScriptParsing
import UnemployCoin.InterpreterBounds
import UnemployCoin.Unspendable
import UnemployCoin.SignatureHash
import UnemployCoin.CombineSignatures
import UnemployCoin.BlockReconstruction
import UnemployCoin.BlockTransactionsRequest
import UnemployCoin.LockPoints
import UnemployCoin.BlockRequests
import UnemployCoin.Orphans
import UnemployCoin.RollingBloomFilter
import UnemployCoin.AmountText
import UnemployCoin.ScriptNumbers
import UnemployCoin.AvailableCoins
import UnemployCoin.Mnemonic
