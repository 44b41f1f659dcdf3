import Irishub.Types.CoinOperands
import Irishub.Types.DecRounding
import Irishub.Types.CoinType
import Irishub.Types.DecCoinSums
import Irishub.Stake.SignBytes
import Irishub.Stake.Keys
import Irishub.Htlc.Export
import Irishub.Bank.Transfers
import Irishub.App.Genesis
import Irishub.Service.Deposits
import Irishub.Service.RequestID
import Irishub.Service.Isolation
import Irishub.Gov.Counters
import Irishub.Coinswap.Reserves
import Irishub.Stake.PowerIndex
import Irishub.Stake.Tokens
import Irishub.Stake.Maturity
import Irishub.BaseApp.Settlement
import Irishub.Slashing.Downtime
import Irishub.Coinswap.RoundTrips
import Irishub.Coinswap.Naming
import Irishub.Asset.RoundTrip
import Irishub.KVStore.PrefixStore
import Irishub.KVStore.MultiStore
import Irishub.Rand.Export
import Irishub.Asset.IssueFee
import Irishub.Stake.RoundTrip
import Irishub.Upgrade.EndBlock
