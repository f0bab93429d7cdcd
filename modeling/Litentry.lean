import Litentry.Lib.SortedVec
import Litentry.Lib.Reach
import Litentry.Lib.Triple
import Litentry.Staking.Types
import Litentry.Staking.Storage
import Litentry.Staking.Candidate
import Litentry.Staking.Delegation
import Litentry.Staking.Calls
import Litentry.Staking.Consistency
import Litentry.Primitives.Identity
import Litentry.IdentityManagement.Pallet
import Litentry.IdentityManagement.Store
import Litentry.Bridge.Pallet
import Litentry.Bridge.Voting
import Litentry.Bridge.AssetsHandler
import Litentry.Bridge.Transfer
import Litentry.Staking.Pool
import Litentry.Staking.PoolCalls
import Litentry.Primitives.Signature
import Litentry.Stf.Signing
import Litentry.Staking.Selection
import Litentry.AssetManager.Pallet
import Litentry.Lib.StorageMap
import Litentry.Lib.Word
import Litentry.ScoreStaking.Pallet
import Litentry.ScoreStaking.Invariants
import Litentry.Teebag.Pallet
import Litentry.Teebag.Registry
import Litentry.Staking.Inflation
import Litentry.Lib.PerThing
import Litentry.Staking.Rewards
import Litentry.Staking.Payouts
import Litentry.Bitacross.Ceremony
import Litentry.Staking.MethodShape
import Litentry.Assertion.AbortStrategy
import Litentry.Credential.Range
import Litentry.Lib.Encoding
import Litentry.IdentityManagement.Order
import Litentry.ScoreStaking.Rewards
import Litentry.Xcm.Trader
import Litentry.Xcm.Location
import Litentry.Assertion.HoldingTime
import Litentry.Lib.Abi
import Litentry.DynamicAssertions.Precompiles
import Litentry.Bridge.Deposits
import Litentry.Staking.SelfBond
import Litentry.Staking.Rebalance
import Litentry.Staking.Ledger
import Litentry.Staking.LedgerCalls
