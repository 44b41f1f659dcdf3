import Irishub.Bank.Keeper
import Irishub.Lib.Bytes

/-!
# HTLC: records and messages

Hash time locked contracts (`htlc/internal/types`). A contract is stored under
its hash lock; `HTLCState` is its life cycle. Addresses in messages are required
by `ValidateBasic` and never empty here.
-/

namespace Irishub.Htlc
open Lib

inductive HTLCState
  | OPEN
  | COMPLETED
  | EXPIRED
  | REFUNDED
  deriving DecidableEq

structure HTLC where
  sender : Address
  toAddr : Address
  receiverOnOtherChain : String
  amount : Coins
  secret : Bytes
  timestamp : ℕ
  expireHeight : ℕ
  state : HTLCState
  deriving DecidableEq

/-- Zero value of `HTLC`; its empty addresses are written `0`. -/
def HTLC.zero : HTLC := ⟨0, 0, "", [], [], 0, 0, .OPEN⟩

def secretLength : ℕ := 32

def hashLockLength : ℕ := 32

def maxLengthForAddressOnOtherChain : ℕ := 128

def minTimeLock : ℕ := 50

def maxTimeLock : ℕ := 25480

structure MsgCreateHTLC where
  sender : Address
  toAddr : Address
  receiverOnOtherChain : String
  amount : Coins
  hashLock : Bytes
  timestamp : ℕ
  timeLock : ℕ
  deriving DecidableEq

structure MsgClaimHTLC where
  sender : Address
  hashLock : Bytes
  secret : Bytes
  deriving DecidableEq

structure MsgRefundHTLC where
  sender : Address
  hashLock : Bytes
  deriving DecidableEq

def MsgCreateHTLC.validateBasic (msg : MsgCreateHTLC) : Outcome Unit := do
  require (byteLen msg.receiverOnOtherChain ≤ maxLengthForAddressOnOtherChain) .errInvalidAddress
  require (msg.amount.isValid && msg.amount.isAllPositive) .errInvalidAmount
  require (msg.hashLock.length = hashLockLength) .errInvalidHashLock
  require (minTimeLock ≤ msg.timeLock ∧ msg.timeLock ≤ maxTimeLock) .errInvalidTimeLock

def MsgClaimHTLC.validateBasic (msg : MsgClaimHTLC) : Outcome Unit := do
  require (msg.hashLock.length = hashLockLength) .errInvalidHashLock
  require (msg.secret.length = secretLength) .errInvalidSecret

def MsgRefundHTLC.validateBasic (msg : MsgRefundHTLC) : Outcome Unit :=
  require (msg.hashLock.length = hashLockLength) .errInvalidHashLock

end Irishub.Htlc
