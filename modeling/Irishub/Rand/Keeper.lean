import Irishub.Lib.Bytes
import Irishub.Lib.Store
import Irishub.Types.Int
import Mathlib.Order.Fin.Basic

/-!
# Rand: requests, keeper and blocks

The functions of `rand/internal/types/request.go`, `rng.go` and `msgs.go`, of
`rand/internal/keeper/keeper.go`, `rand/handler.go` and `rand/abci.go`.

The queue of pending requests is a table by height and request id, and the
results are a table by request id. In the database both stand in one store,
under the prefixes `randRequestQueue:` and `rands:`. A key of the queue has the
decimal height and a delimiter before the id, and no height has a delimiter in
its text, so that a scan of one height meets the entries of that height only, in
the order of their ids.

SHA-256 is a parameter. Addresses are byte strings, as the id of a request reads
them. The tags of the results are left out.
-/

namespace Irishub.Rand
open Lib

section

structure Request where
  height : ℕ
  consumer : Bytes
  txHash : Bytes
  deriving DecidableEq

set_option linter.dupNamespace false in
structure Rand where
  requestTxHash : Bytes
  height : ℤ
  value : ℚ
  deriving DecidableEq

structure MsgRequestRand where
  consumer : Bytes
  blockInterval : UInt64
  deriving DecidableEq

def MsgRequestRand.validateBasic (msg : MsgRequestRand) : Outcome Unit :=
  require (msg.consumer.length ≠ 0) .errInvalidConsumer

variable (sha256 : Bytes → Bytes)

def generateRequestID (r : Request) : Bytes :=
  sha256 (Bytes.bigEndian 8 r.height ++ r.consumer)

def randPrec : ℕ := 20

/-- `big.Int.Div`, which panics for a zero divisor. -/
def bigDiv (x y : ℤ) : Outcome ℤ := if y = 0 then raise .divisionByZero else .ok (x / y)

/-- `MakePRNG` and `PRNG.GetRand`. -/
def getRand (blockHash : Bytes) (blockTimestamp : ℤ) (txInitiator : Bytes) : Outcome ℚ := do
  let seedBT := blockTimestamp
  let seedBH ← bigDiv (sha256 blockHash).toNat seedBT
  let seedTI ← bigDiv (sha256 txInitiator).toNat seedBT
  -- the bytes of a negative number are those of its absolute value
  let seedSum := seedBT + seedBH + seedTI
  let seed := (sha256 (Bytes.ofNat seedSum.natAbs)).toNat
  return ((seed % 10 ^ randPrec : ℕ) : ℚ) / (10 ^ randPrec : ℕ)

end

/-- Tables of the module and the height of the block. -/
structure State where
  rands : Store Bytes Rand
  randRequestQueue : Store (ℤ ×ₗ Bytes) Request
  height : ℕ
  deriving DecidableEq

/-- Height at which a random number is generated: `int64` numbers wrap. -/
def destHeight (currentHeight : ℕ) (blockInterval : UInt64) : ℤ :=
  ((currentHeight : ℤ) + int64OfUint64 blockInterval.toNat).bmod (2 ^ 64)

namespace State
variable (sha256 : Bytes → Bytes) (s : State)

def setRand (reqID : Bytes) (rand : Rand) : State := { s with rands := s.rands.set reqID rand }

def getRand (reqID : Bytes) : Outcome Rand := found (s.rands.get reqID) .errInvalidReqID

def enqueueRandRequest (height : ℤ) (reqID : Bytes) (request : Request) : State :=
  { s with randRequestQueue := s.randRequestQueue.set (toLex (height, reqID)) request }

def dequeueRandRequest (height : ℤ) (reqID : Bytes) : State :=
  { s with randRequestQueue := s.randRequestQueue.delete (toLex (height, reqID)) }

def iterateRandRequestQueueByHeight (height : ℤ) : List Request :=
  (s.randRequestQueue.entries.filter (fun e => (ofLex e.1).1 = height)).map Prod.snd

def requestRand (txBytes consumer : Bytes) (blockInterval : UInt64) : State :=
  let currentHeight := s.height
  let txHash := sha256 txBytes
  let request : Request := ⟨currentHeight, consumer, txHash⟩
  let reqID := generateRequestID sha256 request
  s.enqueueRandRequest (destHeight currentHeight blockInterval) reqID request

def handleMsgRequestRand (txBytes : Bytes) (msg : MsgRequestRand) : State :=
  s.requestRand sha256 txBytes msg.consumer msg.blockInterval

/-- One iteration of `BeginBlocker`. -/
def handleRequest (lastBlockHeight : ℤ) (lastBlockHash : Bytes) (currentTimestamp : ℤ)
    (request : Request) : Outcome State := do
  let reqID := generateRequestID sha256 request
  let rand ← Rand.getRand sha256 lastBlockHash currentTimestamp request.consumer
  let s := s.setRand reqID ⟨request.txHash, lastBlockHeight, rand⟩
  return s.dequeueRandRequest lastBlockHeight reqID

/-- `BeginBlocker`; the iterator does not see the writes of the loop. -/
def beginBlocker (lastBlockHash : Bytes) (currentTimestamp : ℤ) : Outcome State :=
  let lastBlockHeight := (s.height : ℤ) - 1
  (s.iterateRandRequestQueueByHeight lastBlockHeight).foldlM
    (fun s request => s.handleRequest sha256 lastBlockHeight lastBlockHash currentTimestamp request)
    s

end State
end Irishub.Rand
