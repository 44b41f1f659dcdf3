import Irishub.Bank.Msg
import Irishub.Htlc.Types

/-!
# HTLC: keeper, handlers and blocks

The functions of `htlc/internal/keeper/keeper.go`, `htlc/handler.go`,
`htlc/abci.go` and `htlc/genesis.go` on the two tables of the module: the
contracts by hash lock, and the expiration queue by height and hash lock. In the
database both stand in one store, under the prefixes `htlcs:` and
`htlcExpireQueue:`, none of which begins with the other; the height in a queue
key has a fixed length, so that a scan of one height meets the entries of that
height only.

The only place where the bytes of a key matter is `IterateHTLCs`, which cuts the
key at every `:` and takes the second part for the hash lock. SHA-256 is a
parameter.

The state also holds the bank and the height of the block. Heights are `int64`
numbers that are not negative, converted to `uint64` where the source does.
-/

namespace Irishub.Htlc
open Lib

/-- `auth.HTLCLockedCoinsAccAddr`, the truncated SHA-256 hash of its name. -/
def htlcLockedCoinsAccAddr : Address := 0x9e65d7a5dc737a6398c16e0006b7c6889249f6a6

structure State where
  bank : Bank
  htlcs : Store Bytes HTLC
  expireQueue : Store (ℕ ×ₗ Bytes) Bytes
  height : ℕ
  deriving DecidableEq

/-- `GenesisState`, the contracts by the hexadecimal text of their hash locks. -/
structure GenesisState where
  pendingHTLCs : Store String HTLC
  deriving DecidableEq

def keyDelimiter : Byte := ⟨0x3a, by decide⟩

/-- Bytes of `htlcs`. -/
def htlcsWord : Bytes :=
  [⟨0x68, by decide⟩, ⟨0x74, by decide⟩, ⟨0x6c, by decide⟩, ⟨0x63, by decide⟩, ⟨0x73, by decide⟩]

def prefixHTLC : Bytes := htlcsWord ++ [keyDelimiter]

def keyHTLC (hashLock : Bytes) : Bytes := prefixHTLC ++ hashLock

/-- Hash lock that `IterateHTLCs` takes from a key. -/
def hashLockOfKey (key : Bytes) : Outcome Bytes :=
  deref (Bytes.splitOn keyDelimiter key)[1]? .indexOutOfRange

def getHashLock (sha256 : Bytes → Bytes) (secret : Bytes) (timestamp : ℕ) : Bytes :=
  if 0 < timestamp then sha256 (secret ++ Bytes.bigEndian 8 timestamp) else sha256 secret

/-- Contract that `ExportGenesis` writes for an open one: its expire height counts from the
current block. -/
def HTLC.exported (htlc : HTLC) (blockHeight : ℕ) : HTLC :=
  { htlc with expireHeight := (htlc.expireHeight + (2 ^ 64 - blockHeight) + 1) % 2 ^ 64 }

/-- Contract of a create message, as its handler builds it. -/
def MsgCreateHTLC.htlc (msg : MsgCreateHTLC) (blockHeight : ℕ) : HTLC where
  sender := msg.sender
  toAddr := msg.toAddr
  receiverOnOtherChain := msg.receiverOnOtherChain
  amount := msg.amount
  secret := []
  timestamp := msg.timestamp
  expireHeight := (msg.timeLock + blockHeight) % 2 ^ 64
  state := .OPEN

namespace State

section
variable (s : State)

def hasHashLock (hashLock : Bytes) : Bool := s.htlcs.has hashLock

def setHTLC (htlc : HTLC) (hashLock : Bytes) : State :=
  { s with htlcs := s.htlcs.set hashLock htlc }

def getHTLC (hashLock : Bytes) : Outcome HTLC := found (s.htlcs.get hashLock) .errInvalidHashLock

def addHTLCToExpireQueue (expireHeight : ℕ) (hashLock : Bytes) : State :=
  { s with expireQueue := s.expireQueue.set (toLex (expireHeight, hashLock)) hashLock }

def deleteHTLCFromExpireQueue (expireHeight : ℕ) (hashLock : Bytes) : State :=
  { s with expireQueue := s.expireQueue.delete (toLex (expireHeight, hashLock)) }

/-- `SendCoins` of the bank keeper. -/
def sendCoins (fromAddr toAddr : Address) (amt : Coins) : Outcome State := do
  let bank ← s.bank.sendCoins fromAddr toAddr amt
  return { s with bank := bank }

def createHTLC (htlc : HTLC) (hashLock : Bytes) : Outcome State := do
  require (!s.hasHashLock hashLock) .errHashLockAlreadyExists
  let s ← s.sendCoins htlc.sender htlcLockedCoinsAccAddr htlc.amount
  let s := s.setHTLC htlc hashLock
  return s.addHTLCToExpireQueue htlc.expireHeight hashLock

def claimHTLC (sha256 : Bytes → Bytes) (hashLock secret : Bytes) : Outcome State := do
  let htlc ← s.getHTLC hashLock
  require (htlc.state = .OPEN) .errStateIsNotOpen
  require (getHashLock sha256 secret htlc.timestamp = hashLock) .errInvalidSecret
  let s ← s.sendCoins htlcLockedCoinsAccAddr htlc.toAddr htlc.amount
  let s := s.setHTLC { htlc with secret := secret, state := .COMPLETED } hashLock
  return s.deleteHTLCFromExpireQueue htlc.expireHeight hashLock

def refundHTLC (hashLock : Bytes) : Outcome State := do
  let htlc ← s.getHTLC hashLock
  require (htlc.state = .EXPIRED) .errStateIsNotOpen
  let s ← s.sendCoins htlcLockedCoinsAccAddr htlc.sender htlc.amount
  return s.setHTLC { htlc with state := .REFUNDED } hashLock

end

section
variable (s : State)

/-- `IterateHTLCExpireQueueByHeight`: the hash locks under a height. -/
def iterateHTLCExpireQueueByHeight (height : ℕ) : List Bytes :=
  (s.expireQueue.entries.filter (fun e => (ofLex e.1).1 = height)).map Prod.snd

/-- One iteration of `BeginBlocker`; the error of `GetHTLC` is ignored. -/
def expireHTLC (hashLock : Bytes) : State :=
  let htlc := (s.htlcs.get hashLock).getD .zero
  let s' := s.setHTLC { htlc with state := .EXPIRED } hashLock
  s'.deleteHTLCFromExpireQueue s.height hashLock

/-- `BeginBlocker`; the iterator does not see the writes of the loop. -/
def beginBlocker : State := (s.iterateHTLCExpireQueueByHeight s.height).foldl expireHTLC s

end

section
variable (s : State)

def handleMsgCreateHTLC (msg : MsgCreateHTLC) : Outcome State :=
  s.createHTLC (msg.htlc s.height) msg.hashLock

def handleMsgClaimHTLC (sha256 : Bytes → Bytes) (msg : MsgClaimHTLC) : Outcome State :=
  s.claimHTLC sha256 msg.hashLock msg.secret

def handleMsgRefundHTLC (msg : MsgRefundHTLC) : Outcome State := s.refundHTLC msg.hashLock

end

section
variable (s : State)

/-- One iteration of `InitGenesis`. -/
def initHTLC (hashLockHex : String) (htlc : HTLC) : Outcome State := do
  let hashLock ← deref (Bytes.hexDecode hashLockHex) .initHTLCGenesis
  let s := s.setHTLC htlc hashLock
  return s.addHTLCToExpireQueue htlc.expireHeight hashLock

def initGenesis (data : GenesisState) : Outcome State :=
  data.pendingHTLCs.entries.foldlM (fun s e => s.initHTLC e.1 e.2) s

/-- Refund of an expired contract by `ExportGenesis`. -/
def refundExpired (hashLock : Bytes) : Outcome State :=
  match s.refundHTLC hashLock with
  | .error (.error _) => raise .exportHTLCGenesis
  | r => r

/-- Function that `ExportGenesis` passes to `IterateHTLCs`. -/
def exportHTLC (pending : Store String HTLC) (hlock : Bytes) (h : HTLC) :
    Outcome (State × Store String HTLC) :=
  match h.state with
  | .OPEN => return (s, pending.set (Bytes.hexEncode hlock) (h.exported s.height))
  | .EXPIRED => do return (← s.refundExpired hlock, pending)
  | _ => return (s, pending)

/-- `IterateHTLCs` with the function of `ExportGenesis`. -/
def exportHTLCs : State → Store String HTLC → List (Bytes × HTLC) →
    Outcome (State × Store String HTLC)
  | s, pending, [] => return (s, pending)
  | s, pending, e :: entries => do
    let hashLock ← hashLockOfKey (keyHTLC e.1)
    let (s, pending) ← s.exportHTLC pending hashLock e.2
    exportHTLCs s pending entries

/-- `ExportGenesis`, with the state after its refunds. -/
def exportGenesis : Outcome (State × GenesisState) := do
  let (s, pending) ← exportHTLCs s .empty s.htlcs.entries
  return (s, ⟨pending⟩)

end
end State

/-- What happens on the chain: the messages of the module and of the bank, and the beginning of
a block. -/
inductive Op
  | create (msg : MsgCreateHTLC)
  | claim (msg : MsgClaimHTLC)
  | refund (msg : MsgRefundHTLC)
  | send (msg : Bank.MsgSend)
  | burn (msg : Bank.MsgBurn)
  | beginBlock
  deriving DecidableEq

/-- An operation; messages are checked by `ValidateBasic` first, and a failed message leaves
no state. -/
def Op.run (sha256 : Bytes → Bytes) (s : State) : Op → Outcome State
  | .create msg => do
    msg.validateBasic
    s.handleMsgCreateHTLC msg
  | .claim msg => do
    msg.validateBasic
    s.handleMsgClaimHTLC sha256 msg
  | .refund msg => do
    msg.validateBasic
    s.handleMsgRefundHTLC msg
  | .send msg => do return { s with bank := ← s.bank.deliverSend msg }
  | .burn msg => do return { s with bank := ← s.bank.deliverBurn msg }
  | .beginBlock => .ok { s with height := s.height + 1 }.beginBlocker

end Irishub.Htlc
