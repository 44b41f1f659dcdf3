import Irishub.Stake.Msg

/-!
# Stake: what a signature binds

`GetSignBytes` of each staking message marshals a struct with the JSON codec.
The codec and the bech32 form of a consensus key are parameters, injective where
a statement needs it. `HandlerFields` lists, for each message, the fields its
handler reads; a signature binds a message when the signed bytes determine them.

The documents of `MsgDelegate`, `MsgBeginRedelegate` and `MsgBeginUnbonding`
determine the whole message. The document of `MsgCreateValidator` leaves the
commission and the delegator out, that of `MsgEditValidator` the new commission
rate, and these fields can be replaced under the same signature.
-/

namespace Irishub.Stake
open Lib

/-- Staking messages. -/
inductive StakeMsg
  | createValidator (msg : MsgCreateValidator)
  | editValidator (msg : MsgEditValidator)
  | delegate (msg : MsgDelegate)
  | beginRedelegate (msg : MsgBeginRedelegate)
  | beginUnbonding (msg : MsgBeginUnbonding)
  deriving DecidableEq

/-- Types of the staking messages. -/
inductive MsgType
  | createValidator
  | editValidator
  | delegate
  | beginRedelegate
  | beginUnbonding
  deriving DecidableEq

/-- Fields that the handlers of `stake/handler.go` read. Of the commission of a new validator
this is the rate alone. -/
inductive HandlerFields
  | createValidator (validatorAddr : Address) (pubKey : PubKey) (description : Description)
      (rate : Option Dec) (delegatorAddr : Address) (delegation : Coin)
  | editValidator (validatorAddr : Address) (description : Description)
      (commissionRate : Option Dec)
  | delegate (delegatorAddr validatorAddr : Address) (delegation : Coin)
  | beginRedelegate (delegatorAddr validatorSrcAddr validatorDstAddr : Address)
      (sharesAmount : Dec)
  | beginUnbonding (delegatorAddr validatorAddr : Address) (sharesAmount : Dec)
  deriving DecidableEq

namespace StakeMsg

def type : StakeMsg → MsgType
  | createValidator _ => .createValidator
  | editValidator _ => .editValidator
  | delegate _ => .delegate
  | beginRedelegate _ => .beginRedelegate
  | beginUnbonding _ => .beginUnbonding

def validateBasic : StakeMsg → Outcome Unit
  | createValidator msg => msg.validateBasic
  | editValidator msg => msg.validateBasic
  | delegate msg => msg.validateBasic
  | beginRedelegate msg => msg.validateBasic
  | beginUnbonding msg => msg.validateBasic

def handlerFields : StakeMsg → HandlerFields
  | createValidator msg => .createValidator msg.validatorAddr msg.pubKey msg.description
      msg.commission.rate msg.delegatorAddr msg.delegation
  | editValidator msg => .editValidator msg.validatorAddr msg.description msg.commissionRate
  | delegate msg => .delegate msg.delegatorAddr msg.validatorAddr msg.delegation
  | beginRedelegate msg => .beginRedelegate msg.delegatorAddr msg.validatorSrcAddr
      msg.validatorDstAddr msg.sharesAmount
  | beginUnbonding msg => .beginUnbonding msg.delegatorAddr msg.validatorAddr msg.sharesAmount

end StakeMsg

/-- Encoders that the sign bytes depend on: `MustSortJSON` of `MarshalJSON` for each struct,
and the bech32 form of a consensus key. -/
structure Codec (Bytes : Type) where
  bech32ifyConsPub : PubKey → String
  createValidator : CreateValidatorDoc → Bytes
  editValidator : EditValidatorDoc → Bytes
  delegate : MsgDelegate → Bytes
  beginRedelegate : BeginRedelegateDoc → Bytes
  beginUnbonding : BeginUnbondingDoc → Bytes

namespace Codec
variable {Bytes : Type}

/-- Every encoder is injective on the struct it is given. -/
structure Injective (c : Codec Bytes) : Prop where
  bech32ifyConsPub : Function.Injective c.bech32ifyConsPub
  createValidator : Function.Injective c.createValidator
  editValidator : Function.Injective c.editValidator
  delegate : Function.Injective c.delegate
  beginRedelegate : Function.Injective c.beginRedelegate
  beginUnbonding : Function.Injective c.beginUnbonding

def getSignBytes (c : Codec Bytes) : StakeMsg → Bytes
  | .createValidator msg => c.createValidator (msg.signDoc c.bech32ifyConsPub)
  | .editValidator msg => c.editValidator msg.signDoc
  | .delegate msg => c.delegate msg
  | .beginRedelegate msg => c.beginRedelegate msg.signDoc
  | .beginUnbonding msg => c.beginUnbonding msg.signDoc

variable {c : Codec Bytes}

lemma eq_of_delegate_signBytes (hc : c.Injective) {msg msg' : MsgDelegate}
    (h : c.getSignBytes (.delegate msg) = c.getSignBytes (.delegate msg')) : msg = msg' :=
  hc.delegate h

lemma eq_of_beginRedelegate_signBytes (hc : c.Injective) {msg msg' : MsgBeginRedelegate}
    (hv : msg.validateBasic = .ok ()) (hv' : msg'.validateBasic = .ok ())
    (h : c.getSignBytes (.beginRedelegate msg) = c.getSignBytes (.beginRedelegate msg')) :
    msg = msg' := by
  simp only [MsgBeginRedelegate.validateBasic, require_ok, decide_eq_true_eq, Dec.lt_def,
    Dec.zero_raw] at hv hv'
  have hdoc := hc.beginRedelegate h
  simp only [MsgBeginRedelegate.signDoc, BeginRedelegateDoc.mk.injEq] at hdoc
  obtain ⟨hdel, hsrc, hdst, hshares⟩ := hdoc
  have hsharesEq := Dec.eq_of_string_eq hv.le hv'.le hshares
  cases msg
  cases msg'
  simp only [MsgBeginRedelegate.mk.injEq]
  exact ⟨hdel, hsrc, hdst, hsharesEq⟩

lemma eq_of_beginUnbonding_signBytes (hc : c.Injective) {msg msg' : MsgBeginUnbonding}
    (hv : msg.validateBasic = .ok ()) (hv' : msg'.validateBasic = .ok ())
    (h : c.getSignBytes (.beginUnbonding msg) = c.getSignBytes (.beginUnbonding msg')) :
    msg = msg' := by
  simp only [MsgBeginUnbonding.validateBasic, require_ok, decide_eq_true_eq, Dec.lt_def,
    Dec.zero_raw] at hv hv'
  have hdoc := hc.beginUnbonding h
  simp only [MsgBeginUnbonding.signDoc, BeginUnbondingDoc.mk.injEq] at hdoc
  obtain ⟨hdel, hval, hshares⟩ := hdoc
  have hsharesEq := Dec.eq_of_string_eq hv.le hv'.le hshares
  cases msg
  cases msg'
  simp only [MsgBeginUnbonding.mk.injEq]
  exact ⟨hdel, hval, hsharesEq⟩

end Codec

/-- Signature of a message of type `τ` binds what its handler reads. -/
def SignatureBinds {Bytes : Type} (c : Codec Bytes) (τ : MsgType) : Prop :=
  ∀ m m' : StakeMsg, m.type = τ → m'.type = τ → m.validateBasic = .ok () →
    m'.validateBasic = .ok () → c.getSignBytes m = c.getSignBytes m' →
    m.handlerFields = m'.handlerFields

def sampleCreate (rate : ℤ) : MsgCreateValidator where
  description := ⟨"v", "", "", ""⟩
  commission := ⟨some ⟨rate⟩, some Dec.one, some Dec.one⟩
  delegatorAddr := 1
  validatorAddr := 1
  pubKey := ⟨"ed25519", 7⟩
  delegation := ⟨irisAtto, 100⟩

def sampleEdit (rate : Option Dec) : MsgEditValidator where
  description := ⟨"v", "", "", ""⟩
  validatorAddr := 1
  commissionRate := rate

variable {Bytes : Type} {c : Codec Bytes}

lemma not_signatureBinds_createValidator : ¬ SignatureBinds c .createValidator := by
  intro h
  have heq := h (.createValidator (sampleCreate 0)) (.createValidator (sampleCreate 1)) rfl rfl
    (by decide +kernel) (by decide +kernel) rfl
  exact absurd heq (by decide)

lemma not_signatureBinds_editValidator : ¬ SignatureBinds c .editValidator := by
  intro h
  have heq := h (.editValidator (sampleEdit none)) (.editValidator (sampleEdit (some Dec.one)))
    rfl rfl (by decide +kernel) (by decide +kernel) rfl
  exact absurd heq (by decide)

/-- Signature binds the message for exactly three of the five types. -/
theorem signatureBinds_iff (hc : c.Injective) (τ : MsgType) :
    SignatureBinds c τ ↔ τ = .delegate ∨ τ = .beginRedelegate ∨ τ = .beginUnbonding := by
  constructor
  · intro h
    cases τ with
    | createValidator => exact absurd h not_signatureBinds_createValidator
    | editValidator => exact absurd h not_signatureBinds_editValidator
    | delegate => exact Or.inl rfl
    | beginRedelegate => exact Or.inr (Or.inl rfl)
    | beginUnbonding => exact Or.inr (Or.inr rfl)
  · rintro hτ m m' hm hm' hv hv' hbytes
    -- the types of the two messages agree, so only the diagonal cases remain
    cases m <;> cases m' <;> simp only [StakeMsg.type] at hm hm' <;> subst hm <;>
      simp only [reduceCtorEq, or_false, or_true] at hm' hτ
    case delegate.delegate msg msg' => rw [Codec.eq_of_delegate_signBytes hc hbytes]
    case beginRedelegate.beginRedelegate msg msg' =>
      rw [Codec.eq_of_beginRedelegate_signBytes hc hv hv' hbytes]
    case beginUnbonding.beginUnbonding msg msg' =>
      rw [Codec.eq_of_beginUnbonding_signBytes hc hv hv' hbytes]

/-- Structs themselves, as the bytes of a codec that loses nothing. -/
inductive PlainDoc
  | createValidator (doc : CreateValidatorDoc)
  | editValidator (doc : EditValidatorDoc)
  | delegate (doc : MsgDelegate)
  | beginRedelegate (doc : BeginRedelegateDoc)
  | beginUnbonding (doc : BeginUnbondingDoc)
  deriving DecidableEq

def plainConsPub (k : PubKey) : String :=
  String.ofList (List.replicate k.bytes '1' ++ '.' :: k.keyType.toList)

lemma replicate_append_cons_inj {m n : ℕ} {s t : List Char}
    (h : List.replicate m '1' ++ '.' :: s = List.replicate n '1' ++ '.' :: t) : m = n ∧ s = t := by
  induction m generalizing n with
  | zero =>
    cases n with
    | zero => exact ⟨rfl, by simpa using h⟩
    | succ n => simp [List.replicate_succ] at h
  | succ m ih =>
    cases n with
    | zero => simp [List.replicate_succ] at h
    | succ n =>
      simp only [List.replicate_succ, List.cons_append, List.cons.injEq, true_and] at h
      obtain ⟨hm, hs⟩ := ih h
      exact ⟨by omega, hs⟩

lemma plainConsPub_injective : Function.Injective plainConsPub := by
  intro k k' h
  obtain ⟨hbytes, htype⟩ := replicate_append_cons_inj (String.ofList_injective h)
  cases k
  cases k'
  simp only [PubKey.mk.injEq]
  exact ⟨String.toList_injective htype, hbytes⟩

def plainCodec : Codec PlainDoc where
  bech32ifyConsPub := plainConsPub
  createValidator := .createValidator
  editValidator := .editValidator
  delegate := .delegate
  beginRedelegate := .beginRedelegate
  beginUnbonding := .beginUnbonding

lemma plainCodec_injective : plainCodec.Injective where
  bech32ifyConsPub := plainConsPub_injective
  createValidator := fun _ _ h => PlainDoc.createValidator.inj h
  editValidator := fun _ _ h => PlainDoc.editValidator.inj h
  delegate := fun _ _ h => PlainDoc.delegate.inj h
  beginRedelegate := fun _ _ h => PlainDoc.beginRedelegate.inj h
  beginUnbonding := fun _ _ h => PlainDoc.beginUnbonding.inj h

/-- Two valid messages with the same signed bytes that set different commission rates. -/
theorem sampleCreate_same_signBytes :
    (sampleCreate 0).validateBasic = .ok () ∧ (sampleCreate 1).validateBasic = .ok () ∧
      plainCodec.getSignBytes (.createValidator (sampleCreate 0)) =
        plainCodec.getSignBytes (.createValidator (sampleCreate 1)) ∧
      (StakeMsg.createValidator (sampleCreate 0)).handlerFields ≠
        (StakeMsg.createValidator (sampleCreate 1)).handlerFields :=
  ⟨by decide +kernel, by decide +kernel, rfl, by decide⟩

/-- Signature of a delegation binds it. -/
theorem delegate_signature_binds : SignatureBinds plainCodec .delegate :=
  (signatureBinds_iff plainCodec_injective .delegate).mpr (Or.inl rfl)

end Irishub.Stake
