import Irishub.Lib.Bytes
import Irishub.Stake.State

/-!
# Stake: the keys of the indexes

The byte strings of `stake/keeper/key.go`. The key of the power index has the power
before the inverted address, so its byte order is the order of the powers and, among
validators of one power, the reversed order of the addresses: the order of the pairs
that stand for these keys in the state (`powerRankKey_lt_iff`). The keys of the other
indexes hold the addresses of a primary key in another order.

**Results**

* `index_keys_exact`: the order of the power index, and the round trips of all index
  keys.
-/

namespace Irishub.Stake
open Lib List Bytes

def addrLen : ℕ := 20

/-- Bytes of an address. -/
def addrBytes (addr : Address) : Bytes := bigEndian addrLen addr

/-- `copy` into `n` zero bytes. -/
def copied (n : ℕ) (bz : Bytes) : Bytes := bz.take n ++ replicate (n - bz.length) (byte 0)

/-- `indexKey[i:j]`. -/
def cut (i j : ℕ) (bz : Bytes) : Bytes := (bz.take j).drop i

/-- `getValidatorPowerRank`, as bytes. -/
def powerRankKey (validator : Validator) : Outcome Bytes := do
  let tendermintPower ← validator.getPotentialPower.roundInt64
  let operAddrInvr := (addrBytes validator.operatorAddr).map Fin.rev
  return byte 0x23 :: (bigEndian 8 (uint64OfInt64 tendermintPower) ++ copied addrLen operAddrInvr)

/-- `parseValidatorPowerRankKey`; the error is the text of its panic. -/
def parseValidatorPowerRankKey (key : Bytes) : Except String Bytes :=
  if key.length ≠ 1 + 8 + addrLen then .error "Invalid validator power rank key length"
  else .ok ((key.drop 9).map Fin.rev)

def getUBDKey (delAddr valAddr : Bytes) : Bytes := byte 0x32 :: delAddr ++ valAddr

def getUBDByValIndexKey (delAddr valAddr : Bytes) : Bytes := byte 0x33 :: valAddr ++ delAddr

def getUBDKeyFromValIndexKey (indexKey : Bytes) : Except String Bytes :=
  let addrs := indexKey.drop 1
  if addrs.length ≠ 2 * addrLen then .error "unexpected key length"
  else .ok (getUBDKey (addrs.drop addrLen) (addrs.take addrLen))

def getREDKey (delAddr valSrcAddr valDstAddr : Bytes) : Bytes :=
  copied (addrLen + 1) (byte 0x34 :: delAddr) ++ copied addrLen valSrcAddr ++
    copied addrLen valDstAddr

def getREDByValSrcIndexKey (delAddr valSrcAddr valDstAddr : Bytes) : Bytes :=
  byte 0x35 :: valSrcAddr ++ copied addrLen delAddr ++ copied addrLen valDstAddr

def getREDByValDstIndexKey (delAddr valSrcAddr valDstAddr : Bytes) : Bytes :=
  byte 0x36 :: valDstAddr ++ copied addrLen delAddr ++ copied addrLen valSrcAddr

def getREDKeyFromValSrcIndexKey (indexKey : Bytes) : Except String Bytes :=
  if indexKey.length ≠ 3 * addrLen + 1 then .error "unexpected key length"
  else .ok (getREDKey (cut (addrLen + 1) (2 * addrLen + 1) indexKey) (cut 1 (addrLen + 1) indexKey)
    (cut (2 * addrLen + 1) (3 * addrLen + 1) indexKey))

def getREDKeyFromValDstIndexKey (indexKey : Bytes) : Except String Bytes :=
  if indexKey.length ≠ 3 * addrLen + 1 then .error "unexpected key length"
  else .ok (getREDKey (cut (addrLen + 1) (2 * addrLen + 1) indexKey)
    (cut (2 * addrLen + 1) (3 * addrLen + 1) indexKey) (cut 1 (addrLen + 1) indexKey))

lemma copied_eq_self {bz : Bytes} {n : ℕ} (h : bz.length = n) : copied n bz = bz := by
  subst h
  simp [copied]

@[simp] lemma length_addrBytes (addr : Address) : (addrBytes addr).length = addrLen :=
  length_bigEndian _ _

lemma uint64OfInt64_lt (n : ℤ) : uint64OfInt64 n < 2 ^ 64 := by
  unfold uint64OfInt64
  omega

/-- Pairs of a power and an inverted address. -/
lemma toLex_rank_lt_iff {power power' : ℕ} {addr addr' : Address} :
    (toLex (power, 2 ^ 160 - 1 - (addr : ℤ)) : ℕ ×ₗ ℤ) < toLex (power', 2 ^ 160 - 1 - (addr' : ℤ)) ↔
      power < power' ∨ power = power' ∧ addr' < addr := by
  have haddr : (2 : ℤ) ^ 160 - 1 - addr < 2 ^ 160 - 1 - addr' ↔ addr' < addr :=
    (sub_lt_sub_iff_left _).trans Nat.cast_lt
  rw [Prod.Lex.toLex_lt_toLex, haddr]

/-- The pairs under which the power index is kept are in the order of its keys. -/
lemma powerRankKey_lt_iff {v v' : Validator} {key key' : Bytes} {rank rank' : PowerRank}
    (hv : v.operatorAddr < 2 ^ 160) (hv' : v'.operatorAddr < 2 ^ 160)
    (hkey : powerRankKey v = .ok key) (hkey' : powerRankKey v' = .ok key')
    (hrank : State.getValidatorPowerRank v = .ok rank)
    (hrank' : State.getValidatorPowerRank v' = .ok rank') : key < key' ↔ rank < rank' := by
  simp only [powerRankKey, State.getValidatorPowerRank, bind_ok, pure_eq_ok]
    at hkey hkey' hrank hrank'
  obtain ⟨power, hpower, rfl⟩ := hkey
  obtain ⟨power', hpower', rfl⟩ := hkey'
  obtain ⟨_, hsame, rfl⟩ := hrank
  obtain ⟨_, hsame', rfl⟩ := hrank'
  cases hpower.symm.trans hsame
  cases hpower'.symm.trans hsame'
  have hlt := uint64OfInt64_lt power
  have hlt' := uint64OfInt64_lt power'
  have heq : bigEndian 8 (uint64OfInt64 power) = bigEndian 8 (uint64OfInt64 power') ↔
      uint64OfInt64 power = uint64OfInt64 power' :=
    ⟨bigEndian_injOn (by omega) (by omega), congrArg _⟩
  rw [copied_eq_self (by simp), copied_eq_self (by simp), cons_lt_cons_iff,
    append_lt_append_iff (by simp), bigEndian_lt_iff (by omega) (by omega), heq,
    map_rev_lt_iff (by simp), addrBytes, addrBytes,
    bigEndian_lt_iff (by unfold addrLen; omega) (by unfold addrLen; omega), toLex_rank_lt_iff]
  simp only [lt_irrefl, false_or, true_and]

lemma powerRankKey_eq {validator : Validator} {power : ℕ}
    (h : validator.getPotentialPower.roundInt64 = .ok (power : ℤ)) :
    powerRankKey validator = .ok (byte 0x23 ::
        (bigEndian 8 power ++ (addrBytes validator.operatorAddr).map Fin.rev)) ∧
      State.getValidatorPowerRank validator =
        .ok (toLex (power, 2 ^ 160 - 1 - validator.operatorAddr)) := by
  have hrange : (power : ℤ) < 2 ^ 63 := by
    simp only [Dec.roundInt64] at h
    split_ifs at h with hbound
    · rw [Except.ok.injEq] at h
      exact h ▸ hbound.2
    · simp at h
  have huint : uint64OfInt64 power = power := by
    unfold uint64OfInt64
    omega
  rw [powerRankKey, State.getValidatorPowerRank, h, ok_bind, ok_bind]
  dsimp only
  rw [huint, copied_eq_self (by simp), pure_ok, pure_ok]
  exact ⟨rfl, rfl⟩

/-- Parts of a key that is made of a byte and three addresses. -/
lemma cuts_eq (x : Byte) {a b c : Bytes} (ha : a.length = addrLen) (hb : b.length = addrLen)
    (hc : c.length = addrLen) :
    (x :: a ++ b ++ c).length = 3 * addrLen + 1 ∧ cut 1 (addrLen + 1) (x :: a ++ b ++ c) = a ∧
      cut (addrLen + 1) (2 * addrLen + 1) (x :: a ++ b ++ c) = b ∧
      cut (2 * addrLen + 1) (3 * addrLen + 1) (x :: a ++ b ++ c) = c := by
  unfold addrLen at *
  have hnil : drop 40 (take 60 a) = [] := drop_eq_nil_of_le (by rw [length_take]; omega)
  simp [cut, take_append, drop_append, ha, hb, hc, hnil, take_of_length_le hc.le]

/-- Keys of the power index are ordered by power and then by address backwards, and an index key
gives back what it was made of. -/
theorem index_keys_exact (v v' : Validator) (power power' : ℕ) (del val dst : Address)
    (hv : v.operatorAddr < 2 ^ 160) (hv' : v'.operatorAddr < 2 ^ 160)
    (hpower : v.getPotentialPower.roundInt64 = .ok (power : ℤ))
    (hpower' : v'.getPotentialPower.roundInt64 = .ok (power' : ℤ)) :
    (∃ key key', powerRankKey v = .ok key ∧ powerRankKey v' = .ok key' ∧
      (key < key' ↔ power < power' ∨ power = power' ∧ v'.operatorAddr < v.operatorAddr) ∧
      parseValidatorPowerRankKey key = .ok (addrBytes v.operatorAddr)) ∧
    getUBDKeyFromValIndexKey (getUBDByValIndexKey (addrBytes del) (addrBytes val)) =
      .ok (getUBDKey (addrBytes del) (addrBytes val)) ∧
    getREDKeyFromValSrcIndexKey
        (getREDByValSrcIndexKey (addrBytes del) (addrBytes val) (addrBytes dst)) =
      .ok (getREDKey (addrBytes del) (addrBytes val) (addrBytes dst)) ∧
    getREDKeyFromValDstIndexKey
        (getREDByValDstIndexKey (addrBytes del) (addrBytes val) (addrBytes dst)) =
      .ok (getREDKey (addrBytes del) (addrBytes val) (addrBytes dst)) := by
  have hlen := length_addrBytes
  refine ⟨?_, ?_, ?_, ?_⟩
  · obtain ⟨hkey, hrank⟩ := powerRankKey_eq hpower
    obtain ⟨hkey', hrank'⟩ := powerRankKey_eq hpower'
    refine ⟨_, _, hkey, hkey', ?_, ?_⟩
    · rw [powerRankKey_lt_iff hv hv' hkey hkey' hrank hrank', toLex_rank_lt_iff]
    · rw [parseValidatorPowerRankKey, if_neg (by simp [addrLen])]
      simp [Fin.rev_involutive.comp_self]
  · simp [getUBDKeyFromValIndexKey, getUBDByValIndexKey, addrLen, hlen, drop_append]
  · obtain ⟨hlength, hsrc, hdel, hdst⟩ := cuts_eq (byte 0x35) (hlen val) (hlen del) (hlen dst)
    rw [getREDByValSrcIndexKey, copied_eq_self (hlen del), copied_eq_self (hlen dst),
      getREDKeyFromValSrcIndexKey, if_neg (not_not.mpr hlength), hsrc, hdel, hdst]
  · obtain ⟨hlength, hdst, hdel, hsrc⟩ := cuts_eq (byte 0x36) (hlen dst) (hlen del) (hlen val)
    rw [getREDByValDstIndexKey, copied_eq_self (hlen del), copied_eq_self (hlen val),
      getREDKeyFromValDstIndexKey, if_neg (not_not.mpr hlength), hsrc, hdel, hdst]

def samplePowered (operator power : ℕ) : Validator :=
  { newValidator operator ⟨"ed25519", operator⟩ ⟨"", "", "", ""⟩ with
    tokens := .newDecFromInt (power * 10 ^ 18) }

/-- A validator with the power 5 ranks below one with the power 7, and among two with the power 7
the one with the larger address ranks lower. -/
theorem index_keys_of_two :
    (∃ key key', powerRankKey (samplePowered 1 5) = .ok key ∧
      powerRankKey (samplePowered 2 7) = .ok key' ∧ key < key') ∧
    ∃ key key', powerRankKey (samplePowered 2 7) = .ok key ∧
      powerRankKey (samplePowered 1 7) = .ok key' ∧ key < key' := by
  constructor
  · obtain ⟨⟨key, key', h, h', hlt, _⟩, _⟩ := index_keys_exact (samplePowered 1 5)
      (samplePowered 2 7) 5 7 1 2 3 (by decide) (by decide) (by decide +kernel) (by decide +kernel)
    exact ⟨key, key', h, h', hlt.mpr (.inl (by decide))⟩
  · obtain ⟨⟨key, key', h, h', hlt, _⟩, _⟩ := index_keys_exact (samplePowered 2 7)
      (samplePowered 1 7) 7 7 1 2 3 (by decide) (by decide) (by decide +kernel) (by decide +kernel)
    exact ⟨key, key', h, h', hlt.mpr (.inr ⟨rfl, by decide⟩)⟩

end Irishub.Stake
