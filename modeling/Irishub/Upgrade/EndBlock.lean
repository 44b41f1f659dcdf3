import Irishub.Gov.Queues

/-!
# Upgrade: every software upgrade is settled once

`upgrade/abci.go`, `tally.go`, `genesis.go` and the writes of `keeper.go`. The gov
end blocker executes the upgrade proposals that have passed, and the upgrade end
blocker of the same block settles the stored upgrade when the next block is its
switch height.

One block is described by its cases (`Turn`): nothing is stored, a proposal is
stored, the stored upgrade waits, or it is settled. Two invariants of a run follow from
them: the versions and the switch height are ahead of the chain (`Inv`), and the
records name settled proposals only (`Ledger`).

**Results**

* `upgrades_resolve_once`: an upgrade waits until the block before its switch
  height, is recorded there as what the tally of the signals makes it, and this
  record stays as it is.
-/

namespace Irishub.Upgrade
open Lib Gov

structure VersionInfo where
  upgradeInfo : UpgradeConfig
  success : Bool
  deriving DecidableEq

/-- Version tables of the upgrade keeper. -/
structure Versions where
  infos : Store ℕ VersionInfo
  successes : Store ℕ ℕ
  failures : Store (ℕ ×ₗ ℕ) ℕ

def Versions.empty : Versions := ⟨.empty, .empty, .empty⟩

def Versions.addNewVersionInfo (v : Versions) (info : VersionInfo) : Versions :=
  let version := info.upgradeInfo.protocol.version
  let proposalID := info.upgradeInfo.proposalID
  let v := { v with infos := v.infos.set proposalID info }
  if info.success then { v with successes := v.successes.set version proposalID }
  else { v with failures := v.failures.set (toLex (version, proposalID)) proposalID }

/-- Store of the upgrade keeper, with the rest of the application. -/
structure State where
  app : Gov.State
  signals : Store (ℕ ×ₗ Address) Bool
  versions : Versions

structure Header where
  proposerAddress : Address
  appVersion : ℕ

namespace State
variable (s : State)

def height : ℤ := s.app.app.height

def protocol : ProtocolStore := s.app.protocol

/-- `InitGenesis`. -/
def initGenesis (genesisVersion : VersionInfo) : State :=
  { s with
    versions := s.versions.addNewVersionInfo genesisVersion
    app := { s.app with protocol :=
      ⟨genesisVersion.upgradeInfo.protocol.version, s.app.protocol.lastFailedVersion, none⟩ } }

/-- Loop body of `tally`: the total power, and that of the validators that have signalled. -/
def countValidator (env : Env) (versionProtocol : ℕ) (acc : Dec × Dec)
    (validator : Stake.Validator) : Outcome (Dec × Dec) := do
  let totalVotingPower ← acc.1.add validator.getPower
  if s.signals.has (toLex (versionProtocol, env.consAddress validator.consPubKey)) then
    return (totalVotingPower, ← acc.2.add validator.getPower)
  else return (totalVotingPower, acc.2)

def tally (env : Env) (versionProtocol : ℕ) (threshold : Dec) : Outcome Bool := do
  let validators ← s.app.bondedValidatorsByPower
  let powers ← validators.foldlM (s.countValidator env versionProtocol) (.zero, .zero)
  return threshold < (← powers.2.quo powers.1)

/-- Writes of the end blocker after the tally. -/
def settle (config : UpgradeConfig) (success : Bool) : State :=
  let p := s.app.protocol
  { s with
    versions := s.versions.addNewVersionInfo ⟨config, success⟩
    app := { s.app with protocol :=
      if success then ⟨config.protocol.version, p.lastFailedVersion, none⟩
      else ⟨p.currentVersion, config.protocol.version, none⟩ } }

def signal (header : Header) (config : UpgradeConfig) (consAddr : Address) : State :=
  let key := toLex (config.protocol.version, consAddr)
  { s with signals :=
    if header.appVersion = config.protocol.version then s.signals.set key true
    else s.signals.delete key }

/-- Height of the next block, as the `uint64` that is compared with switch heights. -/
def next (h : ℤ) : ℕ := (Stake.uint64OfInt64 h + 1) % 2 ^ 64

def endBlocker (env : Env) (header : Header) : Outcome State :=
  match s.app.protocol.upgradeConfig with
  | none => .ok s
  | some config => do
    let validator ← s.app.app.mustGetValidatorByConsAddr header.proposerAddress
    let s := s.signal header config (env.consAddress validator.consPubKey)
    if next s.height = config.protocol.height then do
      let success ← s.tally env config.protocol.version config.protocol.threshold
      return s.settle config success
    else return s

end State

/-- End of a block: the state of the staking modules then, the upgrade proposals that the gov
end blocker executes, and the header. -/
structure Block where
  app : Stake.State
  proposals : List (ℕ × ProtocolDefinition)
  header : Header

/-- Block after those that led to `s`. -/
def Block.run (env : Env) (s : State) (block : Block) : Outcome State :=
  let app := { s.app with app := { block.app with height := s.height + 1 } }
  let app := block.proposals.foldl (fun app p => app.executeSoftwareUpgrade p.1 p.2) app
  State.endBlocker { s with app := app } env block.header

/-- State after `InitGenesis`: nothing but the genesis version is recorded. -/
structure State.Genesis (genesisVersion : VersionInfo) (s : State) : Prop where
  height : s.height = 0
  init : ∃ s₀ : State, s₀.protocol.lastFailedVersion = 0 ∧ s₀.versions = .empty ∧
    s = s₀.initGenesis genesisVersion

section
variable {env : Env} {s s' : State} {header : Header} {block : Block} {version : ℕ}
  {config : UpgradeConfig} {success : Bool}

/-- Power of validators, in units of `10 ^ (-10)`. -/
def votingPower (validators : List Stake.Validator) : ℤ :=
  (validators.map (fun validator => validator.getPower.raw)).sum

/-- Verdict on an upgrade: the signals for its version have more than the threshold of the power of
the bonded validators. -/
def State.Supported (s : State) (env : Env) (config : UpgradeConfig) : Prop :=
  ∃ validators share, s.app.bondedValidatorsByPower = .ok validators ∧
    Dec.quo ⟨votingPower (validators.filter (fun validator => s.signals.has
      (toLex (config.protocol.version, env.consAddress validator.consPubKey))))⟩
      ⟨votingPower validators⟩ = .ok share ∧ config.protocol.threshold < share

/-- The bonded validators do not depend on the protocol store. -/
lemma bondedValidators_congr {g g' : Gov.State} (happ : g'.app = g.app) (maxValidators : ℕ)
    (addresses : List Address) :
    g'.bondedValidators maxValidators addresses = g.bondedValidators maxValidators addresses := by
  induction addresses generalizing maxValidators with
  | nil => cases maxValidators <;> rfl
  | cons address addresses ih =>
    cases maxValidators with
    | zero => rfl
    | succ maxValidators => simp only [Gov.State.bondedValidators, happ, ih]

lemma supported_congr (happ : s'.app.app = s.app.app) (hsignals : s'.signals = s.signals) :
    s'.Supported env config ↔ s.Supported env config := by
  simp only [State.Supported, Gov.State.bondedValidatorsByPower, bondedValidators_congr happ, happ,
    hsignals]

lemma foldlM_countValidator {validators : List Stake.Validator} {acc acc' : Dec × Dec}
    (h : validators.foldlM (s.countValidator env version) acc = .ok acc') :
    acc'.1.raw = acc.1.raw + votingPower validators ∧
      acc'.2.raw = acc.2.raw + votingPower (validators.filter (fun validator => s.signals.has
        (toLex (version, env.consAddress validator.consPubKey)))) := by
  induction validators generalizing acc with
  | nil =>
    cases h
    simp [votingPower]
  | cons validator validators ih =>
    rw [List.foldlM_cons] at h
    obtain ⟨acc1, hstep, hrest⟩ := bind_ok.mp h
    obtain ⟨htotal, hsignals⟩ := ih hrest
    obtain ⟨total, hadd, hstep⟩ := bind_ok.mp hstep
    have hsum := (Dec.add_eq_ok.mp hadd).1
    rw [htotal, hsignals]
    split_ifs at hstep with hsignal
    · obtain ⟨signalled, hadd', hstep⟩ := bind_ok.mp hstep
      have hsum' := (Dec.add_eq_ok.mp hadd').1
      cases hstep
      rw [List.filter_cons_of_pos (by exact hsignal)]
      simp [votingPower, hsum, hsum', add_assoc]
    · cases hstep
      rw [List.filter_cons_of_neg (by exact hsignal)]
      simp [votingPower, hsum, add_assoc]

lemma supported_iff_of_tally
    (h : s.tally env config.protocol.version config.protocol.threshold = .ok success) :
    success = true ↔ s.Supported env config := by
  obtain ⟨validators, hvalidators, h⟩ := bind_ok.mp h
  obtain ⟨powers, hpowers, h⟩ := bind_ok.mp h
  obtain ⟨share, hshare, h⟩ := bind_ok.mp h
  obtain ⟨htotal, hsignals⟩ := foldlM_countValidator hpowers
  have hquo : Dec.quo ⟨votingPower (validators.filter (fun validator => s.signals.has
      (toLex (config.protocol.version, env.consAddress validator.consPubKey))))⟩
      ⟨votingPower validators⟩ = .ok share := by
    rw [← hshare]
    congr
    · simpa [Dec.zero] using hsignals.symm
    · simpa [Dec.zero] using htotal.symm
  cases h
  rw [decide_eq_true_iff]
  constructor
  · exact fun hlt => ⟨validators, share, hvalidators, hquo, hlt⟩
  · rintro ⟨validators', share', hvalidators', hquo', hlt⟩
    cases hvalidators.symm.trans hvalidators'
    cases hquo.symm.trans hquo'
    exact hlt

/-- Protocol store after the proposals of a block at height `h`: one of them may be stored. -/
def Executed (proposals : List (ℕ × ProtocolDefinition)) (h : ℤ) (p p' : ProtocolStore) : Prop :=
  p' = p ∨ p.upgradeConfig = none ∧ ∃ config : UpgradeConfig,
    config.proposalID ∈ proposals.map Prod.fst ∧
    p.isValidVersion config.protocol.version = true ∧
    State.next h < config.protocol.height ∧ p' = { p with upgradeConfig := some config }

lemma executed_foldl (proposals : List (ℕ × ProtocolDefinition)) (app : Gov.State) :
    let app' := proposals.foldl (fun app p => app.executeSoftwareUpgrade p.1 p.2) app
    app'.app = app.app ∧ Executed proposals app.app.height app.protocol app'.protocol := by
  induction proposals generalizing app with
  | nil => exact ⟨rfl, Or.inl rfl⟩
  | cons p proposals ih =>
    have hskip : ∀ {p₀ p₁ : ProtocolStore}, Executed proposals app.app.height p₀ p₁ →
        Executed (p :: proposals) app.app.height p₀ p₁ := by
      rintro p₀ p₁ (heq | ⟨hnone, config, hmem, hrest⟩)
      · exact Or.inl heq
      · exact Or.inr ⟨hnone, config, List.mem_cons_of_mem _ hmem, hrest⟩
    rw [List.foldl_cons, Gov.State.executeSoftwareUpgrade]
    split_ifs with hconfig hvalid hheight
    · exact ⟨(ih app).1, hskip (ih app).2⟩
    · exact ⟨(ih app).1, hskip (ih app).2⟩
    · exact ⟨(ih app).1, hskip (ih app).2⟩
    · -- the proposals behind a stored one are ignored
      obtain ⟨happ, heq | ⟨hnone, _⟩⟩ := ih { app with protocol := { app.protocol with
        upgradeConfig := some ⟨p.1, p.2⟩ } }
      · exact ⟨happ, Or.inr ⟨by simpa using hconfig, ⟨p.1, p.2⟩, List.mem_cons_self,
          by simpa using hvalid, not_le.mp hheight, heq⟩⟩
      · cases hnone

/-- The proposer of the block signals by the version that it runs. -/
def Signals (env : Env) (header : Header) (config : UpgradeConfig) (s s' : State) : Prop :=
  ∃ validator, s'.app.app.mustGetValidatorByConsAddr header.proposerAddress = .ok validator ∧
    ∀ key, s'.signals.has key =
      if key = toLex (config.protocol.version, env.consAddress validator.consPubKey) then
        decide (header.appVersion = config.protocol.version)
      else s.signals.has key

lemma has_signal (header : Header) (config : UpgradeConfig) (consAddr : Address)
    (key : ℕ ×ₗ Address) : (s.signal header config consAddr).signals.has key =
      if key = toLex (config.protocol.version, consAddr) then
        decide (header.appVersion = config.protocol.version)
      else s.signals.has key := by
  unfold State.signal
  by_cases hversion : header.appVersion = config.protocol.version <;>
    by_cases hkey : key = toLex (config.protocol.version, consAddr) <;>
    simp [hversion, hkey, Store.has, Store.get_set, Store.get_delete]

lemma app_of_endBlocker (hrun : s.endBlocker env header = .ok s') : s'.app.app = s.app.app := by
  unfold State.endBlocker at hrun
  split at hrun
  · cases hrun
    rfl
  · obtain ⟨validator, _, hrun⟩ := bind_ok.mp hrun
    dsimp only at hrun
    split_ifs at hrun
    · obtain ⟨success, _, hrun⟩ := bind_ok.mp hrun
      cases hrun
      rfl
    · cases hrun
      rfl

lemma height_of_run (hrun : block.run env s = .ok s') : s'.height = s.height + 1 :=
  congrArg Stake.State.height
    ((app_of_endBlocker hrun).trans (executed_foldl block.proposals _).1)

/-- Versions stay within the heights, and a stored upgrade is ahead of the current one. -/
structure Inv (version : ℕ) (s : State) : Prop where
  height : 0 ≤ s.height
  current : s.protocol.currentVersion ≤ version + s.height
  lastFailed : s.protocol.lastFailedVersion ≤ version + s.height
  config : ∀ config, s.protocol.upgradeConfig = some config →
    s.height + 1 < config.protocol.height ∧
    s.protocol.currentVersion < config.protocol.version ∧
    config.protocol.version ≤ version + s.height + 1

lemma lt_of_isValidVersion {p : ProtocolStore} {v : ℕ} (hcur : p.currentVersion + 1 < 2 ^ 64)
    (hlast : p.lastFailedVersion + 1 < 2 ^ 64) (hv : p.isValidVersion v = true) :
    p.currentVersion < v ∧ (v ≤ p.currentVersion + 1 ∨ v ≤ p.lastFailedVersion + 1) := by
  unfold ProtocolStore.isValidVersion at hv
  rw [Nat.mod_eq_of_lt hcur, Nat.mod_eq_of_lt hlast] at hv
  split_ifs at hv <;> simp only [Bool.or_eq_true, decide_eq_true_eq] at hv <;> omega

lemma next_of_lt {h : ℤ} (hnonneg : 0 ≤ h) (hlt : h < 2 ^ 63) : (State.next h : ℤ) = h + 1 := by
  unfold State.next Stake.uint64OfInt64
  omega

/-- Cases of a block, on heights within their range. -/
inductive Turn (env : Env) (block : Block) (s s' : State) : Prop
  | idle (hbefore : s.protocol.upgradeConfig = none) (hprotocol : s'.protocol = s.protocol)
      (hversions : s'.versions = s.versions)
  | stored (config : UpgradeConfig) (hbefore : s.protocol.upgradeConfig = none)
      (hmem : config.proposalID ∈ block.proposals.map Prod.fst)
      (hvalid : s.protocol.isValidVersion config.protocol.version = true)
      (hahead : s'.height + 1 < config.protocol.height)
      (hprotocol : s'.protocol = { s.protocol with upgradeConfig := some config })
      (hversions : s'.versions = s.versions)
  | waiting (config : UpgradeConfig) (hbefore : s.protocol.upgradeConfig = some config)
      (hnext : s'.height + 1 ≠ config.protocol.height) (hprotocol : s'.protocol = s.protocol)
      (hversions : s'.versions = s.versions) (hsignals : Signals env block.header config s s')
  | settled (config : UpgradeConfig) (success : Bool)
      (hbefore : s.protocol.upgradeConfig = some config)
      (hnext : s'.height + 1 = config.protocol.height)
      (hverdict : success = true ↔ s'.Supported env config)
      (hprotocol : s'.protocol =
        if success then ⟨config.protocol.version, s.protocol.lastFailedVersion, none⟩
        else ⟨s.protocol.currentVersion, config.protocol.version, none⟩)
      (hversions : s'.versions = s.versions.addNewVersionInfo ⟨config, success⟩)
      (hsignals : Signals env block.header config s s')

lemma turn_of_run (hnonneg : 0 ≤ s.height) (hrun : block.run env s = .ok s')
    (hheight : s'.height < 2 ^ 63) : Turn env block s s' := by
  have hstep := height_of_run hrun
  have hnext := next_of_lt (h := s'.height) (by omega) hheight
  obtain ⟨happ, hexecuted⟩ := executed_foldl block.proposals
    { s.app with app := { block.app with height := s.height + 1 } }
  have hheight' : ∀ {app : Gov.State}, app.app = { block.app with height := s.height + 1 } →
      app.app.height = s'.height := fun h => (congrArg Stake.State.height h).trans hstep.symm
  unfold Block.run State.endBlocker at hrun
  dsimp only at hrun
  generalize block.proposals.foldl _ _ = app at hrun happ hexecuted
  replace happ := hheight' happ
  replace hexecuted : Executed block.proposals (s.height + 1) s.protocol app.protocol := hexecuted
  rw [← hstep] at hexecuted
  split at hrun
  · rename_i hnone
    cases hrun
    obtain hsame | ⟨_, new, _, _, _, hnew⟩ := hexecuted
    · exact .idle (hsame ▸ hnone) hsame rfl
    · rw [hnew] at hnone
      cases hnone
  · rename_i config hconfig
    obtain ⟨validator, hvalidator, hrun⟩ := bind_ok.mp hrun
    have hsignal := has_signal (s := { s with app := app }) block.header config
      (env.consAddress validator.consPubKey)
    split_ifs at hrun with hswitch
    · replace hswitch : State.next app.app.height = config.protocol.height := hswitch
      rw [happ] at hswitch
      obtain hsame | ⟨_, new, _, _, hlt, hnew⟩ := hexecuted
      · obtain ⟨success, htally, hrun⟩ := bind_ok.mp hrun
        have hverdict := supported_iff_of_tally htally
        cases hrun
        refine .settled config success (hsame ▸ hconfig) (by omega)
          (hverdict.trans (supported_congr rfl rfl)) ?_ rfl ⟨validator, hvalidator, hsignal⟩
        rw [← hsame]
        rfl
      · -- a switch height is more than the next one when its upgrade is stored
        rw [hnew] at hconfig
        cases hconfig
        omega
    · replace hswitch : State.next app.app.height ≠ config.protocol.height := hswitch
      rw [happ] at hswitch
      cases hrun
      obtain hsame | ⟨hbefore, new, hmem, hvalid, hlt, hnew⟩ := hexecuted
      · exact .waiting config (hsame ▸ hconfig) (by omega) hsame rfl
          ⟨validator, hvalidator, hsignal⟩
      · rw [hnew] at hconfig
        cases hconfig
        exact .stored _ hbefore hmem hvalid (by omega) hnew rfl

lemma Inv.step (hinv : Inv version s) (hversion : version ≤ 2 ^ 63)
    (hrun : block.run env s = .ok s') (hheight : s'.height < 2 ^ 63) : Inv version s' := by
  have hstep := height_of_run hrun
  obtain ⟨hnonneg, hcurrent, hlast, hconfig⟩ := hinv
  cases turn_of_run hnonneg hrun hheight with
  | idle hbefore hprotocol => constructor <;> grind
  | stored config hbefore hmem hvalid hahead hprotocol =>
    have hversions := lt_of_isValidVersion (by omega) (by omega) hvalid
    constructor <;> grind
  | waiting config hbefore hnext hprotocol
  | settled config success hbefore hnext hverdict hprotocol =>
    have hold := hconfig config hbefore
    constructor <;> grind

/-- What one block does to the stored upgrade. -/
structure Resolves (env : Env) (block : Block) (s s' : State) : Prop where
  later : ∀ config, s'.protocol.upgradeConfig = some config →
    s'.height + 1 < config.protocol.height
  settled : ∀ config, s.protocol.upgradeConfig = some config →
    s'.height + 1 = config.protocol.height → s'.protocol.upgradeConfig = none ∧ ∃ success,
      (success = true ↔ s'.Supported env config) ∧
      s'.versions = s.versions.addNewVersionInfo ⟨config, success⟩ ∧
      s'.protocol.currentVersion =
        if success then config.protocol.version else s.protocol.currentVersion
  kept : (∀ config, s.protocol.upgradeConfig = some config →
      s'.height + 1 ≠ config.protocol.height) →
    s'.versions = s.versions ∧ s'.protocol.currentVersion = s.protocol.currentVersion ∧
      ∀ config, s.protocol.upgradeConfig = some config →
        s'.protocol.upgradeConfig = some config
  signals : ∀ config, s.protocol.upgradeConfig = some config →
    Signals env block.header config s s'
  mono : s.protocol.currentVersion ≤ s'.protocol.currentVersion

lemma Inv.resolves (hinv : Inv version s) (hinv' : Inv version s')
    (hturn : Turn env block s s') : Resolves env block s s' := by
  have hlater := fun config hconfig => (hinv'.config config hconfig).1
  cases hturn with
  | idle hbefore hprotocol hversions => constructor <;> grind
  | stored config hbefore _ _ _ hprotocol hversions => constructor <;> grind
  | waiting config hbefore hnext hprotocol hversions hsignals => constructor <;> grind
  | settled config success hbefore hnext hverdict hprotocol hversions hsignals =>
    have hahead := (hinv.config config hbefore).2.1
    constructor <;> grind

/-- No record names the proposal. -/
structure Versions.Unrecorded (v : Versions) (proposalID : ℕ) : Prop where
  infos : v.infos.get proposalID = none
  successes : ∀ version, v.successes.get version ≠ some proposalID
  failures : ∀ version, v.failures.get (toLex (version, proposalID)) = none

/-- An upgrade is recorded, and either as a success or as a failure. -/
structure Versions.RecordedAs (v : Versions) (info : VersionInfo) : Prop where
  infos : v.infos.get info.upgradeInfo.proposalID = some info
  successes : v.successes.get info.upgradeInfo.protocol.version =
    some info.upgradeInfo.proposalID ↔ info.success = true
  failures : v.failures.get
    (toLex (info.upgradeInfo.protocol.version, info.upgradeInfo.proposalID)) =
    some info.upgradeInfo.proposalID ↔ info.success = false

variable {info new : VersionInfo} {proposalID : ℕ} {used : List ℕ}

namespace Versions
variable {v : Versions}

lemma RecordedAs.not_unrecorded (h : v.RecordedAs info) :
    ¬v.Unrecorded info.upgradeInfo.proposalID := by
  intro hun
  cases h.infos.symm.trans hun.infos

lemma get_infos_addNewVersionInfo : (v.addNewVersionInfo new).infos.get proposalID =
    if proposalID = new.upgradeInfo.proposalID then some new else v.infos.get proposalID := by
  unfold addNewVersionInfo
  split_ifs <;> simp_all [Store.get_set]

lemma get_successes_addNewVersionInfo :
    (v.addNewVersionInfo new).successes.get version =
      if new.success ∧ version = new.upgradeInfo.protocol.version then
        some new.upgradeInfo.proposalID
      else v.successes.get version := by
  unfold addNewVersionInfo
  cases new.success <;> simp [Store.get_set]

lemma get_failures_addNewVersionInfo :
    (v.addNewVersionInfo new).failures.get (toLex (version, proposalID)) =
      if new.success = false ∧ version = new.upgradeInfo.protocol.version ∧
          proposalID = new.upgradeInfo.proposalID then some proposalID
      else v.failures.get (toLex (version, proposalID)) := by
  unfold addNewVersionInfo
  cases new.success <;> simp [Store.get_set]
  grind

lemma Unrecorded.addNewVersionInfo (hun : v.Unrecorded proposalID)
    (hne : proposalID ≠ new.upgradeInfo.proposalID) :
    (v.addNewVersionInfo new).Unrecorded proposalID where
  infos := by
    rw [get_infos_addNewVersionInfo, if_neg hne]
    exact hun.infos
  successes version := by
    rw [get_successes_addNewVersionInfo]
    split_ifs
    · exact fun heq => hne (Option.some.inj heq).symm
    · exact hun.successes version
  failures version := by
    rw [get_failures_addNewVersionInfo, if_neg (fun h => hne h.2.2)]
    exact hun.failures version

lemma recordedAs_addNewVersionInfo (hun : v.Unrecorded info.upgradeInfo.proposalID) :
    (v.addNewVersionInfo info).RecordedAs info := by
  have hsuccess := hun.successes info.upgradeInfo.protocol.version
  have hfailure := hun.failures info.upgradeInfo.protocol.version
  refine ⟨?_, ?_, ?_⟩
  · simp [get_infos_addNewVersionInfo]
  · cases h : info.success <;> simp [get_successes_addNewVersionInfo, hsuccess, h]
  · cases h : info.success <;> simp [get_failures_addNewVersionInfo, hfailure, h]

/-- A record stays when another proposal is settled. -/
lemma RecordedAs.addNewVersionInfo (hinfo : v.RecordedAs info)
    (hne : info.upgradeInfo.proposalID ≠ new.upgradeInfo.proposalID)
    (hversion : info.success = true →
      info.upgradeInfo.protocol.version ≠ new.upgradeInfo.protocol.version) :
    (v.addNewVersionInfo new).RecordedAs info where
  infos := by
    rw [get_infos_addNewVersionInfo, if_neg hne]
    exact hinfo.infos
  successes := by
    rw [get_successes_addNewVersionInfo, ← hinfo.successes]
    split_ifs with hnew
    · -- the version has failed before
      have hfailed : ¬info.success = true := fun hsuccess => hversion hsuccess hnew.2
      rw [← hinfo.successes] at hfailed
      simp [Ne.symm hne, hfailed]
    · rfl
  failures := by
    rw [get_failures_addNewVersionInfo, if_neg (fun h => hne h.2.2)]
    exact hinfo.failures

end Versions

/-- Records name proposals among the `used` ones, and not the one whose upgrade is stored. -/
structure Ledger (used : List ℕ) (s : State) : Prop where
  fresh : ∀ proposalID, proposalID ∉ used → s.versions.Unrecorded proposalID
  stored : ∀ config, s.protocol.upgradeConfig = some config →
    config.proposalID ∈ used ∧ s.versions.Unrecorded config.proposalID
  successes : ∀ version proposalID, s.versions.successes.get version = some proposalID →
    version ≤ s.protocol.currentVersion

def Block.proposalIDs (block : Block) : List ℕ := block.proposals.map Prod.fst

lemma Ledger.step (hledger : Ledger used s) (hinv : Inv version s) (hturn : Turn env block s s')
    (hnodup : (used ++ block.proposalIDs).Nodup) : Ledger (used ++ block.proposalIDs) s' ∧
      ∀ info, s.versions.RecordedAs info → s'.versions.RecordedAs info := by
  obtain ⟨hfresh, hstored, hsuccesses⟩ := hledger
  have hfresh' : ∀ proposalID, proposalID ∉ used ++ block.proposalIDs →
      s.versions.Unrecorded proposalID :=
    fun proposalID hnot => hfresh proposalID (fun hmem => hnot (List.mem_append_left _ hmem))
  cases hturn with
  | idle hbefore hprotocol hversions =>
    rw [hversions]
    refine ⟨⟨hversions ▸ hfresh', ?_, ?_⟩, fun _ => id⟩
    · simp [hprotocol, hbefore]
    · rw [hprotocol, hversions]
      exact hsuccesses
  | stored config hbefore hmem hvalid hahead hprotocol hversions =>
    rw [hversions]
    refine ⟨⟨hversions ▸ hfresh', ?_, ?_⟩, fun _ => id⟩
    · intro config' hconfig'
      rw [hprotocol] at hconfig'
      cases hconfig'
      -- the new proposal is not among the earlier ones
      have hnew := (List.nodup_append.mp hnodup).2.2
      rw [hversions]
      exact ⟨List.mem_append_right _ hmem, hfresh _ (fun hold => hnew _ hold _ hmem rfl)⟩
    · rw [hprotocol, hversions]
      exact hsuccesses
  | waiting config hbefore hnext hprotocol hversions hsignals =>
    rw [hversions]
    refine ⟨⟨hversions ▸ hfresh', ?_, ?_⟩, fun _ => id⟩
    · intro config' hconfig'
      obtain ⟨hused, hun⟩ := hstored config' (hprotocol ▸ hconfig')
      exact ⟨List.mem_append_left _ hused, hversions ▸ hun⟩
    · rw [hprotocol, hversions]
      exact hsuccesses
  | settled config success hbefore hnext hverdict hprotocol hversions hsignals =>
    obtain ⟨hused, hun⟩ := hstored config hbefore
    have hahead := (hinv.config config hbefore).2.1
    rw [hversions]
    refine ⟨⟨fun id hid => hversions ▸ (hfresh' id hid).addNewVersionInfo ?_, ?_, ?_⟩,
      fun info hinfo => hinfo.addNewVersionInfo ?_ ?_⟩
    · rintro rfl
      exact hid (List.mem_append_left _ hused)
    · cases success <;> simp [hprotocol]
    · intro version id hget
      rw [hversions, Versions.get_successes_addNewVersionInfo] at hget
      split_ifs at hget with hnew
      · rw [hprotocol, if_pos hnew.1]
        exact hnew.2.le
      · have hle := hsuccesses version id hget
        rw [hprotocol]
        split_ifs
        · exact hle.trans hahead.le
        · exact hle
    · intro heq
      exact hinfo.not_unrecorded (heq ▸ hun)
    · intro hsuccess heq
      have hle := hsuccesses _ _ (hinfo.successes.mpr hsuccess)
      have hver : info.upgradeInfo.protocol.version = config.protocol.version := heq
      omega

lemma height_le_of_run {blocks : List Block} (hrun : blocks.foldlM (Block.run env) s = .ok s') :
    s.height ≤ s'.height :=
  invariant_of_foldlM (I := fun t => s.height ≤ t.height)
    (fun t t' block hle hstep => by have := height_of_run hstep; omega) hrun le_rfl

lemma Inv.of_run {blocks : List Block} (hinv : Inv version s) (hversion : version ≤ 2 ^ 63)
    (hrun : blocks.foldlM (Block.run env) s = .ok s') (hheight : s'.height < 2 ^ 63) :
    Inv version s' := by
  refine invariant_of_foldlM (I := fun t => t.height < 2 ^ 63 → Inv version t) ?_ hrun
    (fun _ => hinv) hheight
  intro t t' block ht hstep hlt
  have hnext := height_of_run hstep
  exact (ht (by omega)).step hversion hstep hlt

/-- Over a run whose proposals are all different, records stay as they are. -/
lemma Ledger.of_run {blocks : List Block} (hledger : Ledger used s) (hinv : Inv version s)
    (hversion : version ≤ 2 ^ 63) (hnodup : (used ++ blocks.flatMap Block.proposalIDs).Nodup)
    (hrun : blocks.foldlM (Block.run env) s = .ok s') (hheight : s'.height < 2 ^ 63) :
    Ledger (used ++ blocks.flatMap Block.proposalIDs) s' ∧
      ∀ info, s.versions.RecordedAs info → s'.versions.RecordedAs info := by
  induction blocks generalizing s used with
  | nil =>
    cases hrun
    exact ⟨by simpa using hledger, fun _ h => h⟩
  | cons block blocks ih =>
    rw [List.foldlM_cons] at hrun
    obtain ⟨s1, hstep, hrest⟩ := bind_ok.mp hrun
    have hle := height_le_of_run hrest
    rw [List.flatMap_cons, ← List.append_assoc] at hnodup ⊢
    obtain ⟨hledger1, hkeep⟩ := hledger.step hinv (turn_of_run hinv.height hstep (by omega))
      (List.Nodup.of_append_left hnodup)
    obtain ⟨hledger', hkeep'⟩ := ih hledger1 (hinv.step hversion hstep (by omega)) hnodup hrest
    exact ⟨hledger', fun info hinfo => hkeep' info (hkeep info hinfo)⟩

lemma inv_of_genesis (hgenesis : s.Genesis info) :
    Inv info.upgradeInfo.protocol.version s := by
  obtain ⟨hheight, s₀, hlast, -, rfl⟩ := hgenesis
  have hprotocol : (s₀.initGenesis info).protocol =
      ⟨info.upgradeInfo.protocol.version, 0, none⟩ := by
    simp only [State.initGenesis, State.protocol] at hlast ⊢
    rw [hlast]
  constructor <;> simp [hheight, hprotocol]

lemma ledger_of_genesis (hgenesis : s.Genesis info) :
    Ledger [info.upgradeInfo.proposalID] s := by
  obtain ⟨-, s₀, -, hempty, rfl⟩ := hgenesis
  have hversions : (s₀.initGenesis info).versions = Versions.empty.addNewVersionInfo info := by
    rw [← hempty]
    rfl
  refine ⟨fun id hid => ?_, fun config hconfig => ?_, fun version id hget => ?_⟩
  · rw [hversions]
    exact Versions.Unrecorded.addNewVersionInfo
      ⟨Store.get_empty _, by simp [Versions.empty], fun _ => Store.get_empty _⟩ (by simpa using hid)
  · cases hconfig
  · rw [hversions, Versions.get_successes_addNewVersionInfo] at hget
    split_ifs at hget with hnew
    · exact hnew.2.le
    · rw [Versions.empty, Store.get_empty] at hget
      cases hget

/-- The upgrade that a block settles had no record before, and its record after the block is
there in the later state `s''`. -/
def RecordedOnce (env : Env) (s s' s'' : State) : Prop :=
  ∀ config, s.protocol.upgradeConfig = some config → s'.height + 1 = config.protocol.height →
    s.versions.Unrecorded config.proposalID ∧ ∃ success,
      (success = true ↔ s'.Supported env config) ∧ s'.versions.RecordedAs ⟨config, success⟩ ∧
      s''.versions.RecordedAs ⟨config, success⟩

/-- Over every run of blocks from the genesis, a stored upgrade is settled in the block before its
switch height and in no other, by the tally of the signals, and the current version changes there
alone; as proposals have different numbers, its record is made once. The bounds are those of `int64`
heights, within which the `uint64` versions do not wrap. -/
theorem upgrades_resolve_once {s₀ : State} {blocks : List Block} (hgenesis : s₀.Genesis info)
    (hversion : info.upgradeInfo.protocol.version ≤ 2 ^ 63)
    (hrun : blocks.foldlM (Block.run env) s₀ = .ok s) (hblock : block.run env s = .ok s')
    (hheight : s'.height < 2 ^ 63) :
    Resolves env block s s' ∧ ∀ more s'',
      (info.upgradeInfo.proposalID ::
        (blocks ++ block :: more).flatMap Block.proposalIDs).Nodup →
      more.foldlM (Block.run env) s' = .ok s'' → s''.height < 2 ^ 63 →
      RecordedOnce env s s' s'' := by
  have hnext := height_of_run hblock
  have hinv := (inv_of_genesis hgenesis).of_run hversion hrun (by omega)
  have hinv' := hinv.step hversion hblock hheight
  have hturn := turn_of_run hinv.height hblock hheight
  have hresolves := hinv.resolves hinv' hturn
  refine ⟨hresolves, fun more s'' hnodup hmore hheight'' config hconfig hswitch => ?_⟩
  rw [List.flatMap_append, List.flatMap_cons, ← List.cons_append, ← List.append_assoc] at hnodup
  obtain ⟨hledger, -⟩ := (ledger_of_genesis hgenesis).of_run (inv_of_genesis hgenesis) hversion
    (List.Nodup.of_append_left (List.Nodup.of_append_left hnodup)) hrun (by omega)
  obtain ⟨hledger', -⟩ := hledger.step hinv hturn (List.Nodup.of_append_left hnodup)
  obtain ⟨-, hkeep⟩ := hledger'.of_run hinv' hversion hnodup hmore hheight''
  obtain ⟨-, success, hverdict, hversions, -⟩ := hresolves.settled config hconfig hswitch
  have hun := (hledger.stored config hconfig).2
  have hrecorded : s'.versions.RecordedAs ⟨config, success⟩ := by
    rw [hversions]
    exact Versions.recordedAs_addNewVersionInfo hun
  exact ⟨hun, success, hverdict, hrecorded, hkeep _ hrecorded⟩

end

/-- Genesis with version 0, as proposal 0. -/
def sampleGenesisVersion : VersionInfo := ⟨⟨0, ⟨0, "", 0, .zero⟩⟩, true⟩

def sampleState : State :=
  State.initGenesis ⟨Gov.sampleState Stake.sampleGenesis, .empty, .empty⟩ sampleGenesisVersion

/-- An upgrade at the height 3, if more than 95% of the power signals. -/
def sampleConfig : UpgradeConfig := ⟨1, ⟨1, "", 3, ⟨95 * 10 ^ 8⟩⟩⟩

/-- A block of the only validator, which runs the version 1. -/
def sampleBlock (proposals : List (ℕ × ProtocolDefinition)) : Block where
  app := Gov.sampleApp Stake.sampleGenesis.bank 0
  proposals := proposals
  header := ⟨0, 1⟩

/-- The first block stores the upgrade, the second one settles it as a success, and the third one
stores another. -/
theorem sampleBlock_resolves : ∃ s s' s'',
    [sampleBlock [(1, sampleConfig.protocol)]].foldlM (Block.run Gov.sampleEnv) sampleState =
      .ok s ∧
    (sampleBlock []).run Gov.sampleEnv s = .ok s' ∧
    [sampleBlock [(2, ⟨2, "", 9, .zero⟩)]].foldlM (Block.run Gov.sampleEnv) s' = .ok s'' ∧
    s.protocol.upgradeConfig = some sampleConfig ∧ s.protocol.currentVersion = 0 ∧
    s'.protocol.upgradeConfig = none ∧ s'.protocol.currentVersion = 1 ∧
    s''.protocol.upgradeConfig.isSome = true ∧
    Resolves Gov.sampleEnv (sampleBlock []) s s' ∧ RecordedOnce Gov.sampleEnv s s' s'' ∧
    s''.versions.RecordedAs ⟨sampleConfig, true⟩ := by
  obtain ⟨⟨_, _, _⟩, hsample, htest⟩ := of_returns
    (x := do
      let s ← [sampleBlock [(1, sampleConfig.protocol)]].foldlM (Block.run Gov.sampleEnv)
        sampleState
      let s' ← (sampleBlock []).run Gov.sampleEnv s
      let s'' ← [sampleBlock [(2, ⟨2, "", 9, .zero⟩)]].foldlM (Block.run Gov.sampleEnv) s'
      return (s, s', s''))
    (p := fun (s, s', s'') => decide (s'.height = 2 ∧ s''.height = 3 ∧
      s.protocol.upgradeConfig = some sampleConfig ∧ s.protocol.currentVersion = 0 ∧
      s'.protocol.upgradeConfig = none ∧ s'.protocol.currentVersion = 1 ∧
      s''.protocol.upgradeConfig.isSome = true)) (by decide +kernel)
  simp only [bind_ok, pure_eq_ok, Prod.mk.injEq] at hsample
  obtain ⟨s, hrun, s', hblock, s'', hmore, rfl, rfl, rfl⟩ := hsample
  obtain ⟨hheight, hheight', hstored, hbefore, hnone, hafter, hother⟩ := of_decide_eq_true htest
  have hswitch : s'.height + 1 = sampleConfig.protocol.height := by rw [hheight]; rfl
  have hgenesis : sampleState.Genesis sampleGenesisVersion :=
    ⟨rfl, _, rfl, rfl, rfl⟩
  obtain ⟨hresolves, honce⟩ := upgrades_resolve_once hgenesis (by decide) hrun hblock (by omega)
  have hrecorded := honce _ _ (by decide) hmore (by omega)
  obtain ⟨-, success, -, hinfo, hkept⟩ := hrecorded sampleConfig hstored hswitch
  obtain ⟨-, success', -, hversions, hcurrent⟩ := hresolves.settled sampleConfig hstored hswitch
  refine ⟨_, _, _, hrun, hblock, hmore, hstored, hbefore, hnone, hafter, hother, hresolves,
    hrecorded, ?_⟩
  -- the version has changed, so the record is one of a success
  have hsuccess : success = true := by
    have hsame := hinfo.infos
    rw [hversions, Versions.get_infos_addNewVersionInfo, if_pos rfl] at hsame
    cases hsame
    by_contra hfailed
    simp [hfailed, hbefore] at hcurrent
    omega
  exact hsuccess ▸ hkept

end Irishub.Upgrade
