import SolanaProxy.General.Machine
import SolanaProxy.Proxy.Admin
import SolanaProxy.Proxy.Claim
import SolanaProxy.Proxy.Receive

/-!
# Runs of the proxy program

An `Instruction` is one of the fifteen with its accounts and parameters, and an `Input` is
an instruction with the outside it meets, or something that happens outside the program and
leaves the program's accounts alone. `step` plays one input on a `ProxyState`: every
instruction keeps accounts where they belong (`Instruction.placed`), so the states of a run
carry `WellPlaced` by construction. A run is a run of this machine; failed instructions
change nothing.
-/

namespace Proxy

open Solana

/-- An instruction with its accounts and parameters. -/
inductive Instruction where
  | sendRequest (ctx : SendRequest) (params : RequestParams) (msgFee : MessagingFee)
  | quoteRequest (ctx : QuoteRequest) (params : RequestParams)
  | submitProof (ctx : SubmitProof) (params : SubmitProofParams)
  | sendClaim (ctx : SendClaim) (msgFee : MessagingFee)
  | quoteClaim (ctx : QuoteClaim)
  | lzReceive (ctx : LzReceive) (params : LzReceiveParams)
  | lzReceiveTypes (ctx : LzReceiveTypes) (params : LzReceiveParams)
  | initProxy (ctx : InitProxy) (params : InitProxyParams)
  | setBackwardFee (ctx : SetBackwardFee) (params : SetBackwardFeeParams)
  | withdrawFee (ctx : WithdrawFee) (params : WithdrawFeeParams)
  | setPause (ctx : SetPause) (params : SetPauseParams)
  | setAccountList (ctx : SetAccountList) (params : SetAccountListParams)
  | setPeerConfig (ctx : SetPeerConfig) (params : SetPeerConfigParams)
  | setDelegate (ctx : SetDelegate) (params : SetDelegateParams)
  | transferAdmin (ctx : TransferAdmin) (params : TransferAdminParams)

namespace Instruction

/-- The accounts an instruction is called with. -/
def accounts : Instruction → List AccountInfo
  | sendRequest c _ _ =>
    [c.user, c.proxyConfig, c.peerConfig, c.backwardFee] ++ c.remainingAccounts
  | quoteRequest c _ =>
    [c.user, c.proxyConfig, c.peerConfig, c.backwardFee] ++ c.remainingAccounts
  | submitProof c _ => [c.user, c.proxyConfig, c.claimData, c.systemProgram]
  | sendClaim c _ =>
    [c.user, c.claimData, c.proxyConfig, c.peerConfig, c.backwardFee, c.systemProgram] ++
      c.remainingAccounts
  | quoteClaim c =>
    [c.user, c.claimData, c.proxyConfig, c.peerConfig, c.backwardFee] ++ c.remainingAccounts
  | lzReceive c _ => c.toList
  | lzReceiveTypes c _ => [c.proxyConfig, c.accountList]
  | initProxy c _ =>
    [c.payer, c.proxyConfig, c.lzReceiveTypesAccounts, c.proxyTokenAccount, c.tokenMint,
      c.tokenProgram, c.associatedTokenProgram, c.systemProgram] ++ c.remainingAccounts
  | setBackwardFee c _ => [c.admin, c.proxyConfig, c.backwardFee, c.systemProgram]
  | withdrawFee c _ => [c.admin, c.proxyConfig, c.feeCollector]
  | setPause c _ => [c.admin, c.proxyConfig]
  | setAccountList c _ =>
    [c.admin, c.proxyConfig, c.lzReceiveTypes, c.accountList, c.systemProgram]
  | setPeerConfig c _ => [c.admin, c.peerConfig, c.proxyConfig, c.systemProgram]
  | setDelegate c _ => [c.admin, c.proxyConfig] ++ c.remainingAccounts
  | transferAdmin c _ => [c.admin, c.proxyConfig, c.systemProgram]

/-- The instruction is signed by a key. -/
def SignedBy (i : Instruction) (u : Pubkey) : Prop :=
  ∃ a ∈ i.accounts, a.isSigner = true ∧ a.pubkey = u

/-- The effect of an instruction on a world. -/
def execute (P : Platform) (env : Env) (w : ProxyWorld) :
    Instruction → Result ProxyError (ProxyWorld × List ProxyEffect)
  | sendRequest ctx params msgFee => do
    let (w, es, _) ← ctx.apply P env w params msgFee
    return (w, es)
  | quoteRequest ctx params => do
    let (es, _) ← ctx.apply P env w params
    return (w, es)
  | submitProof ctx params => ctx.apply P w params
  | sendClaim ctx msgFee => do
    let (w, es, _) ← ctx.apply P env w msgFee
    return (w, es)
  | quoteClaim ctx => do
    let (es, _) ← ctx.apply P env w
    return (w, es)
  | lzReceive ctx params => ctx.apply P env w params
  | lzReceiveTypes ctx params => do
    let _ ← ctx.apply P w params
    return (w, [])
  | initProxy ctx params => ctx.apply P env w params
  | setBackwardFee ctx params => ctx.apply P w params
  | withdrawFee ctx params => ctx.apply P w params
  | setPause ctx params => ctx.apply P w params
  | setAccountList ctx params => ctx.apply P w params
  | setPeerConfig ctx params => ctx.apply P env w params
  | setDelegate ctx params => ctx.apply P env w params
  | transferAdmin ctx params => ctx.apply P w params

section Execute

variable {P : Platform} {env : Env} {w w' : ProxyWorld} {es : List ProxyEffect}

theorem execute_sendRequest {ctx : SendRequest} {params : RequestParams} {fee : MessagingFee}
    (h : execute P env w (sendRequest ctx params fee) = .ok (w', es)) :
    ∃ receipt, ctx.apply P env w params fee = .ok (w', es, receipt) := by
  simp only [execute, Except.bind_eq_ok, Except.pure_eq_ok, Prod.mk.injEq] at h
  obtain ⟨⟨w₁, es₁, receipt⟩, hc, rfl, rfl⟩ := h
  exact ⟨receipt, hc⟩

theorem execute_sendClaim {ctx : SendClaim} {fee : MessagingFee}
    (h : execute P env w (sendClaim ctx fee) = .ok (w', es)) :
    ∃ receipt, ctx.apply P env w fee = .ok (w', es, receipt) := by
  simp only [execute, Except.bind_eq_ok, Except.pure_eq_ok, Prod.mk.injEq] at h
  obtain ⟨⟨w₁, es₁, receipt⟩, hc, rfl, rfl⟩ := h
  exact ⟨receipt, hc⟩

/-- The three instructions that only answer a question change nothing and send nothing. -/
theorem execute_quoteRequest {ctx : QuoteRequest} {params : RequestParams}
    (h : execute P env w (quoteRequest ctx params) = .ok (w', es)) :
    w' = w ∧ es.filterMap Effect.sent? = [] := by
  simp only [execute, Except.bind_eq_ok, Except.pure_eq_ok, Prod.mk.injEq] at h
  obtain ⟨⟨es₁, fee⟩, hc, rfl, rfl⟩ := h
  obtain ⟨_, _, _, _, _, _, _, rfl⟩ := QuoteRequest.of_apply_eq_ok hc
  exact ⟨rfl, rfl⟩

theorem execute_quoteClaim {ctx : QuoteClaim}
    (h : execute P env w (quoteClaim ctx) = .ok (w', es)) :
    w' = w ∧ es.filterMap Effect.sent? = [] := by
  simp only [execute, Except.bind_eq_ok, Except.pure_eq_ok, Prod.mk.injEq] at h
  obtain ⟨⟨es₁, fee⟩, hc, rfl, rfl⟩ := h
  obtain ⟨_, _, _, _, _, _, _, rfl⟩ := QuoteClaim.of_apply_eq_ok hc
  exact ⟨rfl, rfl⟩

theorem execute_lzReceiveTypes {ctx : LzReceiveTypes} {params : LzReceiveParams}
    (h : execute P env w (lzReceiveTypes ctx params) = .ok (w', es)) :
    w' = w ∧ es.filterMap Effect.sent? = [] := by
  simp only [execute, Except.bind_eq_ok, Except.pure_eq_ok, Prod.mk.injEq] at h
  obtain ⟨accounts, -, rfl, rfl⟩ := h
  exact ⟨rfl, rfl⟩

/-- The configuration an administrative instruction loads is where it belongs. -/
private theorem placed_config {admin proxyConfig : AccountInfo} {config : ProxyConfig}
    (hw : WellPlaced P w) (h : loadConfigFor P w admin proxyConfig = .ok config) :
    P.findProgramAddress proxyConfigSeeds = some (proxyConfig.pubkey, config.bump) ∧
      configAddress? P = some proxyConfig.pubkey := by
  obtain ⟨-, hload, -⟩ := loadConfigFor_eq_ok.mp h
  obtain ⟨hdata, -⟩ := loadConfig_eq_ok.mp hload
  exact ⟨hw _ _ hdata, hw.configAddress_eq hdata⟩

/-- **Placement.** Every instruction keeps every account at the address of its seeds. -/
theorem placed {i : Instruction} (hw : WellPlaced P w) (h : execute P env w i = .ok (w', es)) :
    WellPlaced P w' := by
  cases i with
  | sendRequest ctx params fee =>
    obtain ⟨receipt, hc⟩ := execute_sendRequest h
    obtain ⟨_, _, _, -, hdata, -⟩ := SendRequest.of_apply_eq_ok hc
    exact hw.of_data_eq hdata
  | quoteRequest ctx params => exact (execute_quoteRequest h).1 ▸ hw
  | submitProof ctx params =>
    obtain ⟨-, config, bump, -, -, hfind, -, hdata, -⟩ := SubmitProof.of_apply_eq_ok h
    exact hw.update hdata hfind
  | sendClaim ctx fee =>
    obtain ⟨receipt, hc⟩ := execute_sendClaim h
    obtain ⟨_, _, _, _, _, _, -, hdata, -⟩ := SendClaim.of_apply_eq_ok hc
    exact hw.erase hdata
  | quoteClaim ctx => exact (execute_quoteClaim h).1 ▸ hw
  | lzReceive ctx params => exact hw.of_data_eq (LzReceive.data_of_apply h).1
  | lzReceiveTypes ctx params => exact (execute_lzReceiveTypes h).1 ▸ hw
  | initProxy ctx params =>
    obtain ⟨bump, bump', hfind, hfind', -, -, -, hdata, -⟩ := InitProxy.of_apply_eq_ok h
    have hconfig : configAddress? P = some ctx.proxyConfig.pubkey := by
      rw [configAddress?, hfind]
      rfl
    have hw₁ : WellPlaced P
        (w.store ProxyConfig.kind ctx.proxyConfig.pubkey (params.config bump)) :=
      hw.update rfl hfind
    exact hw₁.update hdata ⟨_, bump', hconfig, hfind'⟩
  | setBackwardFee ctx params =>
    obtain ⟨-, bump, hfind, -, hdata, -⟩ := SetBackwardFee.of_apply_eq_ok h
    exact hw.update hdata hfind
  | withdrawFee ctx params =>
    obtain ⟨_, -, hdata, -⟩ := WithdrawFee.of_apply_eq_ok h
    exact hw.of_data_eq hdata
  | setPause ctx params =>
    obtain ⟨config, hconfig, hdata, -⟩ := SetPause.of_apply_eq_ok h
    exact hw.update hdata (placed_config hw hconfig).1
  | setAccountList ctx params =>
    obtain ⟨config, t, b, bump, hconfig, -, hlz, hlist, -, hdata, -⟩ :=
      SetAccountList.of_apply_eq_ok h
    obtain ⟨-, haddr⟩ := placed_config hw hconfig
    have hw₁ : WellPlaced P (w.store LzReceiveTypesAccounts.kind ctx.lzReceiveTypes.pubkey
        { t with accountList := ctx.accountList.pubkey }) :=
      hw.update rfl ⟨_, b, haddr, hlz⟩
    exact hw₁.update hdata ⟨_, haddr, hlist⟩
  | setPeerConfig ctx params =>
    obtain ⟨⟨config, hconfig⟩, bump, p, peer, hfind, -, -, hdata, -⟩ :=
      SetPeerConfig.of_apply_eq_ok h
    obtain ⟨-, haddr⟩ := placed_config hw hconfig
    exact hw.update hdata ⟨_, params.remoteEid, haddr, hfind⟩
  | setDelegate ctx params =>
    obtain ⟨_, -, hdata, -⟩ := SetDelegate.of_apply_eq_ok h
    exact hw.of_data_eq hdata
  | transferAdmin ctx params =>
    obtain ⟨config, hconfig, hdata, -⟩ := TransferAdmin.of_apply_eq_ok h
    exact hw.update hdata (placed_config hw hconfig).1

end Execute

end Instruction

/-! ### The machine -/

/-- What a run is made of: calls of the program by anyone, and whatever else moves lamports
and tokens without touching the program's accounts. -/
inductive Input where
  | call (env : Env) (i : Instruction)
  | outside (lamports : Pubkey → ℕ) (tokens : Pubkey → Option TokenAccount)
      (mints : Pubkey → Option Mint)

/-- One input. -/
def step (P : Platform) (s : ProxyState P) :
    Input → Except (Failure ProxyError) (ProxyState P × List ProxyEffect)
  | .call env i =>
    match h : i.execute P env s.world with
    | .ok (w, es) => .ok (⟨w, i.placed s.placed h⟩, es)
    | .error e => .error e
  | .outside lamports tokens mints =>
    .ok (⟨⟨s.world.data, lamports, tokens, mints⟩, s.placed⟩, [])

theorem step_call_eq_ok {P : Platform} {s s' : ProxyState P} {env : Env} {i : Instruction}
    {es : List ProxyEffect} :
    step P s (.call env i) = .ok (s', es) ↔ i.execute P env s.world = .ok (s'.world, es) := by
  constructor
  · intro h
    simp only [step] at h
    split at h
    case h_1 w es' hexec =>
      obtain ⟨rfl, rfl⟩ := Prod.mk.inj (Except.ok.inj h)
      exact hexec
    case h_2 => cases h
  · intro h
    simp only [step]
    split
    case h_1 w es' hexec =>
      rw [h] at hexec
      obtain ⟨rfl, rfl⟩ := Prod.mk.inj (Except.ok.inj hexec)
      rfl
    case h_2 e hexec =>
      rw [h] at hexec
      cases hexec

/-- A call succeeds exactly when its instruction does. -/
theorem exists_step_call_iff {P : Platform} {s : ProxyState P} {env : Env} {i : Instruction} :
    (∃ r, step P s (.call env i) = .ok r) ↔ ∃ r, i.execute P env s.world = .ok r := by
  constructor
  · rintro ⟨⟨s', es⟩, h⟩
    exact ⟨(s'.world, es), step_call_eq_ok.mp h⟩
  · rintro ⟨⟨w, es⟩, h⟩
    exact ⟨(⟨w, i.placed s.placed h⟩, es), step_call_eq_ok.mpr h⟩

theorem step_call_eq_error {P : Platform} {s : ProxyState P} {env : Env} {i : Instruction}
    {e : Failure ProxyError} :
    step P s (.call env i) = .error e ↔ i.execute P env s.world = .error e := by
  simp only [step]
  split
  case h_1 w es hexec =>
    refine iff_of_false (fun h => nomatch h) fun h => ?_
    rw [hexec] at h
    cases h
  case h_2 e' hexec =>
    constructor
    · intro h
      obtain rfl := Except.error.inj h
      exact hexec
    · intro h
      rw [hexec] at h
      obtain rfl := Except.error.inj h
      rfl

/-- The states before the program was ever called. -/
def ProxyState.Fresh {P : Platform} (s : ProxyState P) : Prop := ∀ k, s.world.data k = none

/-- A world without accounts of the program. -/
def ProxyState.fresh (P : Platform) (lamports : Pubkey → ℕ)
    (tokens : Pubkey → Option TokenAccount) (mints : Pubkey → Option Mint) : ProxyState P :=
  ⟨⟨fun _ => none, lamports, tokens, mints⟩, fun _ _ h => nomatch h⟩

/-! ### A deployment

A small platform on which instructions can be played: an address table with the accounts of
one deployment, one user and two peers. -/

/-- The user who asks and claims. -/
def sampleUser : Pubkey := sampleKey 20

/-- The admin of the proxy. -/
def sampleAdmin : Pubkey := sampleKey 21

/-- The mint of USDC. -/
def sampleMint : Pubkey := sampleKey 22

/-- The endpoint program. -/
def sampleEndpointProgram : Pubkey := sampleKey 23

/-- The wallet USDC is paid to. -/
def sampleReceiver : Pubkey := sampleKey 24

/-- The endpoint id of the ledger. -/
def sampleEid : U32 := 30213#32

/-- The endpoint id of another peer. -/
def sampleOtherEid : U32 := 40000#32

/-- The addresses of the deployment, each with its seeds and the first bump tried. -/
def sampleTable : List ((Bytes × Pubkey) × Pubkey) :=
  [((proxyConfigSeeds ++ [255], sampleKey 100), sampleKey 1),
    ((lzReceiveTypesSeeds (sampleKey 1) ++ [255], sampleKey 100), sampleKey 2),
    ((accountListSeeds (sampleKey 1) ++ [255], sampleKey 100), sampleKey 3),
    ((backwardFeeSeeds ++ [255], sampleKey 100), sampleKey 4),
    ((peerSeeds (sampleKey 1) sampleEid ++ [255], sampleKey 100), sampleKey 5),
    ((claimDataSeeds sampleUser ++ [255], sampleKey 100), sampleKey 6),
    ((eventAuthoritySeeds ++ [255], sampleKey 100), sampleKey 7),
    ((peerSeeds (sampleKey 1) sampleOtherEid ++ [255], sampleKey 100), sampleKey 8),
    (((sampleKey 1).toList ++ (sampleKey 101).toList ++ sampleMint.toList ++ [255],
      sampleKey 103), sampleKey 9),
    ((sampleReceiver.toList ++ (sampleKey 101).toList ++ sampleMint.toList ++ [255],
      sampleKey 103), sampleKey 10)]

/-- The platform of the deployment, with the rent of Solana. -/
def samplePlatform : Platform where
  programId := sampleKey 100
  derive := tableDerive sampleTable
  keccak := sampleHash
  systemProgram := zero32
  tokenProgram := sampleKey 101
  token2022Program := sampleKey 102
  associatedTokenProgram := sampleKey 103
  minimumBalance size := 890880 + 6960 * size
  assertType3 options := options.take 2 == [0, 3]
  combineOptions enforced extra := some (enforced ++ extra.drop 2)
  endpointId := sampleEndpointProgram
  eventSeed := eventAuthoritySeeds
  clearMinAccountsLen := 1
  getAccountsForClear endpoint _ _ _ _ := [⟨endpoint, false, false⟩]

theorem samplePlatform_injective : samplePlatform.DeriveInjective :=
  deriveInjective_of_table rfl (by decide +kernel)

/-- The accounts of the initialization. -/
def sampleInit : InitProxy :=
  ⟨sampleSigner sampleAdmin, sampleWritable (sampleKey 1), sampleWritable (sampleKey 2),
    sampleWritable (sampleKey 9), ⟨sampleMint, false, false⟩, ⟨sampleKey 101, false, false⟩,
    ⟨sampleKey 103, false, false⟩, ⟨zero32, false, false⟩, []⟩

/-- The endpoint, the mint, the admin and the ids of the two sides. -/
def sampleInitParams : InitProxyParams :=
  ⟨sampleEndpointProgram, sampleMint, sampleAdmin, sampleEid, 900#32⟩

/-- The set-up of the deployment: configuration, backward fees and the ledger as peer. -/
def sampleSetup : List Input :=
  [.call sampleEnv (.initProxy sampleInit sampleInitParams),
    .call sampleEnv (.setBackwardFee ⟨sampleSigner sampleAdmin, ⟨sampleKey 1, false, false⟩,
      sampleWritable (sampleKey 4), ⟨zero32, false, false⟩⟩ ⟨500#64, 700#64⟩),
    .call sampleEnv (.setPeerConfig ⟨sampleSigner sampleAdmin, sampleWritable (sampleKey 5),
      ⟨sampleKey 1, false, false⟩, ⟨zero32, false, false⟩⟩
      ⟨sampleEid, .peerAddress (sampleKey 40)⟩)]

/-- The state of the sample before anything was called. -/
def sampleFresh : ProxyState samplePlatform :=
  .fresh samplePlatform (fun _ => 10 ^ 12) (fun _ => none)
    fun k => if k = sampleMint then some ⟨sampleKey 101, 6, none, 10 ^ 15, none⟩ else none

/-- The deployment after its set-up. -/
def sampleDeployed : ProxyState samplePlatform :=
  Machine.run (step samplePlatform) sampleFresh sampleSetup

/-- A request that is charged the backward fee for ORDER. -/
def sampleRequest : RequestParams := ⟨PayloadType.withdrawOrder.toU8, [1, 2, 3]⟩

/-- The accounts of the request. -/
def sampleSendRequest : SendRequest :=
  ⟨sampleSigner sampleUser, sampleWritable (sampleKey 1), ⟨sampleKey 5, false, false⟩,
    ⟨sampleKey 4, false, false⟩, []⟩

/-- A distribution, an amount, and a proof of two digests. -/
def sampleParams : SubmitProofParams := ⟨7#32, sampleKey 3, [sampleKey 4, sampleKey 5]⟩

/-- The accounts of the submission. -/
def sampleSubmitProof : SubmitProof :=
  ⟨sampleSigner sampleUser, ⟨sampleKey 1, false, false⟩, sampleWritable (sampleKey 6),
    ⟨zero32, false, false⟩⟩

/-- The accounts of the claim. -/
def sampleSendClaim : SendClaim :=
  ⟨sampleSigner sampleUser, sampleWritable (sampleKey 6), sampleWritable (sampleKey 1),
    ⟨sampleKey 5, false, false⟩, ⟨sampleKey 4, false, false⟩, ⟨zero32, false, false⟩, []⟩

/-- The deployment with a claim of the sample user pending. -/
def sampleClaimed : ProxyState samplePlatform :=
  Machine.run (step samplePlatform) sampleDeployed
    [.call sampleEnv (.submitProof sampleSubmitProof sampleParams)]

/-- The deployment with 1000 units of USDC in the proxy's token account. -/
def sampleFunded : ProxyState samplePlatform :=
  Machine.run (step samplePlatform) sampleDeployed
    [.outside sampleDeployed.world.lamports
      (fun k => if k = sampleKey 9 then some ⟨sampleKey 101, sampleMint, sampleKey 1, 1000⟩ else
        sampleDeployed.world.tokens k)
      sampleDeployed.world.mints]

/-- The accounts of a delivery to the sample receiver of a message of the given peer. -/
def sampleLzReceive (peer : Pubkey) : LzReceive :=
  ⟨sampleSigner sampleUser, ⟨sampleKey 1, false, false⟩, ⟨peer, false, false⟩,
    ⟨sampleMint, false, false⟩, sampleWritable (sampleKey 9), ⟨sampleReceiver, false, false⟩,
    sampleWritable (sampleKey 10), ⟨sampleKey 101, false, false⟩, ⟨sampleKey 103, false, false⟩,
    ⟨zero32, false, false⟩, ⟨sampleKey 7, false, false⟩, ⟨sampleKey 100, false, false⟩,
    [⟨sampleEndpointProgram, false, false⟩]⟩

end Proxy
