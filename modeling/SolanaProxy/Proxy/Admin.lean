import SolanaProxy.Proxy.Request

/-!
# Administration

The eight instructions that set the proxy up, configure it and withdraw its fees. All but
`init_proxy` must be signed by the admin stored in the configuration.
-/

namespace Proxy

open Solana

/-- `has_one = admin`: the signer is the stored admin. -/
def hasOneAdmin (config : ProxyConfig) (admin : AccountInfo) : Result ProxyError Unit :=
  Except.require (config.admin = admin.pubkey) (.program .invalidProxyAdmin)

/-- The configuration, loaded for an instruction of its admin. -/
def loadConfigFor (P : Platform) (w : ProxyWorld) (admin proxyConfig : AccountInfo) :
    Result ProxyError ProxyConfig := do
  signer admin
  let config ← loadConfig P w proxyConfig
  hasOneAdmin config admin
  return config

theorem loadConfigFor_eq_ok {P : Platform} {w : ProxyWorld} {admin proxyConfig : AccountInfo}
    {config : ProxyConfig} :
    loadConfigFor P w admin proxyConfig = .ok config ↔
      admin.isSigner = true ∧ loadConfig P w proxyConfig = .ok config ∧
        config.admin = admin.pubkey := by
  simp only [loadConfigFor, signer, hasOneAdmin, Except.bind_eq_ok, Except.require_eq_ok,
    Except.pure_eq_ok]
  constructor
  · rintro ⟨-, hsigner, c, hload, -, hadmin, rfl⟩
    exact ⟨hsigner, hload, hadmin⟩
  · rintro ⟨hsigner, hload, hadmin⟩
    exact ⟨(), hsigner, config, hload, (), hadmin, rfl⟩

/-! ### Set-up -/

/-- The accounts of `init_proxy`. -/
structure InitProxy where
  payer : AccountInfo
  proxyConfig : AccountInfo
  lzReceiveTypesAccounts : AccountInfo
  proxyTokenAccount : AccountInfo
  tokenMint : AccountInfo
  tokenProgram : AccountInfo
  associatedTokenProgram : AccountInfo
  systemProgram : AccountInfo
  remainingAccounts : List AccountInfo

/-- The parameters of `init_proxy`. -/
structure InitProxyParams where
  endpointProgram : Pubkey
  usdcTokenAccount : Pubkey
  admin : Pubkey
  orderlyEid : U32
  solChainId : U32
deriving DecidableEq

/-- The configuration written for the parameters. -/
def InitProxyParams.config (params : InitProxyParams) (bump : U8) : ProxyConfig where
  bump := bump
  endpointProgram := params.endpointProgram
  usdcTokenAccount := params.usdcTokenAccount
  admin := params.admin
  orderlyEid := params.orderlyEid
  solChainId := params.solChainId
  paused := false

namespace InitProxy

/-- The configuration and the token account are created, and the proxy is registered with the
endpoint. -/
def apply (P : Platform) (env : Env) (w : ProxyWorld) (ctx : InitProxy)
    (params : InitProxyParams) : Result ProxyError (ProxyWorld × List ProxyEffect) := do
  signer ctx.payer
  writable ctx.payer
  tokenInterface P ctx.tokenProgram
  let _ ← loadMint w ctx.tokenMint ctx.tokenProgram.pubkey
  program ctx.associatedTokenProgram P.associatedTokenProgram
  program ctx.systemProgram P.systemProgram
  let (w, bump) ← init P ProxyConfig.kind ProxyConfig.zero w proxyConfigSeeds ctx.payer
    ctx.proxyConfig (8 + ProxyConfig.initSpace)
  let (w, _) ← init P LzReceiveTypesAccounts.kind LzReceiveTypesAccounts.zero w
    (lzReceiveTypesSeeds ctx.proxyConfig.pubkey) ctx.payer ctx.lzReceiveTypesAccounts
    (8 + LzReceiveTypesAccounts.initSpace)
  let w ← initAssociatedIfNeeded P w ctx.payer ctx.proxyTokenAccount ctx.tokenMint.pubkey
    ctx.proxyConfig.pubkey ctx.tokenProgram.pubkey
  let w := w.store ProxyConfig.kind ctx.proxyConfig.pubkey (params.config bump)
  let w := w.store LzReceiveTypesAccounts.kind ctx.lzReceiveTypesAccounts.pubkey
    { LzReceiveTypesAccounts.zero with proxyConfig := ctx.proxyConfig.pubkey }
  let w ← endpointCall env w params.endpointProgram ctx.proxyConfig.pubkey
    ctx.remainingAccounts (.registerOapp params.admin)
  return (w, [.endpointCall params.endpointProgram ctx.proxyConfig.pubkey
    ctx.remainingAccounts (.registerOapp params.admin)])

end InitProxy

/-! ### Settings -/

/-- The accounts of `set_backward_fee`. -/
structure SetBackwardFee where
  admin : AccountInfo
  proxyConfig : AccountInfo
  backwardFee : AccountInfo
  systemProgram : AccountInfo

/-- The parameters of `set_backward_fee`. -/
structure SetBackwardFeeParams where
  orderBackwardFee : U64
  usdcBackwardFee : U64
deriving DecidableEq

/-- The admin sets the backward fees. -/
def SetBackwardFee.apply (P : Platform) (w : ProxyWorld) (ctx : SetBackwardFee)
    (params : SetBackwardFeeParams) : Result ProxyError (ProxyWorld × List ProxyEffect) := do
  writable ctx.admin
  let _ ← loadConfigFor P w ctx.admin ctx.proxyConfig
  let (w, _, bump) ← initIfNeeded P BackwardFee.kind BackwardFee.zero w backwardFeeSeeds
    ctx.admin ctx.backwardFee (8 + BackwardFee.initSpace)
  program ctx.systemProgram P.systemProgram
  return (w.store BackwardFee.kind ctx.backwardFee.pubkey
    ⟨bump, params.orderBackwardFee, params.usdcBackwardFee⟩, [])

/-- The accounts of `set_account_list`. -/
structure SetAccountList where
  admin : AccountInfo
  proxyConfig : AccountInfo
  lzReceiveTypes : AccountInfo
  accountList : AccountInfo
  systemProgram : AccountInfo

/-- The parameters of `set_account_list`. -/
structure SetAccountListParams where
  usdcTokenAccount : Pubkey
deriving DecidableEq

/-- The admin writes the account list and points the accounts of `lz_receive_types` to it. -/
def SetAccountList.apply (P : Platform) (w : ProxyWorld) (ctx : SetAccountList)
    (params : SetAccountListParams) : Result ProxyError (ProxyWorld × List ProxyEffect) := do
  writable ctx.admin
  let _ ← loadConfigFor P w ctx.admin ctx.proxyConfig
  let lzReceiveTypes ← loadAccount LzReceiveTypesAccounts.kind w ctx.lzReceiveTypes
  let _ ← findPda P (lzReceiveTypesSeeds ctx.proxyConfig.pubkey) ctx.lzReceiveTypes
  writable ctx.lzReceiveTypes
  let (w, _, bump) ← initIfNeeded P AccountList.kind AccountList.zero w
    (accountListSeeds ctx.proxyConfig.pubkey) ctx.admin ctx.accountList
    (8 + AccountList.initSpace)
  program ctx.systemProgram P.systemProgram
  let w := w.store LzReceiveTypesAccounts.kind ctx.lzReceiveTypes.pubkey
    { lzReceiveTypes with accountList := ctx.accountList.pubkey }
  return (w.store AccountList.kind ctx.accountList.pubkey ⟨bump, params.usdcTokenAccount⟩, [])

/-- The accounts of `set_peer_config`. -/
structure SetPeerConfig where
  admin : AccountInfo
  peerConfig : AccountInfo
  proxyConfig : AccountInfo
  systemProgram : AccountInfo

/-- The account is written only if its content fits the space it was created with. -/
def SetPeerConfig.apply (P : Platform) (env : Env) (w : ProxyWorld) (ctx : SetPeerConfig)
    (params : SetPeerConfigParams) : Result ProxyError (ProxyWorld × List ProxyEffect) := do
  writable ctx.admin
  let _ ← loadConfigFor P w ctx.admin ctx.proxyConfig
  let (w, peer, bump) ← initIfNeeded P peerKind PeerConfig.zero w
    (peerSeeds ctx.proxyConfig.pubkey params.remoteEid) ctx.admin ctx.peerConfig
    (8 + PeerConfig.initSpace)
  program ctx.systemProgram P.systemProgram
  let peer ← peer.set P env .invalidFee params.config
  Except.require (peer.serializedLen ≤ PeerConfig.initSpace)
    (.anchor .accountDidNotSerialize)
  return (w.store peerKind ctx.peerConfig.pubkey { peer with bump := bump }, [])

/-- The accounts of `set_pause`. -/
structure SetPause where
  admin : AccountInfo
  proxyConfig : AccountInfo

/-- The parameters of `set_pause`. -/
structure SetPauseParams where
  paused : Bool
deriving DecidableEq

/-- The admin pauses or unpauses. -/
def SetPause.apply (P : Platform) (w : ProxyWorld) (ctx : SetPause) (params : SetPauseParams) :
    Result ProxyError (ProxyWorld × List ProxyEffect) := do
  let config ← loadConfigFor P w ctx.admin ctx.proxyConfig
  writable ctx.proxyConfig
  return (w.store ProxyConfig.kind ctx.proxyConfig.pubkey { config with paused := params.paused },
    [.event (.proxyPaused params.paused)])

/-- The accounts of `transfer_admin`. -/
structure TransferAdmin where
  admin : AccountInfo
  proxyConfig : AccountInfo
  systemProgram : AccountInfo

/-- The parameters of `transfer_admin`. -/
structure TransferAdminParams where
  newAdmin : Pubkey
deriving DecidableEq

/-- The admin names another admin. -/
def TransferAdmin.apply (P : Platform) (w : ProxyWorld) (ctx : TransferAdmin)
    (params : TransferAdminParams) : Result ProxyError (ProxyWorld × List ProxyEffect) := do
  let config ← loadConfigFor P w ctx.admin ctx.proxyConfig
  writable ctx.proxyConfig
  program ctx.systemProgram P.systemProgram
  Except.require (config.admin ≠ params.newAdmin) (.program .sameAdmin)
  return (w.store ProxyConfig.kind ctx.proxyConfig.pubkey { config with admin := params.newAdmin },
    [.event (.adminRoleTransferred config.admin params.newAdmin)])

/-- The accounts of `set_delegate`. -/
structure SetDelegate where
  admin : AccountInfo
  proxyConfig : AccountInfo
  remainingAccounts : List AccountInfo

/-- The parameters of `set_delegate`. -/
structure SetDelegateParams where
  delegate : Pubkey
deriving DecidableEq

/-- The admin names a delegate to the endpoint. -/
def SetDelegate.apply (P : Platform) (env : Env) (w : ProxyWorld) (ctx : SetDelegate)
    (params : SetDelegateParams) : Result ProxyError (ProxyWorld × List ProxyEffect) := do
  let config ← loadConfigFor P w ctx.admin ctx.proxyConfig
  let w ← endpointCall env w config.endpointProgram ctx.proxyConfig.pubkey
    ctx.remainingAccounts (.setDelegate params.delegate)
  return (w, [.endpointCall config.endpointProgram ctx.proxyConfig.pubkey
    ctx.remainingAccounts (.setDelegate params.delegate)])

/-! ### Withdrawal -/

/-- The accounts of `withdraw_fee`. -/
structure WithdrawFee where
  admin : AccountInfo
  proxyConfig : AccountInfo
  feeCollector : AccountInfo

/-- The parameters of `withdraw_fee`. -/
structure WithdrawFeeParams where
  amount : U64
deriving DecidableEq

/-- What the configuration account holds above its rent may be withdrawn; the subtraction
panics when it holds less. -/
def WithdrawFee.apply (P : Platform) (w : ProxyWorld) (ctx : WithdrawFee)
    (params : WithdrawFeeParams) : Result ProxyError (ProxyWorld × List ProxyEffect) := do
  let _ ← loadConfigFor P w ctx.admin ctx.proxyConfig
  writable ctx.proxyConfig
  writable ctx.feeCollector
  let requiredLamports := P.minimumBalance (8 + ProxyConfig.initSpace)
  Except.require (requiredLamports ≤ w.lamports ctx.proxyConfig.pubkey) .panic
  let surplusLamports := w.lamports ctx.proxyConfig.pubkey - requiredLamports
  Except.require (params.amount.toNat ≤ surplusLamports) (.program .insufficientBalance)
  let w ← moveLamports w ctx.proxyConfig.pubkey ctx.feeCollector.pubkey params.amount
  return (w, [.transferLamports ctx.proxyConfig.pubkey ctx.feeCollector.pubkey params.amount])

/-! ### What success means -/

section Success

variable {P : Platform} {env : Env} {w w' : ProxyWorld} {es : List ProxyEffect}

/-- **Set-up** creates the configuration and the delivery accounts, both new. -/
theorem InitProxy.of_apply_eq_ok {ctx : InitProxy} {params : InitProxyParams}
    (h : apply P env w ctx params = .ok (w', es)) :
    ∃ bump bump', P.findProgramAddress proxyConfigSeeds = some (ctx.proxyConfig.pubkey, bump) ∧
      P.findProgramAddress (lzReceiveTypesSeeds ctx.proxyConfig.pubkey) =
        some (ctx.lzReceiveTypesAccounts.pubkey, bump') ∧
      w.data ctx.proxyConfig.pubkey = none ∧ w.data ctx.lzReceiveTypesAccounts.pubkey = none ∧
      ctx.lzReceiveTypesAccounts.pubkey ≠ ctx.proxyConfig.pubkey ∧
      w'.data = Function.update
        (Function.update w.data ctx.proxyConfig.pubkey (some (.proxyConfig (params.config bump))))
        ctx.lzReceiveTypesAccounts.pubkey
        (some (.lzReceiveTypesAccounts ⟨ctx.proxyConfig.pubkey, zero32⟩)) ∧
      es = [.endpointCall params.endpointProgram ctx.proxyConfig.pubkey
        ctx.remainingAccounts (.registerOapp params.admin)] := by
  simp only [apply, Except.bind_eq_ok, Except.pure_eq_ok, Prod.mk.injEq] at h
  obtain ⟨-, -, -, -, -, -, m, -, -, -, -, -, ⟨w₁, bump⟩, hcfg, ⟨w₂, bump'⟩, hlz, w₃, hata, w₄,
    hcall, rfl, rfl⟩ := h
  obtain ⟨hfind, hnew, hdata₁⟩ := data_of_init hcfg
  obtain ⟨hfind', hnew', hdata₂⟩ := data_of_init hlz
  have hdata₃ : w₃.data = w₂.data := data_of_initAssociatedIfNeeded hata
  obtain ⟨lamports, -, rfl⟩ := endpointCall_eq_ok.mp hcall
  have hne : ctx.lzReceiveTypesAccounts.pubkey ≠ ctx.proxyConfig.pubkey := fun heq => by
    rw [hdata₁, heq, Function.update_self] at hnew'
    cases hnew'
  rw [hdata₁, Function.update_of_ne hne] at hnew'
  refine ⟨bump, bump', hfind, hfind', hnew, hnew', hne, ?_, rfl⟩
  -- the zeroed contents are overwritten
  simp only [World.data_store, hdata₃, hdata₂, hdata₁, ProxyConfig.wrap_kind,
    LzReceiveTypesAccounts.wrap_kind]
  rw [Function.update_comm hne.symm, Function.update_idem, Function.update_comm hne,
    Function.update_idem]
  rfl

/-- Setting the backward fees writes their one account. -/
theorem SetBackwardFee.of_apply_eq_ok {ctx : SetBackwardFee} {params : SetBackwardFeeParams}
    (h : apply P w ctx params = .ok (w', es)) :
    (∃ config, loadConfigFor P w ctx.admin ctx.proxyConfig = .ok config) ∧ ∃ bump,
      P.findProgramAddress backwardFeeSeeds = some (ctx.backwardFee.pubkey, bump) ∧
      (w.data ctx.backwardFee.pubkey = none ∨
        ∃ f, w.data ctx.backwardFee.pubkey = some (.backwardFee f)) ∧
      w'.data = Function.update w.data ctx.backwardFee.pubkey
        (some (.backwardFee ⟨bump, params.orderBackwardFee, params.usdcBackwardFee⟩)) ∧
      es = [] := by
  simp only [apply, Except.bind_eq_ok, Except.pure_eq_ok, Prod.mk.injEq] at h
  obtain ⟨-, -, config, hconfig, ⟨w₁, f, bump⟩, hinit, -, -, rfl, rfl⟩ := h
  obtain ⟨hfind, hold, hdata⟩ := data_of_initIfNeeded hinit
  refine ⟨⟨config, hconfig⟩, bump, hfind, ?_, ?_, rfl⟩
  · exact hold.imp And.left fun hload => ⟨f, hload⟩
  · rw [World.data_store, hdata]
    rfl

/-- Setting the account list writes the list and the pointer to it. -/
theorem SetAccountList.of_apply_eq_ok {ctx : SetAccountList} {params : SetAccountListParams}
    (h : apply P w ctx params = .ok (w', es)) :
    ∃ config t b bump, loadConfigFor P w ctx.admin ctx.proxyConfig = .ok config ∧
      w.data ctx.lzReceiveTypes.pubkey = some (.lzReceiveTypesAccounts t) ∧
      P.findProgramAddress (lzReceiveTypesSeeds ctx.proxyConfig.pubkey) =
        some (ctx.lzReceiveTypes.pubkey, b) ∧
      P.findProgramAddress (accountListSeeds ctx.proxyConfig.pubkey) =
        some (ctx.accountList.pubkey, bump) ∧
      (w.data ctx.accountList.pubkey = none ∨
        ∃ l, w.data ctx.accountList.pubkey = some (.accountList l)) ∧
      w'.data = Function.update
        (Function.update w.data ctx.lzReceiveTypes.pubkey
          (some (.lzReceiveTypesAccounts { t with accountList := ctx.accountList.pubkey })))
        ctx.accountList.pubkey (some (.accountList ⟨bump, params.usdcTokenAccount⟩)) ∧
      es = [] := by
  simp only [apply, loadAccount, Except.bind_eq_ok, Except.ofOption_eq_ok, World.load_eq_some,
    findPda_eq_ok, Except.pure_eq_ok, Prod.mk.injEq] at h
  obtain ⟨-, -, config, hconfig, t, ht, b, hb, -, -, ⟨w₁, l, bump⟩, hinit, -, -, rfl, rfl⟩ := h
  obtain ⟨hfind, hold, hdata⟩ := data_of_initIfNeeded hinit
  refine ⟨config, t, b, bump, hconfig, ht, hb, hfind, ?_, ?_, rfl⟩
  · exact hold.imp And.left fun hload => ⟨l, hload⟩
  · rw [World.data_store, World.data_store, hdata]
    rfl

/-- Setting a peer configuration writes the account of its endpoint id, an empty one if there was
none. -/
theorem SetPeerConfig.of_apply_eq_ok {ctx : SetPeerConfig} {params : SetPeerConfigParams}
    (h : apply P env w ctx params = .ok (w', es)) :
    (∃ config, loadConfigFor P w ctx.admin ctx.proxyConfig = .ok config) ∧
      ∃ (bump : U8) (p peer : PeerConfig),
      P.findProgramAddress (peerSeeds ctx.proxyConfig.pubkey params.remoteEid) =
        some (ctx.peerConfig.pubkey, bump) ∧
      ((w.data ctx.peerConfig.pubkey = none ∧ p = PeerConfig.zero) ∨
        w.data ctx.peerConfig.pubkey = some (.peerConfig p)) ∧
      p.set P env ProxyError.invalidFee params.config = .ok peer ∧
      w'.data = Function.update w.data ctx.peerConfig.pubkey
        (some (.peerConfig { peer with bump := bump })) ∧
      es = [] := by
  simp only [apply, Except.bind_eq_ok, Except.pure_eq_ok, Prod.mk.injEq] at h
  obtain ⟨-, -, config, hconfig, ⟨w₁, p, bump⟩, hinit, -, -, peer, hset, -, -, rfl, rfl⟩ := h
  obtain ⟨hfind, hold, hdata⟩ := data_of_initIfNeeded hinit
  refine ⟨⟨config, hconfig⟩, bump, p, peer, hfind, hold, hset, ?_, rfl⟩
  rw [World.data_store, hdata]
  rfl

/-- Pausing and unpausing writes the configuration. -/
theorem SetPause.of_apply_eq_ok {ctx : SetPause} {params : SetPauseParams}
    (h : apply P w ctx params = .ok (w', es)) :
    ∃ config, loadConfigFor P w ctx.admin ctx.proxyConfig = .ok config ∧
      w'.data = Function.update w.data ctx.proxyConfig.pubkey
        (some (.proxyConfig { config with paused := params.paused })) ∧
      es = [.event (.proxyPaused params.paused)] := by
  simp only [apply, Except.bind_eq_ok, Except.pure_eq_ok, Prod.mk.injEq] at h
  obtain ⟨config, hconfig, -, -, rfl, rfl⟩ := h
  exact ⟨config, hconfig, rfl, rfl⟩

/-- Handing over the admin role writes the configuration. -/
theorem TransferAdmin.of_apply_eq_ok {ctx : TransferAdmin} {params : TransferAdminParams}
    (h : apply P w ctx params = .ok (w', es)) :
    ∃ config, loadConfigFor P w ctx.admin ctx.proxyConfig = .ok config ∧
      w'.data = Function.update w.data ctx.proxyConfig.pubkey
        (some (.proxyConfig { config with admin := params.newAdmin })) ∧
      es = [.event (.adminRoleTransferred config.admin params.newAdmin)] := by
  simp only [apply, Except.bind_eq_ok, Except.pure_eq_ok, Prod.mk.injEq] at h
  obtain ⟨config, hconfig, -, -, -, -, -, -, rfl, rfl⟩ := h
  exact ⟨config, hconfig, rfl, rfl⟩

/-- Setting the delegate writes no account of the program. -/
theorem SetDelegate.of_apply_eq_ok {ctx : SetDelegate} {params : SetDelegateParams}
    (h : apply P env w ctx params = .ok (w', es)) :
    ∃ config, loadConfigFor P w ctx.admin ctx.proxyConfig = .ok config ∧ w'.data = w.data ∧
      es = [.endpointCall config.endpointProgram ctx.proxyConfig.pubkey ctx.remainingAccounts
        (.setDelegate params.delegate)] := by
  simp only [apply, Except.bind_eq_ok, Except.pure_eq_ok, Prod.mk.injEq] at h
  obtain ⟨config, hconfig, w₁, hcall, rfl, rfl⟩ := h
  obtain ⟨lamports, -, rfl⟩ := endpointCall_eq_ok.mp hcall
  exact ⟨config, hconfig, rfl, rfl⟩

/-- **Withdrawals** take no more than what is above the rent, and move lamports only. -/
theorem WithdrawFee.apply_eq_ok {ctx : WithdrawFee} {params : WithdrawFeeParams} :
    apply P w ctx params = .ok (w', es) ↔
      (∃ config, loadConfigFor P w ctx.admin ctx.proxyConfig = .ok config) ∧
      ctx.proxyConfig.isWritable = true ∧ ctx.feeCollector.isWritable = true ∧
      P.minimumBalance (8 + ProxyConfig.initSpace) ≤ w.lamports ctx.proxyConfig.pubkey ∧
      params.amount.toNat ≤ w.lamports ctx.proxyConfig.pubkey -
        P.minimumBalance (8 + ProxyConfig.initSpace) ∧
      w.transferLamports ctx.proxyConfig.pubkey ctx.feeCollector.pubkey params.amount.toNat =
        some w' ∧
      es = [.transferLamports ctx.proxyConfig.pubkey ctx.feeCollector.pubkey params.amount] := by
  simp only [apply, writable, moveLamports, Except.bind_eq_ok, Except.require_eq_ok,
    Except.ofOption_eq_ok, Except.pure_eq_ok, Prod.mk.injEq]
  constructor
  · rintro ⟨config, hconfig, -, hmut, -, hcmut, -, hrent, -, hle, w₁, hpay, rfl, rfl⟩
    exact ⟨⟨config, hconfig⟩, hmut, hcmut, hrent, hle, hpay, rfl⟩
  · rintro ⟨⟨config, hconfig⟩, hmut, hcmut, hrent, hle, hpay, rfl⟩
    exact ⟨config, hconfig, (), hmut, (), hcmut, (), hrent, (), hle, w', hpay, rfl, rfl⟩

theorem WithdrawFee.of_apply_eq_ok {ctx : WithdrawFee} {params : WithdrawFeeParams}
    (h : apply P w ctx params = .ok (w', es)) :
    ∃ config, loadConfigFor P w ctx.admin ctx.proxyConfig = .ok config ∧ w'.data = w.data ∧
      es = [.transferLamports ctx.proxyConfig.pubkey ctx.feeCollector.pubkey params.amount] := by
  obtain ⟨⟨config, hconfig⟩, -, -, -, -, hpay, rfl⟩ := apply_eq_ok.mp h
  exact ⟨config, hconfig, (World.data_of_transferLamports hpay).1, rfl⟩

/-! ### Who pays

The admin pays for the settings. -/

theorem SetBackwardFee.paidBy_of_apply {ctx : SetBackwardFee} {params : SetBackwardFeeParams}
    (h : apply P w ctx params = .ok (w', es)) : w.PaidBy ctx.admin.pubkey w' := by
  simp only [apply, Except.bind_eq_ok, Except.pure_eq_ok, Prod.mk.injEq] at h
  obtain ⟨-, -, config, -, ⟨w₁, f, bump⟩, hinit, -, -, rfl, -⟩ := h
  exact (World.PaidBy.of_initIfNeeded hinit).store _ _ _

theorem SetAccountList.paidBy_of_apply {ctx : SetAccountList} {params : SetAccountListParams}
    (h : apply P w ctx params = .ok (w', es)) : w.PaidBy ctx.admin.pubkey w' := by
  simp only [apply, Except.bind_eq_ok, Except.pure_eq_ok, Prod.mk.injEq] at h
  obtain ⟨-, -, config, -, t, -, b, -, -, -, ⟨w₁, l, bump⟩, hinit, -, -, rfl, -⟩ := h
  exact ((World.PaidBy.of_initIfNeeded hinit).store _ _ _).store _ _ _

theorem SetPeerConfig.paidBy_of_apply {ctx : SetPeerConfig} {params : SetPeerConfigParams}
    (h : apply P env w ctx params = .ok (w', es)) : w.PaidBy ctx.admin.pubkey w' := by
  simp only [apply, Except.bind_eq_ok, Except.pure_eq_ok, Prod.mk.injEq] at h
  obtain ⟨-, -, config, -, ⟨w₁, p, bump⟩, hinit, -, -, peer, -, -, -, rfl, -⟩ := h
  exact (World.PaidBy.of_initIfNeeded hinit).store _ _ _

theorem SetPause.paidBy_of_apply {ctx : SetPause} {params : SetPauseParams}
    (h : apply P w ctx params = .ok (w', es)) : w.PaidBy ctx.admin.pubkey w' := by
  simp only [apply, Except.bind_eq_ok, Except.pure_eq_ok, Prod.mk.injEq] at h
  obtain ⟨config, -, -, -, rfl, -⟩ := h
  exact (World.PaidBy.refl _ w).store _ _ _

theorem TransferAdmin.paidBy_of_apply {ctx : TransferAdmin} {params : TransferAdminParams}
    (h : apply P w ctx params = .ok (w', es)) : w.PaidBy ctx.admin.pubkey w' := by
  simp only [apply, Except.bind_eq_ok, Except.pure_eq_ok, Prod.mk.injEq] at h
  obtain ⟨config, -, -, -, -, -, -, -, rfl, -⟩ := h
  exact (World.PaidBy.refl _ w).store _ _ _

end Success

end Proxy
