import SolanaProxy.Proxy.Run

/-!
# What an instruction of the proxy can change

One inversion lemma says what an instruction does to the account at an address
(`Instruction.accountChange`): nothing, the creation of the two accounts of a set-up, the
submission or the sending of a claim while the proxy is not paused, or a setting that the stored
admin has signed. Invariants of runs need one case for each constructor of `AccountChange`.
-/

namespace Proxy

open Solana

/-- The admin's account and the configuration account of an instruction of the admin. -/
def Instruction.adminAccounts : Instruction → Option (AccountInfo × AccountInfo)
  | .setBackwardFee ctx _ => some (ctx.admin, ctx.proxyConfig)
  | .withdrawFee ctx _ => some (ctx.admin, ctx.proxyConfig)
  | .setPause ctx _ => some (ctx.admin, ctx.proxyConfig)
  | .setAccountList ctx _ => some (ctx.admin, ctx.proxyConfig)
  | .setPeerConfig ctx _ => some (ctx.admin, ctx.proxyConfig)
  | .setDelegate ctx _ => some (ctx.admin, ctx.proxyConfig)
  | .transferAdmin ctx _ => some (ctx.admin, ctx.proxyConfig)
  | _ => none

/-- The instruction comes from the admin of the configuration. -/
def Instruction.ByAdmin (P : Platform) (w : ProxyWorld) (i : Instruction) (config : ProxyConfig) :
    Prop :=
  ∃ a ∈ i.adminAccounts, loadConfigFor P w a.1 a.2 = .ok config

section ByAdmin

variable {P : Platform} {w : ProxyWorld} {i : Instruction} {config : ProxyConfig}

/-- The admin's account is one of the instruction. -/
theorem Instruction.mem_accounts_of_mem_adminAccounts {a : AccountInfo × AccountInfo}
    (h : a ∈ i.adminAccounts) : a.1 ∈ i.accounts := by
  cases i with
  | setBackwardFee | withdrawFee | setPause | setAccountList | setPeerConfig | setDelegate
    | transferAdmin =>
    obtain rfl := Option.some.inj h
    simp [accounts]
  | _ => cases h

/-- What comes from the admin is signed by the admin. -/
theorem Instruction.ByAdmin.signedBy (h : i.ByAdmin P w config) : i.SignedBy config.admin := by
  obtain ⟨a, ha, hload⟩ := h
  obtain ⟨hsigner, -, hadmin⟩ := loadConfigFor_eq_ok.mp hload
  exact ⟨a.1, mem_accounts_of_mem_adminAccounts ha, hsigner, hadmin.symm⟩

/-- The admin is the one of the configuration that is there. -/
theorem Instruction.ByAdmin.config_eq (h : i.ByAdmin P w config) (hw : WellPlaced P w)
    {k : Pubkey} {c : ProxyConfig} (hc : w.data k = some (.proxyConfig c)) : config = c := by
  obtain ⟨a, -, hload⟩ := h
  obtain ⟨-, hload, -⟩ := loadConfigFor_eq_ok.mp hload
  exact (hw.config_unique (loadConfig_eq_ok.mp hload).1 hc).2

end ByAdmin

/-- What an instruction does to the account at `k`. -/
inductive AccountChange (P : Platform) (env : Env) (w : ProxyWorld) (k : Pubkey) :
    Instruction → Option ProxyAccount → Option ProxyAccount → Prop
  | same {i : Instruction} {o : Option ProxyAccount} : AccountChange P env w k i o o
  | created {ctx : InitProxy} {params : InitProxyParams} {a : ProxyAccount} {bump : U8}
      (hnew : w.data ctx.proxyConfig.pubkey = none)
      (hfind : P.findProgramAddress proxyConfigSeeds = some (ctx.proxyConfig.pubkey, bump))
      (hclaim : ClaimData.kind.unwrap a = none) :
      AccountChange P env w k (.initProxy ctx params) none (some a)
  | submitted {ctx : SubmitProof} {params : SubmitProofParams} {config : ProxyConfig}
      {o : Option ProxyAccount} {d : ClaimData} (hkey : ctx.claimData.pubkey = k)
      (hconfig : loadConfig P w ctx.proxyConfig = .ok config) (hunpaused : config.paused = false)
      (hold : o = none ∨ ∃ d, o = some (.claimData d)) :
      AccountChange P env w k (.submitProof ctx params) o (some (.claimData d))
  | sent {ctx : SendClaim} {fee : MessagingFee} {config : ProxyConfig} {d : ClaimData}
      (hkey : ctx.claimData.pubkey = k) (hconfig : loadConfig P w ctx.proxyConfig = .ok config)
      (hunpaused : config.paused = false) :
      AccountChange P env w k (.sendClaim ctx fee) (some (.claimData d)) none
  | backwardFee {ctx : SetBackwardFee} {params : SetBackwardFeeParams} {config : ProxyConfig}
      {o : Option ProxyAccount} {bump : U8} (hkey : ctx.backwardFee.pubkey = k)
      (hadmin : Instruction.ByAdmin P w (.setBackwardFee ctx params) config)
      (hold : o = none ∨ ∃ f, o = some (.backwardFee f)) :
      AccountChange P env w k (.setBackwardFee ctx params) o
        (some (.backwardFee ⟨bump, params.orderBackwardFee, params.usdcBackwardFee⟩))
  | pointer {ctx : SetAccountList} {params : SetAccountListParams} {config : ProxyConfig}
      {t : LzReceiveTypesAccounts} (hkey : ctx.lzReceiveTypes.pubkey = k)
      (hadmin : Instruction.ByAdmin P w (.setAccountList ctx params) config) :
      AccountChange P env w k (.setAccountList ctx params) (some (.lzReceiveTypesAccounts t))
        (some (.lzReceiveTypesAccounts { t with accountList := ctx.accountList.pubkey }))
  | accountList {ctx : SetAccountList} {params : SetAccountListParams} {config : ProxyConfig}
      {o : Option ProxyAccount} {bump : U8} (hkey : ctx.accountList.pubkey = k)
      (hadmin : Instruction.ByAdmin P w (.setAccountList ctx params) config)
      (hold : o = none ∨ ∃ l, o = some (.accountList l)) :
      AccountChange P env w k (.setAccountList ctx params) o
        (some (.accountList ⟨bump, params.usdcTokenAccount⟩))
  | peer {ctx : SetPeerConfig} {params : SetPeerConfigParams} {config : ProxyConfig}
      {o : Option ProxyAccount} {p p' : PeerConfig} {bump : U8} (hkey : ctx.peerConfig.pubkey = k)
      (hadmin : Instruction.ByAdmin P w (.setPeerConfig ctx params) config)
      (hold : o = none ∧ p = PeerConfig.zero ∨ o = some (.peerConfig p))
      (hset : p.set P env ProxyError.invalidFee params.config = .ok p') :
      AccountChange P env w k (.setPeerConfig ctx params) o
        (some (.peerConfig { p' with bump := bump }))
  | pause {ctx : SetPause} {params : SetPauseParams} {config : ProxyConfig}
      (hadmin : Instruction.ByAdmin P w (.setPause ctx params) config) :
      AccountChange P env w k (.setPause ctx params) (some (.proxyConfig config))
        (some (.proxyConfig { config with paused := params.paused }))
  | admin {ctx : TransferAdmin} {params : TransferAdminParams} {config : ProxyConfig}
      (hadmin : Instruction.ByAdmin P w (.transferAdmin ctx params) config) :
      AccountChange P env w k (.transferAdmin ctx params) (some (.proxyConfig config))
        (some (.proxyConfig { config with admin := params.newAdmin }))

section Changes

variable {P : Platform} {env : Env} {w w' : ProxyWorld} {es : List ProxyEffect} {i : Instruction}

/-- Where no account changes, none does. -/
private theorem AccountChange.of_data_eq (h : w'.data = w.data) (k : Pubkey) :
    AccountChange P env w k i (w.data k) (w'.data k) := by
  rw [h]
  exact .same

/-- Where one account is written, it is enough to look there. -/
private theorem AccountChange.of_update {k₀ : Pubkey} {o : Option ProxyAccount}
    (h : w'.data = Function.update w.data k₀ o) (hchange : AccountChange P env w k₀ i (w.data k₀) o)
    (k : Pubkey) : AccountChange P env w k i (w.data k) (w'.data k) := by
  rw [h, Function.update_apply]
  split
  case isTrue hk => rwa [hk]
  case isFalse => exact .same

/-- **One instruction** changes an account in one of the ways of `AccountChange`. -/
theorem Instruction.accountChange (h : i.execute P env w = .ok (w', es)) (k : Pubkey) :
    AccountChange P env w k i (w.data k) (w'.data k) := by
  cases i with
  | sendRequest ctx params fee =>
    obtain ⟨receipt, hc⟩ := execute_sendRequest h
    obtain ⟨_, _, _, -, hdata, -⟩ := SendRequest.of_apply_eq_ok hc
    exact .of_data_eq hdata k
  | quoteRequest ctx params =>
    rw [(execute_quoteRequest h).1]
    exact .same
  | quoteClaim ctx =>
    rw [(execute_quoteClaim h).1]
    exact .same
  | lzReceive ctx params => exact .of_data_eq (LzReceive.data_of_apply h).1 k
  | lzReceiveTypes ctx params =>
    rw [(execute_lzReceiveTypes h).1]
    exact .same
  | submitProof ctx params =>
    obtain ⟨-, config, bump, hconfig, hunpaused, -, hold, hdata, -⟩ := SubmitProof.of_apply_eq_ok h
    exact .of_update hdata (.submitted rfl hconfig hunpaused hold) k
  | sendClaim ctx fee =>
    obtain ⟨receipt, hc⟩ := execute_sendClaim h
    obtain ⟨_, _, config, claim, _, _, hprep, hdata, -⟩ := SendClaim.of_apply_eq_ok hc
    obtain ⟨peer, fees, hprepared⟩ := SendClaim.of_prepare_eq_ok hprep
    obtain ⟨hclaim, -⟩ := loadClaimData_eq_ok.mp hprepared.claim_loaded
    refine .of_update hdata ?_ k
    rw [hclaim]
    exact .sent rfl hprepared.config_loaded hprepared.unpaused
  | initProxy ctx params =>
    obtain ⟨bump, bump', hfind, -, hnew, hnew', -, hdata, -⟩ := InitProxy.of_apply_eq_ok h
    -- two accounts are written, the delivery accounts last
    rw [hdata, Function.update_apply, Function.update_apply]
    split
    case isTrue hk =>
      rw [hk, hnew']
      exact .created hnew hfind rfl
    case isFalse =>
      split
      case isTrue hk =>
        rw [hk, hnew]
        exact .created hnew hfind rfl
      case isFalse => exact .same
  | setBackwardFee ctx params =>
    obtain ⟨⟨config, hconfig⟩, bump, -, hold, hdata, -⟩ := SetBackwardFee.of_apply_eq_ok h
    exact .of_update hdata (.backwardFee rfl ⟨_, rfl, hconfig⟩ hold) k
  | withdrawFee ctx params =>
    obtain ⟨_, -, hdata, -⟩ := WithdrawFee.of_apply_eq_ok h
    exact .of_data_eq hdata k
  | setPause ctx params =>
    obtain ⟨config, hconfig, hdata, -⟩ := SetPause.of_apply_eq_ok h
    obtain ⟨-, hload, -⟩ := loadConfigFor_eq_ok.mp hconfig
    refine .of_update hdata ?_ k
    rw [(loadConfig_eq_ok.mp hload).1]
    exact .pause ⟨_, rfl, hconfig⟩
  | setAccountList ctx params =>
    obtain ⟨config, t, b, bump, hconfig, ht, -, -, hold, hdata, -⟩ :=
      SetAccountList.of_apply_eq_ok h
    -- the list is written last, over the account that points to it
    rw [hdata, Function.update_apply, Function.update_apply]
    split
    case isTrue hk =>
      rw [hk]
      exact .accountList rfl ⟨_, rfl, hconfig⟩ hold
    case isFalse =>
      split
      case isTrue hk =>
        rw [hk, ht]
        exact .pointer rfl ⟨_, rfl, hconfig⟩
      case isFalse => exact .same
  | setPeerConfig ctx params =>
    obtain ⟨⟨config, hconfig⟩, bump, p, p', -, hold, hset, hdata, -⟩ :=
      SetPeerConfig.of_apply_eq_ok h
    exact .of_update hdata (.peer rfl ⟨_, rfl, hconfig⟩ hold hset) k
  | setDelegate ctx params =>
    obtain ⟨_, -, hdata, -⟩ := SetDelegate.of_apply_eq_ok h
    exact .of_data_eq hdata k
  | transferAdmin ctx params =>
    obtain ⟨config, hconfig, hdata, -⟩ := TransferAdmin.of_apply_eq_ok h
    obtain ⟨-, hload, -⟩ := loadConfigFor_eq_ok.mp hconfig
    refine .of_update hdata ?_ k
    rw [(loadConfig_eq_ok.mp hload).1]
    exact .admin ⟨_, rfl, hconfig⟩

/-- Only `submit_proof` and `send_claim` change a claim. -/
theorem AccountChange.claim_eq {k : Pubkey} {o o' : Option ProxyAccount}
    (h : AccountChange P env w k i o o') (hsubmit : ∀ ctx params, i ≠ .submitProof ctx params)
    (hsend : ∀ ctx fee, i ≠ .sendClaim ctx fee) :
    o'.bind ClaimData.kind.unwrap = o.bind ClaimData.kind.unwrap := by
  cases h with
  | same => rfl
  | created _ _ hclaim => exact hclaim
  | submitted => exact absurd rfl (hsubmit _ _)
  | sent => exact absurd rfl (hsend _ _)
  | backwardFee _ _ hold => rcases hold with rfl | ⟨f, rfl⟩ <;> rfl
  | accountList _ _ hold => rcases hold with rfl | ⟨l, rfl⟩ <;> rfl
  | peer _ _ hold => rcases hold with ⟨rfl, -⟩ | rfl <;> rfl
  | pointer | pause | admin => rfl

/-- After the set-up, tokens move with deliveries only. -/
theorem Instruction.tokens_of_execute (h : i.execute P env w = .ok (w', es))
    (hinit : ∀ ctx params, i ≠ .initProxy ctx params)
    (hreceive : ∀ ctx params, i ≠ .lzReceive ctx params) : w'.tokens = w.tokens := by
  cases i with
  | initProxy ctx params => exact absurd rfl (hinit ctx params)
  | lzReceive ctx params => exact absurd rfl (hreceive ctx params)
  | sendRequest ctx params fee =>
    obtain ⟨receipt, happly⟩ := execute_sendRequest h
    simp only [SendRequest.apply, Except.bind_eq_ok, Except.pure_eq_ok, Prod.mk.injEq] at happly
    obtain ⟨⟨config, fee', sent⟩, -, ⟨w₁, receipt'⟩, hsend, ⟨w₂, charged⟩, hcharge, rfl, -⟩ :=
      happly
    obtain ⟨lamports, -, hsent⟩ := endpointSend_eq_ok.mp hsend
    have htokens : w₂.tokens = w₁.tokens := tokens_of_chargeBackwardFee hcharge
    rw [htokens, hsent]
  | sendClaim ctx fee =>
    obtain ⟨receipt, happly⟩ := execute_sendClaim h
    simp only [SendClaim.apply, Except.bind_eq_ok, Except.pure_eq_ok, Prod.mk.injEq] at happly
    obtain ⟨⟨w₁, charged, config, claim, fee', sent⟩, hprep, ⟨w₂, receipt'⟩, hsend, rfl, -⟩ :=
      happly
    obtain ⟨peer, fees, hprepared⟩ := SendClaim.of_prepare_eq_ok hprep
    obtain ⟨lamports, -, rfl⟩ := endpointSend_eq_ok.mp hsend
    have htokens : w₁.tokens = w.tokens := tokens_of_chargeBackwardFee hprepared.charged
    exact htokens
  | quoteRequest ctx params => rw [(execute_quoteRequest h).1]
  | quoteClaim ctx => rw [(execute_quoteClaim h).1]
  | lzReceiveTypes ctx params => rw [(execute_lzReceiveTypes h).1]
  | submitProof ctx params => exact (SubmitProof.paidBy_of_apply h).tokens
  | setBackwardFee ctx params => exact (SetBackwardFee.paidBy_of_apply h).tokens
  | setAccountList ctx params => exact (SetAccountList.paidBy_of_apply h).tokens
  | setPeerConfig ctx params => exact (SetPeerConfig.paidBy_of_apply h).tokens
  | setPause ctx params => exact (SetPause.paidBy_of_apply h).tokens
  | transferAdmin ctx params => exact (TransferAdmin.paidBy_of_apply h).tokens
  | setDelegate ctx params =>
    have happly : ctx.apply P env w params = .ok (w', es) := h
    simp only [SetDelegate.apply, Except.bind_eq_ok, Except.pure_eq_ok, Prod.mk.injEq] at happly
    obtain ⟨_, -, w₁, hcall, rfl, -⟩ := happly
    obtain ⟨lamports, -, rfl⟩ := endpointCall_eq_ok.mp hcall
    rfl
  | withdrawFee ctx params =>
    obtain ⟨-, -, -, -, -, hpay, -⟩ := WithdrawFee.apply_eq_ok.mp h
    exact (World.data_of_transferLamports hpay).2.1

/-- What an instruction asks the endpoint to do for the program itself. -/
def Instruction.endpointCalls : Instruction → List EndpointCall
  | .initProxy _ params => [.registerOapp params.admin]
  | .setDelegate _ params => [.setDelegate params.delegate]
  | .lzReceive ctx params => [.clear (ctx.clearParams params)]
  | _ => []

/-- A charged fee is routine. -/
private theorem routine_of_charge {user config : Pubkey} {fee : U64}
    (h : chargeBackwardFee w user config fee = .ok (w', es)) : ∀ e ∈ es, e.Routine := by
  rcases chargeBackwardFee_eq_ok.mp h with ⟨-, -, rfl⟩ | ⟨-, -, rfl⟩ <;> simp [Effect.Routine]

/-- An instruction that asks for nothing has routine effects. -/
theorem Instruction.routine_of_execute (h : i.execute P env w = .ok (w', es))
    (hcalls : i.endpointCalls = []) : ∀ e ∈ es, e.Routine := by
  cases i with
  | initProxy | setDelegate | lzReceive => cases hcalls
  | sendRequest ctx params fee =>
    obtain ⟨receipt, happly⟩ := execute_sendRequest h
    simp only [SendRequest.apply, Except.bind_eq_ok, Except.pure_eq_ok, Prod.mk.injEq] at happly
    obtain ⟨_, -, _, -, ⟨w₁, charged⟩, hcharge, -, rfl, -⟩ := happly
    have hcharged := routine_of_charge hcharge
    simp only [List.forall_mem_append, List.forall_mem_cons]
    exact ⟨⟨trivial, hcharged⟩, trivial, List.forall_mem_nil _⟩
  | sendClaim ctx fee =>
    obtain ⟨receipt, happly⟩ := execute_sendClaim h
    simp only [SendClaim.apply, Except.bind_eq_ok, Except.pure_eq_ok, Prod.mk.injEq] at happly
    obtain ⟨⟨w₁, charged, _⟩, hprep, _, -, -, rfl, -⟩ := happly
    obtain ⟨peer, fees, hprepared⟩ := SendClaim.of_prepare_eq_ok hprep
    have hcharged := routine_of_charge hprepared.charged
    simp only [List.forall_mem_append, List.forall_mem_cons]
    exact ⟨hcharged, trivial, trivial, List.forall_mem_nil _⟩
  | quoteRequest ctx params =>
    simp only [execute, Except.bind_eq_ok, Except.pure_eq_ok, Prod.mk.injEq] at h
    obtain ⟨⟨es₁, fee⟩, hquote, -, rfl⟩ := h
    obtain ⟨_, _, _, _, -, -, -, rfl⟩ := QuoteRequest.of_apply_eq_ok hquote
    simp [Effect.Routine]
  | quoteClaim ctx =>
    simp only [execute, Except.bind_eq_ok, Except.pure_eq_ok, Prod.mk.injEq] at h
    obtain ⟨⟨es₁, fee⟩, hquote, -, rfl⟩ := h
    obtain ⟨_, _, _, _, -, -, -, rfl⟩ := QuoteClaim.of_apply_eq_ok hquote
    simp [Effect.Routine]
  | lzReceiveTypes ctx params =>
    simp only [execute, Except.bind_eq_ok, Except.pure_eq_ok, Prod.mk.injEq] at h
    obtain ⟨accounts, -, -, rfl⟩ := h
    exact List.forall_mem_nil _
  | submitProof ctx params =>
    obtain ⟨-, _, _, -, -, -, -, -, rfl⟩ := SubmitProof.of_apply_eq_ok h
    simp [Effect.Routine]
  | setBackwardFee ctx params =>
    obtain ⟨-, _, -, -, -, rfl⟩ := SetBackwardFee.of_apply_eq_ok h
    exact List.forall_mem_nil _
  | withdrawFee ctx params =>
    obtain ⟨_, -, -, rfl⟩ := WithdrawFee.of_apply_eq_ok h
    simp [Effect.Routine]
  | setPause ctx params =>
    obtain ⟨_, -, -, rfl⟩ := SetPause.of_apply_eq_ok h
    simp [Effect.Routine]
  | setAccountList ctx params =>
    obtain ⟨_, _, _, _, -, -, -, -, -, -, rfl⟩ := SetAccountList.of_apply_eq_ok h
    exact List.forall_mem_nil _
  | setPeerConfig ctx params =>
    obtain ⟨-, _, _, _, -, -, -, -, rfl⟩ := SetPeerConfig.of_apply_eq_ok h
    exact List.forall_mem_nil _
  | transferAdmin ctx params =>
    obtain ⟨_, -, -, rfl⟩ := TransferAdmin.of_apply_eq_ok h
    simp [Effect.Routine]

/-- **Calls to the endpoint** are those that the instruction says. -/
theorem Instruction.called_of_execute (h : i.execute P env w = .ok (w', es)) :
    es.filterMap Effect.called? = i.endpointCalls := by
  have hroutine := i.routine_of_execute h
  have hnone : (∀ e ∈ es, e.Routine) → es.filterMap Effect.called? = [] :=
    fun h => List.filterMap_eq_nil_iff.mpr fun e he => (h e he).none.1
  cases i with
  | initProxy ctx params =>
    obtain ⟨_, _, -, -, -, -, -, -, rfl⟩ := InitProxy.of_apply_eq_ok h
    rfl
  | setDelegate ctx params =>
    obtain ⟨_, -, -, rfl⟩ := SetDelegate.of_apply_eq_ok h
    rfl
  | lzReceive ctx params =>
    obtain ⟨tr⟩ := LzReceive.nonempty_trace h
    rw [tr.effects_eq]
    rfl
  | _ => exact hnone (hroutine rfl)

/-- Tokens are transferred by deliveries only. -/
theorem Instruction.transferred_of_execute (h : i.execute P env w = .ok (w', es))
    (hreceive : ∀ ctx params, i ≠ .lzReceive ctx params) :
    es.filterMap Effect.transferred? = [] := by
  have hroutine := i.routine_of_execute h
  have hnone : (∀ e ∈ es, e.Routine) → es.filterMap Effect.transferred? = [] :=
    fun h => List.filterMap_eq_nil_iff.mpr fun e he => (h e he).none.2
  cases i with
  | initProxy ctx params =>
    obtain ⟨_, _, -, -, -, -, -, -, rfl⟩ := InitProxy.of_apply_eq_ok h
    rfl
  | setDelegate ctx params =>
    obtain ⟨_, -, -, rfl⟩ := SetDelegate.of_apply_eq_ok h
    rfl
  | lzReceive ctx params => exact absurd rfl (hreceive ctx params)
  | _ => exact hnone (hroutine rfl)

end Changes

/-! ### The configuration -/

/-- Two configurations that differ in the admin and in the pause only. -/
structure ProxyConfig.SameSetup (c c' : ProxyConfig) : Prop where
  bump : c'.bump = c.bump
  endpointProgram : c'.endpointProgram = c.endpointProgram
  usdcTokenAccount : c'.usdcTokenAccount = c.usdcTokenAccount
  orderlyEid : c'.orderlyEid = c.orderlyEid
  solChainId : c'.solChainId = c.solChainId

namespace ProxyConfig.SameSetup

theorem refl (c : ProxyConfig) : c.SameSetup c := ⟨rfl, rfl, rfl, rfl, rfl⟩

theorem trans {c c' c'' : ProxyConfig} (h : c.SameSetup c') (h' : c'.SameSetup c'') :
    c.SameSetup c'' where
  bump := h'.bump.trans h.bump
  endpointProgram := h'.endpointProgram.trans h.endpointProgram
  usdcTokenAccount := h'.usdcTokenAccount.trans h.usdcTokenAccount
  orderlyEid := h'.orderlyEid.trans h.orderlyEid
  solChainId := h'.solChainId.trans h.solChainId

end ProxyConfig.SameSetup

/-- What an instruction does to the configuration: nothing, or its admin pauses, unpauses or hands
over. -/
inductive ConfigChange (P : Platform) (w : ProxyWorld) :
    Instruction → ProxyConfig → ProxyConfig → Prop
  | same {i : Instruction} {c : ProxyConfig} : ConfigChange P w i c c
  | pause {ctx : SetPause} {params : SetPauseParams} {c : ProxyConfig}
      (hadmin : Instruction.ByAdmin P w (.setPause ctx params) c) :
      ConfigChange P w (.setPause ctx params) c { c with paused := params.paused }
  | admin {ctx : TransferAdmin} {params : TransferAdminParams} {c : ProxyConfig}
      (hadmin : Instruction.ByAdmin P w (.transferAdmin ctx params) c) :
      ConfigChange P w (.transferAdmin ctx params) c { c with admin := params.newAdmin }

section Config

variable {P : Platform} {env : Env} {w : ProxyWorld} {i : Instruction} {k : Pubkey}
  {c c' : ProxyConfig}

theorem ConfigChange.sameSetup (h : ConfigChange P w i c c') : c.SameSetup c' := by
  cases h <;> exact ⟨rfl, rfl, rfl, rfl, rfl⟩

/-- A configuration stays a configuration. -/
theorem AccountChange.configChange {o : Option ProxyAccount}
    (h : AccountChange P env w k i (some (.proxyConfig c)) o) :
    ∃ c', o = some (.proxyConfig c') ∧ ConfigChange P w i c c' := by
  cases h with
  | same => exact ⟨c, rfl, .same⟩
  | pause hadmin => exact ⟨_, rfl, .pause hadmin⟩
  | admin hadmin => exact ⟨_, rfl, .admin hadmin⟩
  | submitted _ _ _ hold => rcases hold with hold | ⟨d, hold⟩ <;> cases hold
  | backwardFee _ _ hold => rcases hold with hold | ⟨d, hold⟩ <;> cases hold
  | accountList _ _ hold => rcases hold with hold | ⟨d, hold⟩ <;> cases hold
  | peer _ _ hold _ => rcases hold with ⟨hold, -⟩ | hold <;> cases hold

/-- There is a configuration with the given setup at `k`. -/
def Configured {P : Platform} (k : Pubkey) (c : ProxyConfig) (s : ProxyState P) : Prop :=
  ∃ c', s.world.data k = some (.proxyConfig c') ∧ c.SameSetup c'

/-- **The setup** of the proxy stays. -/
theorem Configured.step {s s' : ProxyState P} {i : Input} {es : List ProxyEffect}
    (hs : Configured k c s) (h : step P s i = .ok (s', es)) : Configured k c s' := by
  obtain ⟨c₁, hc₁, hsetup⟩ := hs
  cases i with
  | outside lamports tokens mints =>
    obtain ⟨rfl, -⟩ := Prod.mk.inj (Except.ok.inj h)
    exact ⟨c₁, hc₁, hsetup⟩
  | call env i =>
    have hchange := i.accountChange (step_call_eq_ok.mp h) k
    rw [hc₁] at hchange
    obtain ⟨c₂, hc₂, hconfig⟩ := hchange.configChange
    exact ⟨c₂, hc₂, hsetup.trans hconfig.sameSetup⟩

/-- Once there is a configuration, there is no other set-up. -/
theorem Configured.not_initProxy {s : ProxyState P} {w' : ProxyWorld} {es : List ProxyEffect}
    (hs : Configured k c s) (h : i.execute P env s.world = .ok (w', es)) (ctx : InitProxy)
    (params : InitProxyParams) : i ≠ .initProxy ctx params := by
  rintro rfl
  obtain ⟨c', hc', -⟩ := hs
  obtain ⟨bump, -, hfind, -, hnew, -⟩ := InitProxy.of_apply_eq_ok h
  exact s.placed.ne_none_of_find hc' hfind hnew

/-- After its set-up the proxy is configured with the parameters of the set-up. -/
theorem configured_of_init {s s' : ProxyState P} {ctx : InitProxy} {params : InitProxyParams}
    {es : List ProxyEffect}
    (h : Proxy.step P s (.call env (.initProxy ctx params)) = .ok (s', es)) :
    ∃ bump, P.findProgramAddress proxyConfigSeeds = some (ctx.proxyConfig.pubkey, bump) ∧
      s'.world.data ctx.proxyConfig.pubkey = some (.proxyConfig (params.config bump)) := by
  obtain ⟨bump, bump', hfind, -, -, -, hne, hdata, -⟩ :=
    InitProxy.of_apply_eq_ok (step_call_eq_ok.mp h)
  refine ⟨bump, hfind, ?_⟩
  rw [hdata, Function.update_of_ne hne.symm, Function.update_self]

end Config

end Proxy
