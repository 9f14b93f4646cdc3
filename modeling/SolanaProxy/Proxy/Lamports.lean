import SolanaProxy.Proxy.Changes
import SolanaProxy.Proxy.Quote

/-!
# The lamports of the configuration account

Backward fees are paid into the configuration account by two instructions and taken out by a
third. One law says what each instruction does to the lamports there (`lamports_call`): it adds
what the endpoint adds and the backward fee of the table stored at that moment, and it takes out
what is withdrawn. Over a run these are the books of the account, and since a withdrawal leaves
the rent, the account never falls below it (`lamports_accounted`).
-/

namespace Proxy

open Solana Machine

/-- The table of backward fees that is stored. -/
def storedFees (P : Platform) (w : ProxyWorld) : Option BackwardFee := do
  let (k, _) ← P.findProgramAddress backwardFeeSeeds
  w.load BackwardFee.kind k

namespace Instruction

/-- The backward fee an instruction collects under the stored table. -/
def collected (P : Platform) (w : ProxyWorld) : Instruction → ℕ
  | sendRequest _ params _ => (storedFees P w).elim 0 fun fees =>
    (SendRequest.requiredFee fees (PayloadType.fromU8 params.payloadType)).toNat
  | sendClaim _ _ => (storedFees P w).elim 0 fun fees => fees.orderBackwardFee.toNat
  | _ => 0

/-- What an instruction withdraws from the account at `k`. To withdraw to the account itself
changes nothing. -/
def withdrawn (k : Pubkey) : Instruction → ℕ
  | withdrawFee ctx params => if ctx.feeCollector.pubkey = k then 0 else params.amount.toNat
  | _ => 0

/-- The lamports that an instruction hands to the endpoint, and those that it gets back. -/
def answered (P : Platform) (env : Env) (w : ProxyWorld) :
    Instruction → Option ((Pubkey → ℕ) × (Pubkey → ℕ))
  | sendRequest ctx params fee => do
    let (config, _, sent) ← (ctx.prepare P w params fee).toOption
    let (_, lamports) ← env.endpoint.send config.endpointProgram ctx.proxyConfig.pubkey
      ctx.remainingAccounts sent w.lamports
    return (w.lamports, lamports)
  | sendClaim ctx fee => do
    let (w, _, config, _, _, sent) ← (ctx.prepare P w fee).toOption
    let (_, lamports) ← env.endpoint.send config.endpointProgram ctx.proxyConfig.pubkey
      ctx.remainingAccounts sent w.lamports
    return (w.lamports, lamports)
  | lzReceive ctx params => do
    let (w, config) ← (ctx.tryAccounts P w params).toOption
    let lamports ← env.endpoint.call config.endpointProgram ctx.proxyConfig.pubkey
      (ctx.remainingAccounts.take P.clearMinAccountsLen) (.clear (ctx.clearParams params))
      w.lamports
    return (w.lamports, lamports)
  | setDelegate ctx params => do
    let config ← (loadConfigFor P w ctx.admin ctx.proxyConfig).toOption
    let lamports ← env.endpoint.call config.endpointProgram ctx.proxyConfig.pubkey
      ctx.remainingAccounts (.setDelegate params.delegate) w.lamports
    return (w.lamports, lamports)
  | _ => none

/-- What the endpoint adds to the account at `k`. -/
def credited (P : Platform) (env : Env) (w : ProxyWorld) (k : Pubkey) (i : Instruction) : ℕ :=
  (i.answered P env w).elim 0 fun lamports => lamports.2 k - lamports.1 k

end Instruction

/-- What the runtime grants about the account of the program at `k`: it signs no transaction, and
nobody else takes lamports from it. -/
def Permitted {P : Platform} (k : Pubkey) (s : ProxyState P) : Input → Prop
  | .call env i =>
    env.endpoint.NoDebit k ∧ ∀ a ∈ i.accounts, a.isSigner = true → a.pubkey ≠ k
  | .outside lamports _ _ => s.world.lamports k ≤ lamports k

/-! ### One instruction -/

section Call

variable {P : Platform} {env : Env} {w w' : ProxyWorld} {es : List ProxyEffect} {k : Pubkey}
  {c : ProxyConfig}

/-- The table of backward fees that is loaded is the one that is stored. -/
theorem storedFees_eq (hw : WellPlaced P w) {a : AccountInfo} {fees : BackwardFee}
    (h : loadBackwardFee P w a = .ok fees) : storedFees P w = some fees := by
  obtain ⟨hdata, -⟩ := loadBackwardFee_eq_ok.mp h
  have hfind : P.findProgramAddress backwardFeeSeeds = some (a.pubkey, fees.bump) := hw _ _ hdata
  rw [storedFees, hfind]
  exact World.load_eq_some.mpr hdata

/-- No token account is where the configuration is: the addresses have seeds of different
lengths. -/
theorem associatedTokenAddress_ne (hP : P.DeriveInjective) (hw : WellPlaced P w)
    (hc : w.data k = some (.proxyConfig c)) {wallet mint tokenProgram a : Pubkey}
    (h : P.associatedTokenAddress wallet mint tokenProgram = some a) : a ≠ k := by
  rintro rfl
  obtain ⟨⟨a', b⟩, hfind, rfl⟩ := Option.map_eq_some_iff.mp h
  have hconfig : P.findProgramAddress proxyConfigSeeds = some (a', c.bump) := hw _ _ hc
  have hseeds := (hP (Platform.derive_of_findAddress hfind)
    (Platform.createProgramAddress_of_find hconfig)).1
  have hlength := congrArg List.length hseeds
  simp [proxyConfigSeeds, ascii] at hlength

/-- What the endpoint adds, when it takes nothing. -/
private theorem credited_eq {i : Instruction} {lamports lamports' : Pubkey → ℕ}
    (h : i.answered P env w = some (lamports, lamports')) (hle : lamports k ≤ lamports' k) :
    lamports' k = lamports k + i.credited P env w k := by
  rw [Instruction.credited, h]
  exact (Nat.add_sub_cancel' hle).symm

/-- A request adds its fee. -/
private theorem lamports_sendRequest (hw : WellPlaced P w)
    (hc : w.data k = some (.proxyConfig c)) {ctx : SendRequest} {params : RequestParams}
    {fee : MessagingFee} {receipt : MessagingReceipt} (hdebit : env.endpoint.NoDebit k)
    (huser : ctx.user.pubkey ≠ k) (h : ctx.apply P env w params fee = .ok (w', es, receipt)) :
    w'.lamports k = w.lamports k + ((Instruction.sendRequest ctx params fee).credited P env w k +
      (Instruction.sendRequest ctx params fee).collected P w) := by
  obtain ⟨config, charge, sent, hprep, -, -, -, lamports, hanswer, hmoved⟩ :=
    SendRequest.of_apply_eq_ok h
  obtain ⟨peer, fees, hprepared⟩ := SendRequest.prepare_eq_ok.mp hprep
  obtain ⟨hkey, -⟩ := hw.config_unique (loadConfig_eq_ok.mp hprepared.config_loaded).1 hc
  have hanswered : (Instruction.sendRequest ctx params fee).answered P env w =
      some (w.lamports, lamports) := by
    simp only [Instruction.answered, Except.toOption_eq_some.mpr hprep, Option.bind_eq_bind,
      Option.bind_some, hanswer, Option.pure_def]
  have hcredit := credited_eq hanswered (hdebit.send _ _ _ _ _ _ _ hanswer)
  have hcollected : (Instruction.sendRequest ctx params fee).collected P w = charge.toNat := by
    rw [Instruction.collected, storedFees_eq hw hprepared.fees_loaded, hprepared.fee_eq]
    rfl
  have hbalance := hmoved.balance k
  rw [if_neg huser.symm, if_pos hkey.symm] at hbalance
  omega

/-- A claim adds the fee of an order. -/
private theorem lamports_sendClaim (hw : WellPlaced P w) (hc : w.data k = some (.proxyConfig c))
    {ctx : SendClaim} {fee : MessagingFee} {receipt : MessagingReceipt}
    (hdebit : env.endpoint.NoDebit k) (huser : ctx.user.pubkey ≠ k)
    (h : ctx.apply P env w fee = .ok (w', es, receipt)) :
    w'.lamports k = w.lamports k + ((Instruction.sendClaim ctx fee).credited P env w k +
      (Instruction.sendClaim ctx fee).collected P w) := by
  obtain ⟨w₁, charged, config, claim, charge, sent, hprep, -, -, -, hcharged, lamports, hanswer,
    hclosed⟩ := SendClaim.of_apply_eq_ok h
  obtain ⟨peer, fees, hprepared⟩ := SendClaim.of_prepare_eq_ok hprep
  obtain ⟨hkey, -⟩ := hw.config_unique (loadConfig_eq_ok.mp hprepared.config_loaded).1 hc
  have hanswered : (Instruction.sendClaim ctx fee).answered P env w =
      some (w₁.lamports, lamports) := by
    simp only [Instruction.answered, Except.toOption_eq_some.mpr hprep, Option.bind_eq_bind,
      Option.bind_some, hanswer, Option.pure_def]
  have hcredit := credited_eq hanswered (hdebit.send _ _ _ _ _ _ _ hanswer)
  have hcollected : (Instruction.sendClaim ctx fee).collected P w = charge.toNat := by
    rw [Instruction.collected, storedFees_eq hw hprepared.fees_loaded, hprepared.fee_eq]
    rfl
  -- the claim is closed to the user, so its rent does not pass through the configuration
  have hclaim : ctx.claimData.pubkey ≠ k := by
    intro hclaim
    rw [← hclaim, (loadClaimData_eq_ok.mp hprepared.claim_loaded).1] at hc
    cases hc
  have hbalance := hcharged.balance k
  have hkept := hclosed.balance k
  rw [if_neg huser.symm, if_pos hkey.symm] at hbalance
  rw [if_neg hclaim.symm, if_neg huser.symm] at hkept
  omega

/-- A delivery adds what the endpoint adds. -/
private theorem lamports_lzReceive (hP : P.DeriveInjective) (hw : WellPlaced P w)
    (hc : w.data k = some (.proxyConfig c)) {ctx : LzReceive} {params : LzReceiveParams}
    (hdebit : env.endpoint.NoDebit k) (hpayer : ctx.payer.pubkey ≠ k)
    (h : ctx.apply P env w params = .ok (w', es)) :
    w'.lamports k = w.lamports k + (Instruction.lzReceive ctx params).credited P env w k := by
  obtain ⟨tr⟩ := LzReceive.nonempty_trace h
  obtain ⟨lamports, hanswer, hcleared⟩ := endpointCall_eq_ok.mp tr.clear_ok
  have hanswered : (Instruction.lzReceive ctx params).answered P env w =
      some (tr.loaded.lamports, lamports) := by
    have haccounts := LzReceive.tryAccounts_eq_ok.mpr tr.accounts
    simp only [Instruction.answered, Except.toOption_eq_some.mpr haccounts, Option.bind_eq_bind,
      Option.bind_some, hanswer, Option.pure_def]
  have hcredit := credited_eq hanswered (hdebit.call _ _ _ _ _ _ hanswer)
  obtain ⟨-, haddress, -⟩ := initAssociatedIfNeeded_eq_ok.mp tr.accounts.receiver_created
  have hloaded := lamports_of_initAssociatedIfNeeded tr.accounts.receiver_created hpayer
    (associatedTokenAddress_ne hP hw hc haddress)
  obtain ⟨-, hlamports, -⟩ := World.frame_of_transferTokens tr.transfer_eq
  rw [hlamports, hcleared, ← hloaded]
  exact hcredit

/-- **One instruction.** The configuration account gains what the endpoint adds and the backward
fee collected, and it loses what is withdrawn. -/
theorem lamports_call (hP : P.DeriveInjective) (hw : WellPlaced P w)
    (hc : w.data k = some (.proxyConfig c)) {i : Instruction} (hdebit : env.endpoint.NoDebit k)
    (hsigners : ∀ a ∈ i.accounts, a.isSigner = true → a.pubkey ≠ k)
    (h : i.execute P env w = .ok (w', es)) :
    w'.lamports k + i.withdrawn k = w.lamports k + (i.credited P env w k + i.collected P w) := by
  have hexists : w.data k ≠ none := by
    rw [hc]
    exact Option.some_ne_none _
  -- an admin instruction names the one configuration there is, and its admin signed
  have hadmin : ∀ a ∈ i.adminAccounts, ∀ config, loadConfigFor P w a.1 a.2 = .ok config →
      a.1.pubkey ≠ k ∧ a.2.pubkey = k := by
    intro a ha config hconfig
    obtain ⟨hsigner, hload, -⟩ := loadConfigFor_eq_ok.mp hconfig
    exact ⟨hsigners _ (Instruction.mem_accounts_of_mem_adminAccounts ha) hsigner,
      (hw.config_unique (loadConfig_eq_ok.mp hload).1 hc).1⟩
  cases i with
  | sendRequest ctx params fee =>
    obtain ⟨receipt, happly⟩ := Instruction.execute_sendRequest h
    obtain ⟨_, _, _, hprep, -⟩ := SendRequest.of_apply_eq_ok happly
    obtain ⟨peer, fees, hprepared⟩ := SendRequest.prepare_eq_ok.mp hprep
    have huser : ctx.user.pubkey ≠ k :=
      hsigners _ (by simp [Instruction.accounts]) hprepared.user_signed
    exact lamports_sendRequest hw hc hdebit huser happly
  | sendClaim ctx fee =>
    obtain ⟨receipt, happly⟩ := Instruction.execute_sendClaim h
    obtain ⟨_, _, _, _, _, _, hprep, -⟩ := SendClaim.of_apply_eq_ok happly
    obtain ⟨peer, fees, hprepared⟩ := SendClaim.of_prepare_eq_ok hprep
    have huser : ctx.user.pubkey ≠ k :=
      hsigners _ (by simp [Instruction.accounts]) hprepared.user_signed
    exact lamports_sendClaim hw hc hdebit huser happly
  | lzReceive ctx params =>
    obtain ⟨tr⟩ := LzReceive.nonempty_trace h
    have hpayer : ctx.payer.pubkey ≠ k :=
      hsigners _ (by simp [Instruction.accounts, LzReceive.toList]) tr.accounts.payer_signed
    exact lamports_lzReceive hP hw hc hdebit hpayer h
  | quoteRequest ctx params => rw [(Instruction.execute_quoteRequest h).1]; rfl
  | quoteClaim ctx => rw [(Instruction.execute_quoteClaim h).1]; rfl
  | lzReceiveTypes ctx params => rw [(Instruction.execute_lzReceiveTypes h).1]; rfl
  | submitProof ctx params =>
    obtain ⟨hsigner, -⟩ := SubmitProof.of_apply_eq_ok h
    have huser : ctx.user.pubkey ≠ k := hsigners _ (by simp [Instruction.accounts]) hsigner
    exact (SubmitProof.paidBy_of_apply h).lamports k huser hexists
  | initProxy ctx params =>
    obtain ⟨bump, bump', hfind, -, hnew, -⟩ := InitProxy.of_apply_eq_ok h
    exact absurd hnew (hw.ne_none_of_find hc hfind)
  | setBackwardFee ctx params =>
    obtain ⟨⟨_, hconfig⟩, -⟩ := SetBackwardFee.of_apply_eq_ok h
    exact (SetBackwardFee.paidBy_of_apply h).lamports k (hadmin _ rfl _ hconfig).1 hexists
  | setAccountList ctx params =>
    obtain ⟨_, _, _, _, hconfig, -⟩ := SetAccountList.of_apply_eq_ok h
    exact (SetAccountList.paidBy_of_apply h).lamports k (hadmin _ rfl _ hconfig).1 hexists
  | setPeerConfig ctx params =>
    obtain ⟨⟨_, hconfig⟩, -⟩ := SetPeerConfig.of_apply_eq_ok h
    exact (SetPeerConfig.paidBy_of_apply h).lamports k (hadmin _ rfl _ hconfig).1 hexists
  | setPause ctx params =>
    obtain ⟨_, hconfig, -⟩ := SetPause.of_apply_eq_ok h
    exact (SetPause.paidBy_of_apply h).lamports k (hadmin _ rfl _ hconfig).1 hexists
  | transferAdmin ctx params =>
    obtain ⟨_, hconfig, -⟩ := TransferAdmin.of_apply_eq_ok h
    exact (TransferAdmin.paidBy_of_apply h).lamports k (hadmin _ rfl _ hconfig).1 hexists
  | setDelegate ctx params =>
    have happly : ctx.apply P env w params = .ok (w', es) := h
    simp only [SetDelegate.apply, Except.bind_eq_ok, Except.pure_eq_ok, Prod.mk.injEq] at happly
    obtain ⟨config, hconfig, w₁, hcall, rfl, -⟩ := happly
    obtain ⟨lamports, hanswer, rfl⟩ := endpointCall_eq_ok.mp hcall
    have hanswered : (Instruction.setDelegate ctx params).answered P env w =
        some (w.lamports, lamports) := by
      simp only [Instruction.answered, Except.toOption_eq_some.mpr hconfig, Option.bind_eq_bind,
        Option.bind_some, hanswer, Option.pure_def]
    exact credited_eq hanswered (hdebit.call _ _ _ _ _ _ hanswer)
  | withdrawFee ctx params =>
    obtain ⟨⟨config, hconfig⟩, -, -, -, -, hpay, -⟩ := WithdrawFee.apply_eq_ok.mp h
    obtain ⟨-, hkey⟩ := hadmin _ rfl _ hconfig
    rw [hkey] at hpay
    -- a withdrawal to the configuration itself takes nothing
    rw [Instruction.withdrawn]
    split
    case isTrue hself =>
      rw [hself] at hpay
      exact World.lamports_self_of_transferLamports hpay
    case isFalse hother => exact World.lamports_src_of_transferLamports hpay (Ne.symm hother)

end Call

/-! ### Runs -/

section Runs

variable {P : Platform} {s : ProxyState P} {k : Pubkey} {c : ProxyConfig} {is : List Input}

/-- What a step collects. -/
def collectedIn : ProxyState P × Input × List ProxyEffect → ℕ
  | (s, .call _ i, _) => i.collected P s.world
  | _ => 0

/-- What a step withdraws. -/
def withdrawnIn (k : Pubkey) : ProxyState P × Input × List ProxyEffect → ℕ
  | (_, .call _ i, _) => i.withdrawn k
  | _ => 0

/-- What is deposited in a step from outside the program: by the endpoint it calls, or by anybody
between the calls. -/
def depositedIn (k : Pubkey) : ProxyState P × Input × List ProxyEffect → ℕ
  | (s, .call env i, _) => i.credited P env s.world k
  | (s, .outside lamports _ _, _) => lamports k - s.world.lamports k

/-- The lamports that keep the configuration account alive. -/
def configRent (P : Platform) : ℕ := P.minimumBalance (8 + ProxyConfig.initSpace)

/-- **One step** moves the lamports of the configuration account by what it deposits, collects
and withdraws. -/
theorem lamports_step (hP : P.DeriveInjective) (hs : Configured k c s) {i : Input}
    (hpermitted : Permitted k s i) {s' : ProxyState P} {es : List ProxyEffect}
    (h : step P s i = .ok (s', es)) :
    s'.world.lamports k + withdrawnIn k (s, i, es) =
      s.world.lamports k + (depositedIn k (s, i, es) + collectedIn (s, i, es)) := by
  obtain ⟨c', hc', -⟩ := hs
  cases i with
  | call env i =>
    obtain ⟨hdebit, hsigners⟩ := hpermitted
    exact lamports_call hP s.placed hc' hdebit hsigners (step_call_eq_ok.mp h)
  | outside lamports tokens mints =>
    obtain ⟨rfl, -⟩ := Prod.mk.inj (Except.ok.inj h)
    exact (Nat.add_sub_cancel' hpermitted).symm

/-- A step leaves the rent where it is. -/
theorem configRent_le_step (hP : P.DeriveInjective) (hs : Configured k c s)
    (hrent : configRent P ≤ s.world.lamports k) {i : Input} (hpermitted : Permitted k s i)
    {s' : ProxyState P} {es : List ProxyEffect} (h : step P s i = .ok (s', es)) :
    configRent P ≤ s'.world.lamports k := by
  have hstep := lamports_step hP hs hpermitted h
  have hwithdrawn : withdrawnIn k (s, i, es) ≤ s.world.lamports k - configRent P := by
    cases i with
    | outside lamports tokens mints => exact Nat.zero_le _
    | call env i =>
      cases i with
      | withdrawFee ctx params =>
        obtain ⟨c', hc', -⟩ := hs
        obtain ⟨⟨config, hconfig⟩, -, -, -, hle, -⟩ := WithdrawFee.apply_eq_ok.mp
          (step_call_eq_ok.mp h)
        obtain ⟨-, hload, -⟩ := loadConfigFor_eq_ok.mp hconfig
        obtain ⟨hkey, -⟩ := s.placed.config_unique (loadConfig_eq_ok.mp hload).1 hc'
        rw [hkey] at hle
        rw [withdrawnIn, Instruction.withdrawn]
        split
        · exact Nat.zero_le _
        · exact hle
      | _ => exact Nat.zero_le _
  omega

/-- **Set-up** pays the rent. -/
theorem configRent_le_init {s₀ : ProxyState P} {env : Env} {ctx : InitProxy}
    {params : InitProxyParams} {es : List ProxyEffect} (hP : P.DeriveInjective)
    (hpermitted : Permitted ctx.proxyConfig.pubkey s₀ (.call env (.initProxy ctx params)))
    (h : step P s₀ (.call env (.initProxy ctx params)) = .ok (s, es)) :
    configRent P ≤ s.world.lamports ctx.proxyConfig.pubkey := by
  obtain ⟨hdebit, hsigners⟩ := hpermitted
  obtain ⟨_, _, _, _, _, _, hne, -⟩ := InitProxy.of_apply_eq_ok (step_call_eq_ok.mp h)
  have happly : ctx.apply P env s₀.world params = .ok (s.world, es) := step_call_eq_ok.mp h
  simp only [InitProxy.apply, signer, Except.bind_eq_ok, Except.require_eq_ok, Except.pure_eq_ok,
    Prod.mk.injEq] at happly
  obtain ⟨-, hsigner, -, -, -, -, m, -, -, -, -, -, ⟨w₁, bump⟩, hcfg, ⟨w₂, bump'⟩, hlz, w₃, hata,
    w₄, hcall, hw, -⟩ := happly
  have hpayer : ctx.payer.pubkey ≠ ctx.proxyConfig.pubkey :=
    hsigners _ (by simp [Instruction.accounts]) hsigner
  -- the rent is paid with the first account, and what follows pays elsewhere
  obtain ⟨bump₀, -, hconfig⟩ := configured_of_init h
  obtain ⟨-, haddress, -⟩ := initAssociatedIfNeeded_eq_ok.mp hata
  have hrent : configRent P ≤ w₁.lamports ctx.proxyConfig.pubkey :=
    minimumBalance_le_of_init hcfg hpayer
  have hlz' : w₂.lamports ctx.proxyConfig.pubkey = w₁.lamports ctx.proxyConfig.pubkey :=
    lamports_of_init hlz hpayer hne
  have hata' : w₃.lamports ctx.proxyConfig.pubkey = w₂.lamports ctx.proxyConfig.pubkey :=
    lamports_of_initAssociatedIfNeeded hata hpayer
      (associatedTokenAddress_ne hP s.placed hconfig haddress)
  obtain ⟨lamports, hanswer, rfl⟩ := endpointCall_eq_ok.mp hcall
  have hcalled : w₃.lamports ctx.proxyConfig.pubkey ≤ lamports ctx.proxyConfig.pubkey :=
    hdebit.call _ _ _ _ _ _ hanswer
  rw [← hw]
  show configRent P ≤ lamports ctx.proxyConfig.pubkey
  omega

/-- A withdrawal that the admin asks for, to another account. -/
structure WithdrawFee.Asked (s : ProxyState P) (k : Pubkey) (ctx : WithdrawFee) : Prop where
  admin_signed : ctx.admin.isSigner = true
  is_admin : ∃ c, s.world.data k = some (.proxyConfig c) ∧ c.admin = ctx.admin.pubkey
  config_eq : ctx.proxyConfig.pubkey = k
  config_writable : ctx.proxyConfig.isWritable = true
  collector_writable : ctx.feeCollector.isWritable = true
  collector_ne : ctx.feeCollector.pubkey ≠ k

/-- What a withdrawal that is asked for does: it succeeds exactly when the account has the amount
above its rent, and then the amount is gone; it never panics, and nothing changes when it fails. -/
structure WithdrawFee.Exact (s : ProxyState P) (env : Env) (ctx : WithdrawFee)
    (params : WithdrawFeeParams) (k : Pubkey) : Prop where
  succeeds_iff : (∃ r, step P s (.call env (.withdrawFee ctx params)) = .ok r) ↔
    params.amount.toNat ≤ s.world.lamports k - configRent P
  taken : ∀ s' es, step P s (.call env (.withdrawFee ctx params)) = .ok (s', es) →
    s'.world.lamports k + params.amount.toNat = s.world.lamports k ∧
      s'.world.lamports ctx.feeCollector.pubkey =
        s.world.lamports ctx.feeCollector.pubkey + params.amount.toNat
  no_panic : step P s (.call env (.withdrawFee ctx params)) ≠ .error .panic
  unchanged : ∀ e, step P s (.call env (.withdrawFee ctx params)) = .error e →
    run (step P) s [.call env (.withdrawFee ctx params)] = s

/-- A withdrawal of what is above the rent goes through, and a larger one is refused. -/
theorem WithdrawFee.Asked.apply_cases {ctx : WithdrawFee} (h : ctx.Asked s k)
    (hrent : configRent P ≤ s.world.lamports k) (params : WithdrawFeeParams) :
    (params.amount.toNat ≤ s.world.lamports k - configRent P ∧
      ∃ r, ctx.apply P s.world params = .ok r) ∨
    (s.world.lamports k - configRent P < params.amount.toNat ∧
      ctx.apply P s.world params = .error (.program .insufficientBalance)) := by
  obtain ⟨hsigner, ⟨c, hc, hadmin⟩, rfl, hmut, hcmut, hne⟩ := h
  have hload : loadConfigFor P s.world ctx.admin ctx.proxyConfig = .ok c :=
    loadConfigFor_eq_ok.mpr ⟨hsigner, loadConfig_eq_ok.mpr
      ⟨hc, Platform.createProgramAddress_of_find (s.placed _ _ hc)⟩, hadmin⟩
  by_cases hle : params.amount.toNat ≤ s.world.lamports ctx.proxyConfig.pubkey - configRent P
  · have hcovered : params.amount.toNat ≤ s.world.lamports ctx.proxyConfig.pubkey := by omega
    exact Or.inl ⟨hle, _, WithdrawFee.apply_eq_ok.mpr ⟨⟨c, hload⟩, hmut, hcmut, hrent, hle,
      World.transferLamports_eq_some.mpr ⟨hcovered, rfl⟩, rfl⟩⟩
  · refine Or.inr ⟨by omega, ?_⟩
    have hrent' : P.minimumBalance (8 + ProxyConfig.initSpace) ≤
        s.world.lamports ctx.proxyConfig.pubkey := hrent
    have hlt : ¬params.amount.toNat ≤ s.world.lamports ctx.proxyConfig.pubkey -
        P.minimumBalance (8 + ProxyConfig.initSpace) := hle
    simp only [apply, hload, writable, hmut, hcmut, Except.ok_bind, Except.require_of_true, hrent',
      Except.require_of_false hlt, Except.error_bind]

/-- **Withdrawals** are exact where the account has its rent. -/
theorem WithdrawFee.Asked.exact {ctx : WithdrawFee} (h : ctx.Asked s k)
    (hrent : configRent P ≤ s.world.lamports k) (env : Env) (params : WithdrawFeeParams) :
    ctx.Exact s env params k := by
  refine ⟨exists_step_call_iff.trans ?_, fun s' es hstep => ?_, fun hpanic => ?_, fun e he => ?_⟩
  · rcases h.apply_cases hrent params with ⟨hle, hok⟩ | ⟨hlt, herror⟩
    · exact iff_of_true hok hle
    · refine iff_of_false ?_ (by omega)
      rintro ⟨r, hr⟩
      have happly : ctx.apply P s.world params = .ok r := hr
      rw [herror] at happly
      cases happly
  · obtain ⟨-, -, -, -, -, hpay, -⟩ := WithdrawFee.apply_eq_ok.mp (step_call_eq_ok.mp hstep)
    obtain ⟨-, -, rfl, -, -, hne⟩ := h
    exact ⟨World.lamports_src_of_transferLamports hpay hne.symm,
      World.lamports_dst_of_transferLamports hpay hne.symm⟩
  · have happly : ctx.apply P s.world params = .error .panic := step_call_eq_error.mp hpanic
    rcases h.apply_cases hrent params with ⟨-, r, hr⟩ | ⟨-, herror⟩
    · rw [hr] at happly
      cases happly
    · rw [herror] at happly
      cases happly
  · rw [run_cons, run_nil, next_of_error he]

/-- **Lamports of the configuration.** In every run from a successful set-up, in which nobody but
the program takes lamports from the configuration account and that account signs nothing:

* its lamports never fall below its rent;
* they are what they were after the set-up, and what was deposited and collected since, less what
  was withdrawn, the fee of each message being that of the table stored when it was sent;
* a withdrawal by the admin to another account is exact. -/
theorem lamports_accounted (hP : P.DeriveInjective) {s₀ : ProxyState P} {env₀ : Env}
    {ctx : InitProxy} {params : InitProxyParams} {es₀ : List ProxyEffect}
    (hinit : step P s₀ (.call env₀ (.initProxy ctx params)) = .ok (s, es₀))
    (hpermitted₀ : Permitted ctx.proxyConfig.pubkey s₀ (.call env₀ (.initProxy ctx params)))
    (hpermitted : ∀ t ∈ transitions (step P) s is, Permitted ctx.proxyConfig.pubkey t.1 t.2.1) :
    configRent P ≤ (run (step P) s is).world.lamports ctx.proxyConfig.pubkey ∧
    (run (step P) s is).world.lamports ctx.proxyConfig.pubkey +
        ((transitions (step P) s is).map (withdrawnIn ctx.proxyConfig.pubkey)).sum =
      s.world.lamports ctx.proxyConfig.pubkey +
        (((transitions (step P) s is).map (depositedIn ctx.proxyConfig.pubkey)).sum +
          ((transitions (step P) s is).map collectedIn).sum) ∧
    ∀ env (wctx : WithdrawFee) wparams, wctx.Asked (run (step P) s is) ctx.proxyConfig.pubkey →
      wctx.Exact (run (step P) s is) env wparams ctx.proxyConfig.pubkey := by
  obtain ⟨bump, -, hdata⟩ := configured_of_init hinit
  have hconfigured : Configured ctx.proxyConfig.pubkey (params.config bump) s := ⟨_, hdata, .refl _⟩
  have hconfig : ∀ t ∈ transitions (step P) s is,
      Configured ctx.proxyConfig.pubkey (params.config bump) t.1 :=
    fun t ht => of_mem_transitions (fun t _ s' hs h => hs.step h) hconfigured ht
  have hrent : configRent P ≤ (run (step P) s is).world.lamports ctx.proxyConfig.pubkey := by
    refine run_invariant_of_transitions
      (P := fun s : ProxyState P => configRent P ≤ s.world.lamports ctx.proxyConfig.pubkey) ?_
      (configRent_le_init hP hpermitted₀ hinit)
    intro t ht s' hle hstep
    exact configRent_le_step hP (hconfig t ht) hle (hpermitted t ht) hstep
  refine ⟨hrent, ?_, fun env wctx wparams hasked => hasked.exact hrent env wparams⟩
  have hbooks := run_books (f := fun s : ProxyState P => s.world.lamports ctx.proxyConfig.pubkey)
    fun t ht s' hstep => lamports_step hP (hconfig t ht) (hpermitted t ht) hstep
  rw [List.sum_map_add] at hbooks
  exact hbooks

end Runs

/-! ### A set-up with one request and one withdrawal -/

theorem sampleEndpoint_noDebit (k : Pubkey) : sampleEndpoint.NoDebit k where
  send := by
    intro program sender accounts params lamports receipt lamports' h
    rw [sampleEndpoint, Option.ite_none_right_eq_some] at h
    obtain ⟨-, rfl⟩ := Prod.mk.inj (Option.some.inj h.2)
    exact le_rfl
  call := by
    intro program sender accounts call lamports lamports' h
    obtain rfl := Option.some.inj h
    exact le_rfl

/-- The accounts of a withdrawal. -/
def sampleWithdraw : WithdrawFee :=
  ⟨sampleSigner sampleAdmin, sampleWritable (sampleKey 1), sampleWritable sampleReceiver⟩

/-- What follows the set-up: the settings, a request, and a withdrawal of two hundred lamports. -/
def sampleCalls : List Instruction :=
  [.setBackwardFee ⟨sampleSigner sampleAdmin, ⟨sampleKey 1, false, false⟩,
      sampleWritable (sampleKey 4), ⟨zero32, false, false⟩⟩ ⟨500#64, 700#64⟩,
    .setPeerConfig ⟨sampleSigner sampleAdmin, sampleWritable (sampleKey 5),
      ⟨sampleKey 1, false, false⟩, ⟨zero32, false, false⟩⟩ ⟨sampleEid, .peerAddress (sampleKey 40)⟩,
    .sendRequest sampleSendRequest sampleRequest ⟨2000#64, 0#64⟩,
    .withdrawFee sampleWithdraw ⟨200#64⟩]

/-- In the sample the account gains the fee of one order and loses the withdrawal. -/
theorem lamports_accounted_sample :
    ∃ s es, step samplePlatform sampleFresh (.call sampleEnv (.initProxy sampleInit
        sampleInitParams)) = .ok (s, es) ∧
      configRent samplePlatform ≤ (run (step samplePlatform) s
        (sampleCalls.map (.call sampleEnv))).world.lamports (sampleKey 1) ∧
      (run (step samplePlatform) s (sampleCalls.map (.call sampleEnv))).world.lamports
        (sampleKey 1) + 200 = s.world.lamports (sampleKey 1) + 500 := by
  have hok : (step samplePlatform sampleFresh (.call sampleEnv (.initProxy sampleInit
      sampleInitParams))).map (fun r =>
        (((transitions (step samplePlatform) r.1 (sampleCalls.map (.call sampleEnv))).map
            (withdrawnIn (sampleKey 1))).sum,
          ((transitions (step samplePlatform) r.1 (sampleCalls.map (.call sampleEnv))).map
            (depositedIn (sampleKey 1))).sum,
          ((transitions (step samplePlatform) r.1 (sampleCalls.map (.call sampleEnv))).map
            collectedIn).sum)) = .ok (200, 0, 500) := by
    decide +kernel
  obtain ⟨⟨s, es⟩, hinit, hsums⟩ := Except.map_eq_ok.mp hok
  obtain ⟨hwithdrawn, hsums⟩ := Prod.mk.inj hsums
  obtain ⟨hdeposited, hcollected⟩ := Prod.mk.inj hsums
  have hsigners : ∀ i ∈ Instruction.initProxy sampleInit sampleInitParams :: sampleCalls,
      ∀ a ∈ i.accounts, a.isSigner = true → a.pubkey ≠ sampleKey 1 := by
    decide +kernel
  have hpermitted : ∀ t ∈ transitions (step samplePlatform) s (sampleCalls.map (.call sampleEnv)),
      Permitted (sampleKey 1) t.1 t.2.1 := by
    intro t ht
    obtain ⟨i, hi, hcall⟩ := List.mem_map.mp (mem_of_mem_transitions ht)
    rw [← hcall]
    exact ⟨sampleEndpoint_noDebit _, hsigners i (.tail _ hi)⟩
  obtain ⟨hrent, hbooks, -⟩ := lamports_accounted samplePlatform_injective hinit
    ⟨sampleEndpoint_noDebit _, hsigners _ List.mem_cons_self⟩ hpermitted
  have hkey : sampleInit.proxyConfig.pubkey = sampleKey 1 := rfl
  rw [hkey] at hrent hbooks
  rw [hwithdrawn, hdeposited, hcollected, Nat.zero_add] at hbooks
  exact ⟨s, es, hinit, hrent, hbooks⟩

end Proxy
