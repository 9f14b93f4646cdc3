import SolanaProxy.Proxy.Request

/-!
# Deliveries

`lz_receive`, which pays USDC out on a message of the ledger, and `lz_receive_types`, which
tells an executor the accounts to deliver the message with. The accounts of `lz_receive`
come as a list, in the order of the source's struct followed by the two accounts of its
events and by the accounts handed on to the endpoint: `LzReceive.ofList`.
-/

namespace Proxy

open Solana

/-- The accounts of `lz_receive`. -/
structure LzReceive where
  payer : AccountInfo
  proxyConfig : AccountInfo
  peerConfig : AccountInfo
  tokenMint : AccountInfo
  proxyTokenAccount : AccountInfo
  receiver : AccountInfo
  receiverTokenAccount : AccountInfo
  tokenProgram : AccountInfo
  associatedTokenProgram : AccountInfo
  systemProgram : AccountInfo
  eventAuthority : AccountInfo
  program : AccountInfo
  remainingAccounts : List AccountInfo

namespace LzReceive

/-- The accounts in the order in which they are passed. -/
def ofList : List AccountInfo → Option LzReceive
  | payer :: proxyConfig :: peerConfig :: tokenMint :: proxyTokenAccount :: receiver ::
      receiverTokenAccount :: tokenProgram :: associatedTokenProgram :: systemProgram ::
      eventAuthority :: program :: remainingAccounts =>
    some ⟨payer, proxyConfig, peerConfig, tokenMint, proxyTokenAccount, receiver,
      receiverTokenAccount, tokenProgram, associatedTokenProgram, systemProgram,
      eventAuthority, program, remainingAccounts⟩
  | _ => none

/-- The accounts as they are passed. -/
def toList (ctx : LzReceive) : List AccountInfo :=
  [ctx.payer, ctx.proxyConfig, ctx.peerConfig, ctx.tokenMint, ctx.proxyTokenAccount, ctx.receiver,
    ctx.receiverTokenAccount, ctx.tokenProgram, ctx.associatedTokenProgram, ctx.systemProgram,
    ctx.eventAuthority, ctx.program] ++ ctx.remainingAccounts

/-- Reading a list of accounts is the inverse of passing them. -/
theorem ofList_eq_some {accounts : List AccountInfo} {ctx : LzReceive} :
    ofList accounts = some ctx ↔ accounts = ctx.toList := by
  constructor
  · intro h
    unfold ofList at h
    split at h
    case h_1 => rw [← Option.some.inj h]; rfl
    case h_2 => cases h
  · rintro rfl
    rfl

/-- The account constraints: the world after the receiver's token account was created if
needed, and the configuration. -/
def tryAccounts (P : Platform) (w : ProxyWorld) (ctx : LzReceive) (params : LzReceiveParams) :
    Result ProxyError (ProxyWorld × ProxyConfig) := do
  signer ctx.payer
  writable ctx.payer
  let config ← loadConfig P w ctx.proxyConfig
  let peer ← loadPeer P w ctx.proxyConfig.pubkey params.srcEid ctx.peerConfig
  Except.require (peer.peerAddress = params.sender) (.program .invalidSender)
  let _ ← loadMint w ctx.tokenMint ctx.tokenProgram.pubkey
  Except.require (config.usdcTokenAccount = ctx.tokenMint.pubkey) (.program .invalidUSDCAccount)
  writable ctx.proxyTokenAccount
  let _ ← loadAssociated P w ctx.proxyTokenAccount ctx.tokenMint.pubkey ctx.proxyConfig.pubkey
    ctx.tokenProgram.pubkey
  let receiver ← Except.ofOption .panic (SolanaLedgerOCCMessage.getReceiver params.message)
  Except.require (receiver = ctx.receiver.pubkey) (.program .invalidReceiver)
  let w ← initAssociatedIfNeeded P w ctx.payer ctx.receiverTokenAccount ctx.tokenMint.pubkey
    ctx.receiver.pubkey ctx.tokenProgram.pubkey
  Solana.program ctx.tokenProgram P.tokenProgram
  Solana.program ctx.associatedTokenProgram P.associatedTokenProgram
  Solana.program ctx.systemProgram P.systemProgram
  let _ ← findPda P eventAuthoritySeeds ctx.eventAuthority
  return (w, config)

/-- What the endpoint is asked to clear. -/
def clearParams (ctx : LzReceive) (params : LzReceiveParams) : ClearParams where
  receiver := ctx.proxyConfig.pubkey
  srcEid := params.srcEid
  sender := params.sender
  nonce := params.nonce
  guid := params.guid
  message := params.message

/-- The instruction: the message is cleared at the endpoint, decoded and checked, and its
amount goes from the proxy's token account to the receiver's. -/
def apply (P : Platform) (env : Env) (w : ProxyWorld) (ctx : LzReceive)
    (params : LzReceiveParams) : Result ProxyError (ProxyWorld × List ProxyEffect) := do
  let (w, config) ← tryAccounts P w ctx params
  Except.require (config.paused = false) (.program .proxyPaused)
  Except.require (P.clearMinAccountsLen ≤ ctx.remainingAccounts.length) .panic
  let accountsForClear := ctx.remainingAccounts.take P.clearMinAccountsLen
  let w ← endpointCall env w config.endpointProgram ctx.proxyConfig.pubkey accountsForClear
    (.clear (ctx.clearParams params))
  let message ← Except.ofOption .panic (SolanaLedgerOCCMessage.decode params.message)
  Except.require (message.payloadType.checkLedgerPayloadType = true)
    (.program .invalidLedgerPayloadType)
  Except.require (message.token.checkLedgerTokenType = true) (.program .invalidLedgerTokenType)
  let amountBytes ← Except.ofOption .panic (Bytes.array? 32 message.payload 0)
  let usdcAmount := SolanaLedgerOCCMessage.getUsdcAmount amountBytes
  let w ← Except.ofOption .cpi (w.transferTokens ctx.tokenProgram.pubkey
    ctx.proxyTokenAccount.pubkey ctx.receiverTokenAccount.pubkey ctx.proxyConfig.pubkey
    usdcAmount.toNat 0)
  return (w, [.endpointCall config.endpointProgram ctx.proxyConfig.pubkey accountsForClear
    (.clear (ctx.clearParams params)),
    .transferTokens ctx.proxyTokenAccount.pubkey ctx.receiverTokenAccount.pubkey
      ctx.proxyConfig.pubkey usdcAmount])

end LzReceive

/-! ### The accounts of a delivery -/

/-- The accounts of `lz_receive_types`. -/
structure LzReceiveTypes where
  proxyConfig : AccountInfo
  accountList : AccountInfo

/-- The account constraints of `lz_receive_types`. -/
def LzReceiveTypes.tryAccounts (P : Platform) (w : ProxyWorld) (ctx : LzReceiveTypes) :
    Result ProxyError (ProxyConfig × AccountList) := do
  let config ← loadConfig P w ctx.proxyConfig
  let accountList ← loadPda P AccountList.kind AccountList.bump w
    (accountListSeeds ctx.proxyConfig.pubkey) ctx.accountList
  return (config, accountList)

/-- The list of accounts to deliver a message with; position 0 is left to the executor. -/
def LzReceiveTypes.apply (P : Platform) (w : ProxyWorld) (ctx : LzReceiveTypes)
    (params : LzReceiveParams) : Result ProxyError (List AccountInfo) := do
  let (config, _) ← tryAccounts P w ctx
  let (peerConfig, _) ← Except.ofOption .panic
    (P.findProgramAddress (peerSeeds ctx.proxyConfig.pubkey config.orderlyEid))
  let tokenMint := config.usdcTokenAccount
  let proxyTokenAccount ← Except.ofOption .panic
    (P.associatedTokenAddress ctx.proxyConfig.pubkey tokenMint P.tokenProgram)
  let receiver ← Except.ofOption .panic (SolanaLedgerOCCMessage.getReceiver params.message)
  let receiverTokenAccount ← Except.ofOption .panic
    (P.associatedTokenAddress receiver tokenMint P.tokenProgram)
  let (eventAuthority, _) ← Except.ofOption .panic (P.findProgramAddress P.eventSeed)
  return [
    ⟨zero32, true, true⟩,
    ⟨ctx.proxyConfig.pubkey, false, false⟩,
    ⟨peerConfig, false, false⟩,
    ⟨tokenMint, false, false⟩,
    ⟨proxyTokenAccount, false, true⟩,
    ⟨receiver, false, false⟩,
    ⟨receiverTokenAccount, false, true⟩,
    ⟨P.tokenProgram, false, false⟩,
    ⟨P.associatedTokenProgram, false, false⟩,
    ⟨P.systemProgram, false, false⟩,
    ⟨eventAuthority, false, false⟩,
    ⟨P.programId, false, false⟩] ++
    P.getAccountsForClear config.endpointProgram ctx.proxyConfig.pubkey params.srcEid
      params.sender params.nonce

/-! ### What success means -/

section Success

variable {P : Platform} {env : Env} {w w' : ProxyWorld} {params : LzReceiveParams}

/-- The account constraints of a delivery, met by a configuration, and the world after the
receiver's token account was created if needed. -/
structure LzReceive.Accounts (P : Platform) (w : ProxyWorld) (ctx : LzReceive)
    (params : LzReceiveParams) (w' : ProxyWorld) (config : ProxyConfig) : Prop where
  payer_signed : ctx.payer.isSigner = true
  payer_writable : ctx.payer.isWritable = true
  config_loaded : loadConfig P w ctx.proxyConfig = .ok config
  peer_loaded : ∃ peer, loadPeer P w ctx.proxyConfig.pubkey params.srcEid ctx.peerConfig =
    .ok peer ∧ peer.peerAddress = params.sender
  mint_loaded : ∃ mint, w.mints ctx.tokenMint.pubkey = some mint ∧
    mint.program = ctx.tokenProgram.pubkey
  usdc_eq : config.usdcTokenAccount = ctx.tokenMint.pubkey
  proxy_writable : ctx.proxyTokenAccount.isWritable = true
  proxy_loaded : ∃ t, loadAssociated (E := ProxyError) P w ctx.proxyTokenAccount
    ctx.tokenMint.pubkey ctx.proxyConfig.pubkey ctx.tokenProgram.pubkey = .ok t
  receiver_eq : SolanaLedgerOCCMessage.getReceiver params.message = some ctx.receiver.pubkey
  receiver_created : initAssociatedIfNeeded (E := ProxyError) P w ctx.payer
    ctx.receiverTokenAccount ctx.tokenMint.pubkey ctx.receiver.pubkey ctx.tokenProgram.pubkey =
      .ok w'
  token_program : ctx.tokenProgram.pubkey = P.tokenProgram
  associated_token_program : ctx.associatedTokenProgram.pubkey = P.associatedTokenProgram
  system_program : ctx.systemProgram.pubkey = P.systemProgram
  event_authority : ∃ b, P.findProgramAddress eventAuthoritySeeds =
    some (ctx.eventAuthority.pubkey, b)

/-- **The account constraints of a delivery**, position by position. -/
theorem LzReceive.tryAccounts_eq_ok {ctx : LzReceive} {config : ProxyConfig} :
    tryAccounts P w ctx params = .ok (w', config) ↔ Accounts P w ctx params w' config := by
  simp only [tryAccounts, signer, writable, Solana.program, Except.bind_eq_ok,
    Except.require_eq_ok, Except.ofOption_eq_ok, loadMint_eq_ok, findPda_eq_ok,
    Except.pure_eq_ok, Prod.mk.injEq]
  constructor
  · rintro ⟨-, hsigner, -, hmut, c, hconfig, peer, hpeer, -, hsender, m, hmint, -, husdc, -, hpmut,
      t, hproxy, receiver, hreceiver, -, rfl, w₁, hinit, -, htoken, -, hata, -, hsystem, b, hevent,
      rfl, rfl⟩
    exact ⟨hsigner, hmut, hconfig, ⟨peer, hpeer, hsender⟩, ⟨m, hmint⟩, husdc, hpmut, ⟨t, hproxy⟩,
      hreceiver, hinit, htoken, hata, hsystem, ⟨b, hevent⟩⟩
  · rintro ⟨hsigner, hmut, hconfig, ⟨peer, hpeer, hsender⟩, ⟨m, hmint⟩, husdc, hpmut, ⟨t, hproxy⟩,
      hreceiver, hinit, htoken, hata, hsystem, ⟨b, hevent⟩⟩
    exact ⟨(), hsigner, (), hmut, config, hconfig, peer, hpeer, (), hsender, m, hmint, (), husdc,
      (), hpmut, t, hproxy, _, hreceiver, (), rfl, w', hinit, (), htoken, (), hata, (), hsystem,
      b, hevent, rfl, rfl⟩

/-- A delivery that goes through, step by step: the configuration and the world it loads, the
world after its message was cleared, and the message with the bytes of its amount. -/
structure LzReceive.Trace (P : Platform) (env : Env) (w : ProxyWorld) (ctx : LzReceive)
    (params : LzReceiveParams) (w' : ProxyWorld) (es : List ProxyEffect) where
  config : ProxyConfig
  loaded : ProxyWorld
  cleared : ProxyWorld
  message : SolanaLedgerOCCMessage
  amountBytes : ByteArr 32
  accounts : Accounts P w ctx params loaded config
  unpaused : config.paused = false
  clear_accounts : P.clearMinAccountsLen ≤ ctx.remainingAccounts.length
  clear_ok : endpointCall (E := ProxyError) env loaded config.endpointProgram
    ctx.proxyConfig.pubkey (ctx.remainingAccounts.take P.clearMinAccountsLen)
    (.clear (ctx.clearParams params)) = .ok cleared
  decode_eq : SolanaLedgerOCCMessage.decode params.message = some message
  payload_type : message.payloadType.checkLedgerPayloadType = true
  token_type : message.token.checkLedgerTokenType = true
  amount_eq : Bytes.array? 32 message.payload 0 = some amountBytes
  transfer_eq : cleared.transferTokens ctx.tokenProgram.pubkey ctx.proxyTokenAccount.pubkey
    ctx.receiverTokenAccount.pubkey ctx.proxyConfig.pubkey
    (SolanaLedgerOCCMessage.getUsdcAmount amountBytes).toNat 0 = some w'
  effects_eq : es = [.endpointCall config.endpointProgram ctx.proxyConfig.pubkey
      (ctx.remainingAccounts.take P.clearMinAccountsLen) (.clear (ctx.clearParams params)),
    .transferTokens ctx.proxyTokenAccount.pubkey ctx.receiverTokenAccount.pubkey
      ctx.proxyConfig.pubkey (SolanaLedgerOCCMessage.getUsdcAmount amountBytes)]

/-- **A delivery** clears its message at the endpoint and makes the one transfer the decoded
message asks for. -/
theorem LzReceive.nonempty_trace {ctx : LzReceive} {es : List ProxyEffect}
    (h : apply P env w ctx params = .ok (w', es)) : Nonempty (Trace P env w ctx params w' es) := by
  simp only [apply, Except.bind_eq_ok, Except.require_eq_ok, Except.ofOption_eq_ok,
    Except.pure_eq_ok, Prod.mk.injEq] at h
  obtain ⟨⟨w₁, config⟩, haccounts, -, hpaused, -, hlen, w₂, hclear, message, hdecode, -, htype, -,
    htoken, amountBytes, hamount, w₃, htransfer, rfl, rfl⟩ := h
  exact ⟨⟨config, w₁, w₂, message, amountBytes, tryAccounts_eq_ok.mp haccounts, hpaused, hlen,
    hclear, hdecode, htype, htoken, hamount, htransfer, rfl⟩⟩

/-- The amount of USDC a message asks for. -/
def usdcAmount? (message : Bytes) : Option U64 := do
  let message ← SolanaLedgerOCCMessage.decode message
  let amountBytes ← Bytes.array? 32 message.payload 0
  return SolanaLedgerOCCMessage.getUsdcAmount amountBytes

theorem LzReceive.Trace.usdcAmount?_eq {ctx : LzReceive} {es : List ProxyEffect}
    (tr : Trace P env w ctx params w' es) :
    usdcAmount? params.message = some (SolanaLedgerOCCMessage.getUsdcAmount tr.amountBytes) := by
  rw [usdcAmount?, tr.decode_eq, Option.bind_eq_bind, Option.bind_some, tr.amount_eq]
  rfl

/-- Creating the receiver's account and clearing the message move no tokens. -/
theorem LzReceive.Trace.balance_cleared {ctx : LzReceive} {es : List ProxyEffect}
    (tr : Trace P env w ctx params w' es) (k : Pubkey) : tr.cleared.balance k = w.balance k := by
  obtain ⟨lamports, -, hcleared⟩ := endpointCall_eq_ok.mp tr.clear_ok
  rw [hcleared]
  exact balance_of_initAssociatedIfNeeded tr.accounts.receiver_created k

/-- The account of the proxy loses what is paid, and gets it back if it is the receiver's. -/
theorem LzReceive.Trace.balance_proxy {ctx : LzReceive} {es : List ProxyEffect}
    (tr : Trace P env w ctx params w' es) :
    w'.balance ctx.proxyTokenAccount.pubkey +
        (SolanaLedgerOCCMessage.getUsdcAmount tr.amountBytes).toNat =
      w.balance ctx.proxyTokenAccount.pubkey +
        if ctx.receiverTokenAccount.pubkey = ctx.proxyTokenAccount.pubkey then
          (SolanaLedgerOCCMessage.getUsdcAmount tr.amountBytes).toNat
        else 0 := by
  rw [World.balance_src_of_transferTokens tr.transfer_eq, tr.balance_cleared]

/-- A delivery makes one transfer, of what its message asks for. -/
theorem LzReceive.transferred_of_apply {ctx : LzReceive} {es : List ProxyEffect}
    (h : apply P env w ctx params = .ok (w', es)) :
    ∃ amount, usdcAmount? params.message = some amount ∧ es.filterMap Effect.transferred? =
      [(ctx.proxyTokenAccount.pubkey, ctx.receiverTokenAccount.pubkey, amount.toNat)] := by
  obtain ⟨tr⟩ := nonempty_trace h
  refine ⟨_, tr.usdcAmount?_eq, ?_⟩
  have heffects := congrArg (List.filterMap Effect.transferred?) tr.effects_eq
  exact heffects

/-- A delivery touches no account of the program. -/
theorem LzReceive.data_of_apply {ctx : LzReceive} {es : List ProxyEffect}
    (h : apply P env w ctx params = .ok (w', es)) :
    w'.data = w.data ∧ es.filterMap Effect.sent? = [] := by
  obtain ⟨tr⟩ := nonempty_trace h
  have hloaded : tr.loaded.data = w.data :=
    data_of_initAssociatedIfNeeded tr.accounts.receiver_created
  have hcleared : tr.cleared.data = tr.loaded.data := by
    obtain ⟨lamports, -, hworld⟩ := endpointCall_eq_ok.mp tr.clear_ok
    rw [hworld]
  obtain ⟨hdata, -, -⟩ := World.frame_of_transferTokens tr.transfer_eq
  refine ⟨hdata.trans (hcleared.trans hloaded), ?_⟩
  rw [tr.effects_eq]
  rfl

end Success

end Proxy
