import SolanaProxy.Proxy.Run

/-!
# The accounts of a delivery

An executor delivers a message with the accounts `lz_receive_types` names. The list is built
from the configuration and the message alone, position by position
(`LzReceiveTypes.apply_eq_ok`), and its third account is the peer of the endpoint id of the
ledger, whatever endpoint the message came from. `lzReceiveTypes_faithful_iff` says what this
means: of the messages that can be delivered at all, exactly those from the ledger's endpoint
can be delivered with the list.
-/

namespace Proxy

open Solana Machine

/-- The account constraints of `lz_receive` hold of a list of accounts, and enough accounts
follow for the endpoint's `clear`. -/
def LzReceive.accepts (P : Platform) (w : ProxyWorld) (params : LzReceiveParams)
    (accounts : List AccountInfo) : Bool :=
  match ofList accounts with
  | some ctx =>
    (tryAccounts P w ctx params).isOk && P.clearMinAccountsLen ≤ ctx.remainingAccounts.length
  | none => false

section Types

variable {P : Platform} {w : ProxyWorld} {params : LzReceiveParams}

theorem LzReceive.accepts_iff {accounts : List AccountInfo} :
    accepts P w params accounts = true ↔ ∃ ctx w' config, accounts = ctx.toList ∧
      tryAccounts P w ctx params = .ok (w', config) ∧
      P.clearMinAccountsLen ≤ ctx.remainingAccounts.length := by
  constructor
  · intro h
    rw [accepts] at h
    split at h
    case h_1 ctx hctx =>
      rw [Bool.and_eq_true, decide_eq_true_eq] at h
      obtain ⟨hok, hlen⟩ := h
      obtain ⟨⟨w', config⟩, haccounts⟩ := Except.exists_of_isOk hok
      exact ⟨ctx, w', config, ofList_eq_some.mp hctx, haccounts, hlen⟩
    case h_2 => cases h
  · rintro ⟨ctx, w', config, hctx, haccounts, hlen⟩
    have hok : (tryAccounts P w ctx params).isOk = true := by
      rw [haccounts]
      rfl
    rw [accepts, ofList_eq_some.mpr hctx]
    exact Bool.and_eq_true_iff.mpr ⟨hok, decide_eq_true hlen⟩

/-- The accounts of a delivery by an executor, from the addresses that go into them. -/
def LzReceive.computed (P : Platform) (params : LzReceiveParams) (config : ProxyConfig)
    (executor : AccountInfo)
    (proxyConfig peer proxyToken receiver receiverToken eventAuthority : Pubkey) :
    LzReceive where
  payer := executor
  proxyConfig := ⟨proxyConfig, false, false⟩
  peerConfig := ⟨peer, false, false⟩
  tokenMint := ⟨config.usdcTokenAccount, false, false⟩
  proxyTokenAccount := ⟨proxyToken, false, true⟩
  receiver := ⟨receiver, false, false⟩
  receiverTokenAccount := ⟨receiverToken, false, true⟩
  tokenProgram := ⟨P.tokenProgram, false, false⟩
  associatedTokenProgram := ⟨P.associatedTokenProgram, false, false⟩
  systemProgram := ⟨P.systemProgram, false, false⟩
  eventAuthority := ⟨eventAuthority, false, false⟩
  program := ⟨P.programId, false, false⟩
  remainingAccounts :=
    P.getAccountsForClear config.endpointProgram proxyConfig params.srcEid params.sender
      params.nonce

/-- **The returned list**: the accounts of a delivery, with the peer of the ledger's endpoint
id and a placeholder for the executor. -/
theorem LzReceiveTypes.apply_eq_ok {ctx : LzReceiveTypes} {config : ProxyConfig}
    {accountList : AccountList} (hctx : ctx.tryAccounts P w = .ok (config, accountList))
    {returned : List AccountInfo} :
    ctx.apply P w params = .ok returned ↔
      ∃ peer b proxyToken receiver receiverToken eventAuthority b',
        P.findProgramAddress (peerSeeds ctx.proxyConfig.pubkey config.orderlyEid) =
          some (peer, b) ∧
        P.associatedTokenAddress ctx.proxyConfig.pubkey config.usdcTokenAccount P.tokenProgram =
          some proxyToken ∧
        SolanaLedgerOCCMessage.getReceiver params.message = some receiver ∧
        P.associatedTokenAddress receiver config.usdcTokenAccount P.tokenProgram =
          some receiverToken ∧
        P.findProgramAddress P.eventSeed = some (eventAuthority, b') ∧
        returned = (LzReceive.computed P params config ⟨zero32, true, true⟩ ctx.proxyConfig.pubkey
          peer proxyToken receiver receiverToken eventAuthority).toList := by
  simp only [apply, hctx, Except.ok_bind, Except.bind_eq_ok, Except.ofOption_eq_ok,
    Except.pure_eq_ok]
  constructor
  · rintro ⟨⟨peer, b⟩, hpeer, proxyToken, hproxy, receiver, hreceiver, receiverToken, htoken,
      ⟨eventAuthority, b'⟩, hevent, rfl⟩
    exact ⟨peer, b, proxyToken, receiver, receiverToken, eventAuthority, b', hpeer, hproxy,
      hreceiver, htoken, hevent, rfl⟩
  · rintro ⟨peer, b, proxyToken, receiver, receiverToken, eventAuthority, b', hpeer, hproxy,
      hreceiver, htoken, hevent, rfl⟩
    exact ⟨(peer, b), hpeer, proxyToken, hproxy, receiver, hreceiver, receiverToken, htoken,
      (eventAuthority, b'), hevent, rfl⟩

theorem LzReceiveTypes.of_tryAccounts_eq_ok {ctx : LzReceiveTypes} {config : ProxyConfig}
    {accountList : AccountList} (h : ctx.tryAccounts P w = .ok (config, accountList)) :
    loadConfig P w ctx.proxyConfig = .ok config := by
  simp only [tryAccounts, Except.bind_eq_ok, Except.pure_eq_ok, Prod.mk.injEq] at h
  obtain ⟨_, hconfig, _, -, rfl, -⟩ := h
  exact hconfig

/-- **Computed accounts are accepted.** Accounts that pass the constraints of a delivery
determine their addresses, and the accounts computed from these addresses pass too. -/
theorem LzReceive.tryAccounts_computed {ctx : LzReceive} {w' : ProxyWorld} {config : ProxyConfig}
    (h : tryAccounts P w ctx params = .ok (w', config)) :
    tryAccounts P w (computed P params config ctx.payer ctx.proxyConfig.pubkey
      ctx.peerConfig.pubkey ctx.proxyTokenAccount.pubkey ctx.receiver.pubkey
      ctx.receiverTokenAccount.pubkey ctx.eventAuthority.pubkey) params = .ok (w', config) := by
  have hvalid := tryAccounts_eq_ok.mp h
  obtain ⟨peer, hpeer, hsender⟩ := hvalid.peer_loaded
  obtain ⟨m, hmint, hprogram⟩ := hvalid.mint_loaded
  obtain ⟨t, hproxy⟩ := hvalid.proxy_loaded
  have hproxy' := loadAssociated_eq_ok.mp hproxy
  obtain ⟨-, hinit'⟩ := initAssociatedIfNeeded_eq_ok.mp hvalid.receiver_created
  rw [hvalid.token_program, ← hvalid.usdc_eq] at hproxy' hinit'
  rw [← hvalid.usdc_eq] at hmint
  refine tryAccounts_eq_ok.mpr ⟨hvalid.payer_signed, hvalid.payer_writable, ?_,
    ⟨peer, ?_, hsender⟩, ⟨m, hmint, hprogram.trans hvalid.token_program⟩, rfl, rfl,
    ⟨t, loadAssociated_eq_ok.mpr hproxy'⟩, hvalid.receiver_eq,
    initAssociatedIfNeeded_eq_ok.mpr ⟨rfl, hinit'⟩, rfl, rfl, rfl, hvalid.event_authority⟩
  · exact loadConfig_eq_ok.mpr (loadConfig_eq_ok.mp hvalid.config_loaded)
  · exact loadPeer_eq_ok.mpr (loadPeer_eq_ok.mp hpeer)

end Types

/-- **Faithful account lists.** Take a message that some list of accounts delivers, with the
given executor at its head. The list of `lz_receive_types`, with that executor at its head,
meets the account constraints of `lz_receive` and ends in the accounts of the endpoint's
`clear` exactly when the message came from the endpoint of the ledger. -/
theorem lzReceiveTypes_faithful_iff {P : Platform} (hP : P.DeriveInjective)
    (hevent : P.eventSeed = eventAuthoritySeeds)
    (hclear : ∀ endpoint receiver srcEid sender nonce,
      (P.getAccountsForClear endpoint receiver srcEid sender nonce).length =
        P.clearMinAccountsLen)
    (s : ProxyState P) {params : LzReceiveParams} {executor : AccountInfo}
    {accounts : List AccountInfo}
    (haccepts : LzReceive.accepts P s.world params (executor :: accounts) = true)
    {types : LzReceiveTypes} {config : ProxyConfig} {accountList : AccountList}
    (htypes : types.tryAccounts P s.world = .ok (config, accountList)) :
    (∃ returned, types.apply P s.world params = .ok returned ∧
      LzReceive.accepts P s.world params (returned.set 0 executor) = true ∧
      returned.drop 12 = P.getAccountsForClear config.endpointProgram types.proxyConfig.pubkey
        params.srcEid params.sender params.nonce) ↔
      params.srcEid = config.orderlyEid := by
  have hload := LzReceiveTypes.of_tryAccounts_eq_ok htypes
  constructor
  · rintro ⟨returned, happly, hreturned, -⟩
    obtain ⟨peer, b, proxyToken, receiver, receiverToken, eventAuthority, b', hpeer, -, -, -, -,
      rfl⟩ := (LzReceiveTypes.apply_eq_ok htypes).mp happly
    obtain ⟨ctx, w', config', hctx, haccounts, -⟩ := LzReceive.accepts_iff.mp hreturned
    have hpeerKey : ctx.peerConfig.pubkey = peer := by
      have hsome := LzReceive.ofList_eq_some.mpr hctx
      obtain rfl := Option.some.inj hsome
      rfl
    obtain ⟨p, hload', -⟩ := (LzReceive.tryAccounts_eq_ok.mp haccounts).peer_loaded
    -- one address is that of the ledger's peer and that of the source's
    obtain ⟨-, hseeds⟩ := loadPeer_eq_ok.mp hload'
    have hledger := Platform.createProgramAddress_of_find hpeer
    rw [hpeerKey] at hseeds
    exact (peerSeeds_inj (hP.seeds_eq hseeds hledger)).1
  · intro heid
    obtain ⟨ctx, w', config', hctx, haccounts, hlen⟩ := LzReceive.accepts_iff.mp haccepts
    obtain rfl : executor = ctx.payer := List.head_eq_of_cons_eq hctx
    have hcomputed := LzReceive.tryAccounts_computed haccounts
    have hvalid := LzReceive.tryAccounts_eq_ok.mp haccounts
    obtain ⟨p, hpeer, -⟩ := hvalid.peer_loaded
    obtain ⟨t, hproxy⟩ := hvalid.proxy_loaded
    obtain ⟨b', hauthority⟩ := hvalid.event_authority
    obtain ⟨hload', -⟩ := loadConfig_eq_ok.mp hvalid.config_loaded
    obtain ⟨hkey, rfl⟩ := s.placed.config_unique (loadConfig_eq_ok.mp hload).1 hload'
    have haddr := s.placed.configAddress_eq hload'
    obtain ⟨hdata, hseeds⟩ := loadPeer_eq_ok.mp hpeer
    have hfind := s.placed.peerConfig_eq hP hdata haddr hseeds
    obtain ⟨-, -, -, -, hproxyKey⟩ := loadAssociated_eq_ok.mp hproxy
    obtain ⟨-, htokenKey, -⟩ := initAssociatedIfNeeded_eq_ok.mp hvalid.receiver_created
    rw [hvalid.token_program, ← hvalid.usdc_eq, ← hkey] at hproxyKey
    rw [hvalid.token_program, ← hvalid.usdc_eq] at htokenKey
    rw [← hkey, heid] at hfind
    rw [← hkey] at hcomputed
    rw [← hevent] at hauthority
    refine ⟨_, (LzReceiveTypes.apply_eq_ok htypes).mpr ⟨_, _, _, _, _, _, _, hfind, hproxyKey,
      hvalid.receiver_eq, htokenKey, hauthority, rfl⟩, ?_, rfl⟩
    exact LzReceive.accepts_iff.mpr ⟨_, w', config, rfl, hcomputed, (hclear _ _ _ _ _).ge⟩

/-! ### A second peer

The deployment with the accounts of `lz_receive_types` set and a peer at another endpoint than
the ledger's. -/

/-- The set-up, the accounts of `lz_receive_types` and the second peer. -/
def sampleTwoPeers : List Input :=
  sampleSetup ++
    [.call sampleEnv (.setAccountList ⟨sampleSigner sampleAdmin, ⟨sampleKey 1, false, false⟩,
      sampleWritable (sampleKey 2), sampleWritable (sampleKey 3), ⟨zero32, false, false⟩⟩
      ⟨sampleMint⟩),
    .call sampleEnv (.setPeerConfig ⟨sampleSigner sampleAdmin, sampleWritable (sampleKey 8),
      ⟨sampleKey 1, false, false⟩, ⟨zero32, false, false⟩⟩
      ⟨sampleOtherEid, .peerAddress (sampleKey 41)⟩)]

/-- The deployment with two peers. -/
def sampleTwoPeersState : ProxyState samplePlatform :=
  run (step samplePlatform) sampleFresh sampleTwoPeers

/-- A delivery of five units to the sample receiver from a peer. -/
def sampleDelivery (srcEid : U32) (sender : ByteArr 32) : LzReceiveParams where
  srcEid := srcEid
  sender := sender
  nonce := 1#64
  guid := sampleKey 60
  message := Frame.bytes ⟨TokenType.usdc.toU8, sampleReceiver,
    PayloadType.claimUsdcRevenueBackward.toU8, List.replicate 31 0 ++ [5]⟩
  extraData := []

/-- The accounts the list is asked with. -/
def sampleTypes : LzReceiveTypes := ⟨⟨sampleKey 1, false, false⟩, ⟨sampleKey 3, false, false⟩⟩

/-- A message of the other peer is accepted with its own peer account, and the list returned
for it is not. -/
theorem lzReceiveTypes_other_peer :
    LzReceive.accepts samplePlatform sampleTwoPeersState.world
        (sampleDelivery sampleOtherEid (sampleKey 41))
        (sampleSigner sampleUser :: (sampleLzReceive (sampleKey 8)).toList.tail) = true ∧
      ∃ returned, sampleTypes.apply samplePlatform sampleTwoPeersState.world
          (sampleDelivery sampleOtherEid (sampleKey 41)) = .ok returned ∧
        LzReceive.accepts samplePlatform sampleTwoPeersState.world
          (sampleDelivery sampleOtherEid (sampleKey 41))
          (returned.set 0 (sampleSigner sampleUser)) = false := by
  have hreturned : (sampleTypes.apply samplePlatform sampleTwoPeersState.world
      (sampleDelivery sampleOtherEid (sampleKey 41))).map (fun returned =>
        LzReceive.accepts samplePlatform sampleTwoPeersState.world
          (sampleDelivery sampleOtherEid (sampleKey 41))
          (returned.set 0 (sampleSigner sampleUser))) = .ok false := by
    decide +kernel
  exact ⟨by decide +kernel, Except.map_eq_ok.mp hreturned⟩

/-- A message of the ledger is accepted with the returned list. -/
theorem lzReceiveTypes_faithful_iff_ledger :
    ∃ returned, sampleTypes.apply samplePlatform sampleTwoPeersState.world
        (sampleDelivery sampleEid (sampleKey 40)) = .ok returned ∧
      LzReceive.accepts samplePlatform sampleTwoPeersState.world
        (sampleDelivery sampleEid (sampleKey 40))
        (returned.set 0 (sampleSigner sampleUser)) = true := by
  have hconfig : (sampleTypes.tryAccounts samplePlatform sampleTwoPeersState.world).map
      (fun r => r.1.orderlyEid) = .ok sampleEid := by
    decide +kernel
  obtain ⟨⟨config, accountList⟩, htypes, heid⟩ := Except.map_eq_ok.mp hconfig
  have haccepts : LzReceive.accepts samplePlatform sampleTwoPeersState.world
      (sampleDelivery sampleEid (sampleKey 40))
      (sampleSigner sampleUser :: (sampleLzReceive (sampleKey 5)).toList.tail) = true := by
    decide +kernel
  obtain ⟨returned, happly, hreturned, -⟩ := (lzReceiveTypes_faithful_iff
    samplePlatform_injective rfl (fun _ _ _ _ _ => rfl) sampleTwoPeersState haccepts htypes).mpr
    (Eq.symm heid)
  exact ⟨returned, happly, hreturned⟩

end Proxy
