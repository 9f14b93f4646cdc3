import SolanaProxy.Oft.Admin
import SolanaProxy.Oft.Fee

/-!
# Sending and receiving tokens

`send` takes tokens from a user and tells the other side the amount in shared decimals;
`lz_receive` is the way back. An adapter keeps the tokens in the escrow and counts in its store
what it owes, a native OFT burns and mints. The two parts that move tokens are `takeTokens` and
`releaseTokens`; each has one theorem for what its success means.
-/

namespace Oft

open Solana

/-! ### Rate limits -/

/-- A limiter, if there is one, after an operation. -/
def updateLimiter (f : RateLimiter → Result OFTError RateLimiter) :
    Option RateLimiter → Result OFTError (Option RateLimiter)
  | some limiter => do
    let limiter ← f limiter
    return some limiter
  | none => return none

/-- The peer after an amount went out: consumed in one direction, refilled in the other. -/
def consumeOutbound (env : Env) (peer : PeerConfig) (amount : U64) :
    Result OFTError PeerConfig := do
  let outbound ← updateLimiter (·.tryConsume .rateLimitExceeded env amount)
    peer.outboundRateLimiter
  let inbound ← updateLimiter (·.refill env amount) peer.inboundRateLimiter
  return { peer with outboundRateLimiter := outbound, inboundRateLimiter := inbound }

/-- The peer after an amount came in. -/
def consumeInbound (env : Env) (peer : PeerConfig) (amount : U64) :
    Result OFTError PeerConfig := do
  let inbound ← updateLimiter (·.tryConsume .rateLimitExceeded env amount) peer.inboundRateLimiter
  let outbound ← updateLimiter (·.refill env amount) peer.outboundRateLimiter
  return { peer with outboundRateLimiter := outbound, inboundRateLimiter := inbound }

/-- `emit_cpi!`: the program calls itself, so its own account has to be there. -/
def emitCpi (P : Platform) (program : AccountInfo) : Result OFTError Unit :=
  Except.require (program.pubkey = P.programId) .cpi

/-! ### Sending -/

/-- The accounts of `send`. -/
structure Send where
  signer : AccountInfo
  peer : AccountInfo
  oftStore : AccountInfo
  tokenSource : AccountInfo
  tokenEscrow : AccountInfo
  tokenMint : AccountInfo
  tokenProgram : AccountInfo
  eventAuthority : AccountInfo
  program : AccountInfo
  remainingAccounts : List AccountInfo

/-- The parameters of `send`. -/
structure SendParams where
  dstEid : U32
  toAddress : ByteArr 32
  amountLd : U64
  minAmountLd : U64
  options : Bytes
  composeMsg : Option Bytes
  nativeFee : U64
  lzTokenFee : U64
deriving DecidableEq

/-- The amounts `send` answers with. -/
structure OFTReceipt where
  amountSentLd : U64
  amountReceivedLd : U64
deriving DecidableEq

namespace Send

/-- The account constraints: the store, the peer and the mint. -/
def tryAccounts (P : Platform) (w : OFTWorld) (ctx : Send) (params : SendParams) :
    Result OFTError (OFTStore × PeerConfig × Mint) := do
  Solana.signer ctx.signer
  let peer ← loadPda P peerKind PeerConfig.bump w (peerSeeds ctx.oftStore.pubkey params.dstEid)
    ctx.peer
  writable ctx.peer
  let store ← loadStore P w ctx.oftStore
  writable ctx.oftStore
  writable ctx.tokenSource
  let _ ← loadToken w ctx.tokenSource ctx.tokenMint.pubkey ctx.signer.pubkey
    ctx.tokenProgram.pubkey
  let _ ← loadEscrow w store ctx.oftStore ctx.tokenEscrow ctx.tokenMint ctx.tokenProgram
  writable ctx.tokenMint
  let mint ← loadStoreMint w store ctx.tokenMint ctx.tokenProgram
  tokenInterface P ctx.tokenProgram
  let _ ← findPda P eventAuthoritySeeds ctx.eventAuthority
  return (store, peer, mint)

/-- The tokens of the user, locked in the escrow together with the fee, or burnt with the fee
put into the escrow. -/
def takeTokens (env : Env) (w : OFTWorld) (ctx : Send) (store : OFTStore) (mint : Mint)
    (amountSentLd amountReceivedLd oftFeeLd : U64) :
    Result OFTError (OFTWorld × OFTStore × List OFTEffect) :=
  match store.oftType with
  | .adapter => do
    let tvlLd ← Except.ofOption .panic (Word.checkedAdd store.tvlLd amountReceivedLd)
    let w ← transferChecked env w ctx.tokenProgram.pubkey ctx.tokenSource.pubkey
      ctx.tokenMint.pubkey ctx.tokenEscrow.pubkey ctx.signer.pubkey amountSentLd mint.decimals
    return (w, { store with tvlLd := tvlLd },
      [.transferTokens ctx.tokenSource.pubkey ctx.tokenEscrow.pubkey ctx.signer.pubkey
        amountSentLd])
  | .native => do
    let burntLd ← Except.ofOption .panic (Word.checkedSub amountSentLd oftFeeLd)
    let w ← burn w ctx.tokenProgram.pubkey ctx.tokenMint.pubkey ctx.tokenSource.pubkey
      ctx.signer.pubkey burntLd
    if 0#64 < oftFeeLd then
      let w ← transferChecked env w ctx.tokenProgram.pubkey ctx.tokenSource.pubkey
        ctx.tokenMint.pubkey ctx.tokenEscrow.pubkey ctx.signer.pubkey oftFeeLd mint.decimals
      return (w, store,
        [.burnTokens ctx.tokenMint.pubkey ctx.tokenSource.pubkey ctx.signer.pubkey burntLd,
          .transferTokens ctx.tokenSource.pubkey ctx.tokenEscrow.pubkey ctx.signer.pubkey
            oftFeeLd])
    else
      return (w, store,
        [.burnTokens ctx.tokenMint.pubkey ctx.tokenSource.pubkey ctx.signer.pubkey burntLd])

/-- The message for an amount in shared decimals. -/
def sendParams (ctx : Send) (params : SendParams) (peer : PeerConfig) (amountSd : U64)
    (options : Bytes) : Solana.SendParams where
  dstEid := params.dstEid
  receiver := peer.peerAddress
  message := MsgCodec.encode params.toAddress amountSd ctx.signer.pubkey params.composeMsg
  options := options
  nativeFee := params.nativeFee
  lzTokenFee := params.lzTokenFee

/-- The instruction: the tokens are taken, then the endpoint sends the message. -/
def apply (P : Platform) (env : Env) (w : OFTWorld) (ctx : Send) (params : SendParams) :
    Result OFTError (OFTWorld × List OFTEffect × MessagingReceipt × OFTReceipt) := do
  let (store, peer, mint) ← tryAccounts P w ctx params
  Except.require (store.paused = false) (.program .paused)
  let (amountSentLd, amountReceivedLd, oftFeeLd) ←
    computeFeeAndAdjustAmount env params.amountLd store mint peer.feeBps
  Except.require (params.minAmountLd ≤ amountReceivedLd) (.program .slippageExceeded)
  let peer ← consumeOutbound env peer amountReceivedLd
  let (w, store, es) ←
    takeTokens env w ctx store mint amountSentLd amountReceivedLd oftFeeLd
  let sender ← Except.ofOption .panic ctx.remainingAccounts[1]?
  Except.require (ctx.oftStore.pubkey = sender.pubkey) (.program .invalidSender)
  let amountSd ← store.ld2sd amountReceivedLd
  let options ← peer.enforcedOptions.combineOptions P params.composeMsg params.options
  let (w, receipt) ← endpointSend env w store.endpointProgram ctx.oftStore.pubkey
    ctx.remainingAccounts (ctx.sendParams params peer amountSd options)
  emitCpi P ctx.program
  -- both accounts are written when the instruction ends
  let w := w.store peerKind ctx.peer.pubkey peer
  let w := w.store OFTStore.kind ctx.oftStore.pubkey store
  return (w,
    es ++ [.endpointSend store.endpointProgram ctx.oftStore.pubkey ctx.remainingAccounts
        (ctx.sendParams params peer amountSd options),
      .event (.oftSent receipt.guid params.dstEid ctx.tokenSource.pubkey amountSentLd
        amountReceivedLd)],
    receipt, ⟨amountSentLd, amountReceivedLd⟩)

end Send

/-! ### Receiving -/

/-- The accounts of `lz_receive`. -/
structure LzReceive where
  payer : AccountInfo
  peer : AccountInfo
  oftStore : AccountInfo
  tokenEscrow : AccountInfo
  toAddress : AccountInfo
  tokenDest : AccountInfo
  tokenMint : AccountInfo
  mintAuthority : Option AccountInfo
  tokenProgram : AccountInfo
  associatedTokenProgram : AccountInfo
  systemProgram : AccountInfo
  eventAuthority : AccountInfo
  program : AccountInfo
  remainingAccounts : List AccountInfo

namespace LzReceive

/-- The account constraints: the world after the recipient's token account was created if
needed, the store, the peer and the mint. -/
def tryAccounts (P : Platform) (w : OFTWorld) (ctx : LzReceive) (params : LzReceiveParams) :
    Result OFTError (OFTWorld × OFTStore × PeerConfig × Mint) := do
  signer ctx.payer
  writable ctx.payer
  let peer ← loadPda P peerKind PeerConfig.bump w (peerSeeds ctx.oftStore.pubkey params.srcEid)
    ctx.peer
  writable ctx.peer
  Except.require (peer.peerAddress = params.sender) (.program .invalidSender)
  let store ← loadStore P w ctx.oftStore
  writable ctx.oftStore
  let _ ← loadEscrow w store ctx.oftStore ctx.tokenEscrow ctx.tokenMint ctx.tokenProgram
  let toAddress ← Except.ofOption .panic (MsgCodec.sendTo params.message)
  Except.require (ctx.toAddress.pubkey = toAddress) (.program .invalidTokenDest)
  writable ctx.tokenMint
  let mint ← loadStoreMint w store ctx.tokenMint ctx.tokenProgram
  Except.require (∀ a ∈ ctx.mintAuthority, mint.mintAuthority = some a.pubkey)
    (.program .invalidMintAuthority)
  tokenInterface P ctx.tokenProgram
  Solana.program ctx.associatedTokenProgram P.associatedTokenProgram
  Solana.program ctx.systemProgram P.systemProgram
  let _ ← findPda P eventAuthoritySeeds ctx.eventAuthority
  let w ← initAssociatedIfNeeded P w ctx.payer ctx.tokenDest ctx.tokenMint.pubkey
    ctx.toAddress.pubkey ctx.tokenProgram.pubkey
  return (w, store, peer, mint)

/-- The amount, unlocked from the escrow or minted, and what arrives of it. -/
def releaseTokens (env : Env) (w : OFTWorld) (ctx : LzReceive) (store : OFTStore) (mint : Mint)
    (amountLd : U64) : Result OFTError (OFTWorld × OFTStore × U64 × List OFTEffect) :=
  match store.oftType, ctx.mintAuthority with
  | .adapter, _ => do
    let tvlLd ← Except.ofOption .panic (Word.checkedSub store.tvlLd amountLd)
    let w ← transferChecked env w ctx.tokenProgram.pubkey ctx.tokenEscrow.pubkey
      ctx.tokenMint.pubkey ctx.tokenDest.pubkey ctx.oftStore.pubkey amountLd mint.decimals
    let amountReceivedLd ← getPostFeeAmountLd env mint amountLd
    return (w, { store with tvlLd := tvlLd }, amountReceivedLd,
      [.transferTokens ctx.tokenEscrow.pubkey ctx.tokenDest.pubkey ctx.oftStore.pubkey amountLd])
  | .native, some mintAuthority => do
    let w ← mintTo env w ctx.tokenProgram.pubkey ctx.tokenMint.pubkey ctx.tokenDest.pubkey
      mintAuthority.pubkey ctx.oftStore.pubkey amountLd
    return (w, store, amountLd,
      [.mintTokens ctx.tokenMint.pubkey ctx.tokenDest.pubkey amountLd])
  | .native, none => .error (.program .invalidMintAuthority)

/-- What the endpoint is asked to clear. -/
def clearParams (ctx : LzReceive) (params : LzReceiveParams) : ClearParams where
  receiver := ctx.oftStore.pubkey
  srcEid := params.srcEid
  sender := params.sender
  nonce := params.nonce
  guid := params.guid
  message := params.message

/-- The part of the message to compose, handed on with the amount that arrived. -/
def compose (P : Platform) (env : Env) (w : OFTWorld) (ctx : LzReceive)
    (params : LzReceiveParams) (store : OFTStore) (amountReceivedLd : U64) :
    Result OFTError (OFTWorld × List OFTEffect) :=
  match MsgCodec.composeMsg params.message with
  | some message => do
    let accounts := ctx.remainingAccounts.drop P.clearMinAccountsLen
    let call := EndpointCall.sendCompose ⟨ctx.toAddress.pubkey, params.guid, 0#16,
      ComposeMsgCodec.encode params.nonce params.srcEid amountReceivedLd message⟩
    let w ← endpointCall env w store.endpointProgram ctx.oftStore.pubkey accounts call
    return (w, [.endpointCall store.endpointProgram ctx.oftStore.pubkey accounts call])
  | none => return (w, [])

/-- The instruction: the endpoint clears the message, then the tokens are released and what is to
be
composed is handed on. -/
def apply (P : Platform) (env : Env) (w : OFTWorld) (ctx : LzReceive) (params : LzReceiveParams) :
    Result OFTError (OFTWorld × List OFTEffect) := do
  let (w, store, peer, mint) ← tryAccounts P w ctx params
  Except.require (store.paused = false) (.program .paused)
  Except.require (P.clearMinAccountsLen ≤ ctx.remainingAccounts.length) .panic
  let accountsForClear := ctx.remainingAccounts.take P.clearMinAccountsLen
  let w ← endpointCall env w store.endpointProgram ctx.oftStore.pubkey accountsForClear
    (.clear (ctx.clearParams params))
  let amountSd ← Except.ofOption .panic (MsgCodec.amountSd params.message)
  let amountLd ← store.sd2ld amountSd
  let peer ← consumeInbound env peer amountLd
  let (w, store, amountReceivedLd, es) ← releaseTokens env w ctx store mint amountLd
  let (w, es') ← compose P env w ctx params store amountReceivedLd
  emitCpi P ctx.program
  -- both accounts are written when the instruction ends
  let w := w.store peerKind ctx.peer.pubkey peer
  let w := w.store OFTStore.kind ctx.oftStore.pubkey store
  return (w,
    [.endpointCall store.endpointProgram ctx.oftStore.pubkey accountsForClear
      (.clear (ctx.clearParams params))] ++ es ++ es' ++
    [.event (.oftReceived params.guid params.srcEid ctx.toAddress.pubkey amountReceivedLd)])

end LzReceive

/-! ### What success means -/

section Success

variable {P : Platform} {env : Env} {w w' : OFTWorld} {es : List OFTEffect}
  {store store' : OFTStore} {peer peer' : PeerConfig} {mint : Mint} {amount : U64}

/-- A limiter that is there stays there after an operation on it. -/
theorem exists_of_updateLimiter {f : RateLimiter → Result OFTError RateLimiter}
    {l : RateLimiter} {o o' : Option RateLimiter} (ho : o = some l)
    (h : updateLimiter f o = .ok o') : ∃ l', f l = .ok l' ∧ o' = some l' := by
  subst ho
  simp only [updateLimiter, Except.bind_eq_ok, Except.pure_eq_ok] at h
  obtain ⟨l', hl', rfl⟩ := h
  exact ⟨l', hl', rfl⟩

/-- What goes out is taken from the outbound limiter and given back to the inbound one. -/
theorem consumeOutbound_eq_ok :
    consumeOutbound env peer amount = .ok peer' ↔ ∃ outbound,
      updateLimiter (·.tryConsume .rateLimitExceeded env amount) peer.outboundRateLimiter =
        .ok outbound ∧
      ∃ inbound, updateLimiter (·.refill env amount) peer.inboundRateLimiter = .ok inbound ∧
        { peer with outboundRateLimiter := outbound, inboundRateLimiter := inbound } = peer' := by
  simp only [consumeOutbound, Except.bind_eq_ok, Except.pure_eq_ok]

/-- What comes in is taken from the inbound limiter and given back to the outbound one. -/
theorem consumeInbound_eq_ok :
    consumeInbound env peer amount = .ok peer' ↔ ∃ inbound,
      updateLimiter (·.tryConsume .rateLimitExceeded env amount) peer.inboundRateLimiter =
        .ok inbound ∧
      ∃ outbound, updateLimiter (·.refill env amount) peer.outboundRateLimiter = .ok outbound ∧
        { peer with inboundRateLimiter := inbound, outboundRateLimiter := outbound } = peer' := by
  simp only [consumeInbound, Except.bind_eq_ok, Except.pure_eq_ok]

/-- The rate limits leave everything else of a peer alone. -/
theorem frame_of_consumeOutbound (h : consumeOutbound env peer amount = .ok peer') :
    peer'.bump = peer.bump ∧ peer'.feeBps = peer.feeBps ∧ peer'.peerAddress = peer.peerAddress ∧
      peer'.enforcedOptions = peer.enforcedOptions := by
  obtain ⟨outbound, -, inbound, -, rfl⟩ := consumeOutbound_eq_ok.mp h
  exact ⟨rfl, rfl, rfl, rfl⟩

theorem frame_of_consumeInbound (h : consumeInbound env peer amount = .ok peer') :
    peer'.bump = peer.bump ∧ peer'.feeBps = peer.feeBps := by
  obtain ⟨inbound, -, outbound, -, rfl⟩ := consumeInbound_eq_ok.mp h
  exact ⟨rfl, rfl⟩

/-- The two accounts a transfer writes when it ends. -/
theorem writes_peer_store {k k' : Pubkey} (hpeer : w.data k' = some (.peerConfig peer))
    (hstore : w.data k = some (.oftStore store)) (hbump : peer'.bump = peer.bump)
    (hfee : peer'.feeBps = peer.feeBps) (hsetup : store.SameSetup store')
    (horder : store.InOrder → store'.InOrder) (hdata : w'.data = Function.update
      (Function.update w.data k' (some (.peerConfig peer'))) k (some (.oftStore store'))) :
    Writes P w.data w'.data := by
  have hne : k ≠ k' := oftStore_ne_peer hstore hpeer
  rw [hdata]
  refine .tail (.single ⟨.peer hpeer hbump hfee⟩) ⟨.store ?_ hsetup horder⟩
  rw [Function.update_of_ne hne, hstore]

namespace Send

variable {ctx : Send} {params : SendParams} {sent received fee : U64}

/-- The account constraints of a send, met by a store, a peer and a mint. -/
structure Accounts (P : Platform) (w : OFTWorld) (ctx : Send) (params : SendParams)
    (store : OFTStore) (peer : PeerConfig) (mint : Mint) : Prop where
  signer_signed : ctx.signer.isSigner = true
  peer_loaded : loadPda (E := OFTError) P peerKind PeerConfig.bump w
    (peerSeeds ctx.oftStore.pubkey params.dstEid) ctx.peer = .ok peer
  peer_writable : ctx.peer.isWritable = true
  store_loaded : loadStore P w ctx.oftStore = .ok store
  store_writable : ctx.oftStore.isWritable = true
  source_writable : ctx.tokenSource.isWritable = true
  source_loaded : ∃ t, loadToken (E := OFTError) w ctx.tokenSource ctx.tokenMint.pubkey
    ctx.signer.pubkey ctx.tokenProgram.pubkey = .ok t
  escrow_loaded : ∃ t, loadEscrow w store ctx.oftStore ctx.tokenEscrow ctx.tokenMint
    ctx.tokenProgram = .ok t
  mint_writable : ctx.tokenMint.isWritable = true
  mint_loaded : loadStoreMint w store ctx.tokenMint ctx.tokenProgram = .ok mint
  token_program : ctx.tokenProgram.pubkey = P.tokenProgram ∨
    ctx.tokenProgram.pubkey = P.token2022Program
  event_authority : ∃ b, P.findProgramAddress eventAuthoritySeeds =
    some (ctx.eventAuthority.pubkey, b)

theorem Accounts.peer_data (h : Accounts P w ctx params store peer mint) :
    w.data ctx.peer.pubkey = some (.peerConfig peer) :=
  (loadPda_eq_ok.mp h.peer_loaded).1

theorem Accounts.store_data (h : Accounts P w ctx params store peer mint) :
    w.data ctx.oftStore.pubkey = some (.oftStore store) :=
  (loadStore_eq_ok.mp h.store_loaded).1

theorem tryAccounts_eq_ok :
    tryAccounts P w ctx params = .ok (store, peer, mint) ↔
      Accounts P w ctx params store peer mint := by
  simp only [tryAccounts, Solana.signer, writable, tokenInterface, Except.bind_eq_ok,
    Except.require_eq_ok, findPda_eq_ok, Except.pure_eq_ok, Prod.mk.injEq]
  constructor
  · rintro ⟨-, hsigner, p, hpeer, -, hpmut, s, hstore, -, hsmut, -, htmut, t, hsource, e, hescrow,
      -, hmmut, m, hmint, -, hprogram, b, hevent, rfl, rfl, rfl⟩
    exact ⟨hsigner, hpeer, hpmut, hstore, hsmut, htmut, ⟨t, hsource⟩, ⟨e, hescrow⟩, hmmut, hmint,
      hprogram, b, hevent⟩
  · rintro ⟨hsigner, hpeer, hpmut, hstore, hsmut, htmut, ⟨t, hsource⟩, ⟨e, hescrow⟩, hmmut, hmint,
      hprogram, b, hevent⟩
    exact ⟨(), hsigner, peer, hpeer, (), hpmut, store, hstore, (), hsmut, (), htmut, t, hsource, e,
      hescrow, (), hmmut, mint, hmint, (), hprogram, b, hevent, rfl, rfl, rfl⟩

/-- **Locking.** An adapter counts what is received and transfers what is sent. -/
theorem takeTokens_adapter (htype : store.oftType = .adapter)
    (h : takeTokens env w ctx store mint sent received fee = .ok (w', store', es)) :
    ∃ tvlLd m, tvlLd.toNat = store.tvlLd.toNat + received.toNat ∧
      store' = { store with tvlLd := tvlLd } ∧ w.mints ctx.tokenMint.pubkey = some m ∧
      w.transferTokens ctx.tokenProgram.pubkey ctx.tokenSource.pubkey ctx.tokenEscrow.pubkey
        ctx.signer.pubkey sent.toNat (m.calculateFee env.epoch sent.toNat) = some w' ∧
      es = [.transferTokens ctx.tokenSource.pubkey ctx.tokenEscrow.pubkey ctx.signer.pubkey
        sent] := by
  rw [takeTokens] at h
  split at h
  case h_1 =>
    simp only [Except.bind_eq_ok, Except.ofOption_eq_ok, Word.checkedAdd_eq_some,
      transferChecked_eq_ok, Except.pure_eq_ok, Prod.mk.injEq] at h
    obtain ⟨tvlLd, htvl, w₁, ⟨t, m, -, hm, -, -, -, htransfer⟩, rfl, rfl, rfl⟩ := h
    exact ⟨tvlLd, m, htvl, rfl, hm, htransfer, rfl⟩
  case h_2 hnative => exact nomatch hnative.symm.trans htype

/-- **Burning.** A native OFT burns what is sent less the fee, and transfers the fee if there is
one. -/
theorem takeTokens_native (htype : store.oftType = .native)
    (h : takeTokens env w ctx store mint sent received fee = .ok (w', store', es)) :
    store' = store ∧ ∃ burnt : U64, burnt.toNat + fee.toNat = sent.toNat ∧ ∃ w₁,
      w.burnTokens ctx.tokenProgram.pubkey ctx.tokenMint.pubkey ctx.tokenSource.pubkey
        ctx.signer.pubkey burnt.toNat = some w₁ ∧
      ((w' = w₁ ∧ es = [.burnTokens ctx.tokenMint.pubkey ctx.tokenSource.pubkey ctx.signer.pubkey
          burnt]) ∨
        ((∃ m : Mint, w₁.transferTokens ctx.tokenProgram.pubkey ctx.tokenSource.pubkey
          ctx.tokenEscrow.pubkey ctx.signer.pubkey fee.toNat
          (m.calculateFee env.epoch fee.toNat) = some w') ∧
        es = [.burnTokens ctx.tokenMint.pubkey ctx.tokenSource.pubkey ctx.signer.pubkey burnt,
          .transferTokens ctx.tokenSource.pubkey ctx.tokenEscrow.pubkey ctx.signer.pubkey
            fee])) := by
  simp only [takeTokens, htype, Except.bind_eq_ok, Except.ofOption_eq_ok,
    Word.checkedSub_eq_some, burn_eq_ok] at h
  obtain ⟨burnt, hburnt, w₁, hburn, h⟩ := h
  split at h
  case isTrue =>
    simp only [Except.bind_eq_ok, transferChecked_eq_ok, Except.pure_eq_ok, Prod.mk.injEq] at h
    obtain ⟨w₂, ⟨t, m, -, -, -, -, -, htransfer⟩, rfl, rfl, rfl⟩ := h
    exact ⟨rfl, burnt, hburnt, w₁, hburn, Or.inr ⟨⟨m, htransfer⟩, rfl⟩⟩
  case isFalse =>
    simp only [Except.pure_eq_ok, Prod.mk.injEq] at h
    obtain ⟨rfl, rfl, rfl⟩ := h
    exact ⟨rfl, burnt, hburnt, w₁, hburn, Or.inl ⟨rfl, rfl⟩⟩

/-- What is taken leaves the accounts of the program and the token accounts of others alone. -/
theorem frame_of_takeTokens
    (h : takeTokens env w ctx store mint sent received fee = .ok (w', store', es)) :
    w'.data = w.data ∧ store.SameSetup store' ∧ (store.InOrder → store'.InOrder) ∧
      es.filterMap Effect.sent? = [] ∧
      ∀ k, (∀ t, w.tokens k = some t → t.owner ≠ ctx.signer.pubkey) → w.Undebited w' k := by
  cases htype : store.oftType with
  | adapter =>
    obtain ⟨tvlLd, m, -, rfl, -, htransfer, rfl⟩ := takeTokens_adapter htype h
    refine ⟨(World.frame_of_transferTokens htransfer).1, .refl _, ?_, rfl, fun k hk => ?_⟩
    · rintro ⟨hrate, hfee, -⟩
      exact ⟨hrate, hfee, fun hnative => nomatch hnative.symm.trans htype⟩
    · exact World.undebited_of_transferTokens (fun t ht _ => hk t ht) htransfer
  | native =>
    obtain ⟨rfl, burnt, -, w₁, hburn, hrest⟩ := takeTokens_native htype h
    have hdata₁ : w₁.data = w.data := World.data_of_burnTokens hburn
    have hburnt : ∀ k, (∀ t, w.tokens k = some t → t.owner ≠ ctx.signer.pubkey) →
        w.Undebited w₁ k := fun k hk =>
      World.undebited_of_burnTokens (fun t ht _ => hk t ht) hburn
    rcases hrest with ⟨rfl, rfl⟩ | ⟨⟨m, htransfer⟩, rfl⟩
    · exact ⟨hdata₁, .refl _, id, rfl, hburnt⟩
    · refine ⟨(World.frame_of_transferTokens htransfer).1.trans hdata₁, .refl _, id, rfl, ?_⟩
      intro k hk t ht
      have hrest : w₁.Undebited w' k :=
        World.undebited_of_transferTokens (fun t' ht' _ => by
          rw [(hburnt k hk).owner_eq ht ht']
          exact hk t ht) htransfer
      exact (hburnt k hk).trans hrest t ht

/-- A send that goes through, step by step: the accounts it loads, the amounts, the peer after
its rate limits, the world and the store after the tokens were taken, and the message. -/
structure Trace (P : Platform) (env : Env) (w : OFTWorld) (ctx : Send) (params : SendParams)
    (w' : OFTWorld) (es : List OFTEffect) (oftReceipt : OFTReceipt) where
  store : OFTStore
  peer : PeerConfig
  mint : Mint
  fee : U64
  limited : PeerConfig
  taken : OFTWorld
  store' : OFTStore
  moved : List OFTEffect
  amountSd : U64
  options : Bytes
  guid : ByteArr 32
  accounts : Accounts P w ctx params store peer mint
  unpaused : store.paused = false
  amounts : computeFeeAndAdjustAmount env params.amountLd store mint peer.feeBps =
    .ok (oftReceipt.amountSentLd, oftReceipt.amountReceivedLd, fee)
  slippage : params.minAmountLd ≤ oftReceipt.amountReceivedLd
  limits : consumeOutbound env peer oftReceipt.amountReceivedLd = .ok limited
  tokens : takeTokens env w ctx store mint oftReceipt.amountSentLd oftReceipt.amountReceivedLd
    fee = .ok (taken, store', moved)
  shared : store'.ld2sd oftReceipt.amountReceivedLd = .ok amountSd
  data_eq : w'.data = Function.update
    (Function.update taken.data ctx.peer.pubkey (some (.peerConfig limited)))
    ctx.oftStore.pubkey (some (.oftStore store'))
  tokens_eq : w'.tokens = taken.tokens
  mints_eq : w'.mints = taken.mints
  effects_eq : es = moved ++ [.endpointSend store'.endpointProgram ctx.oftStore.pubkey
    ctx.remainingAccounts (ctx.sendParams params limited amountSd options),
    .event (.oftSent guid params.dstEid ctx.tokenSource.pubkey oftReceipt.amountSentLd
      oftReceipt.amountReceivedLd)]

/-- **A send** takes tokens, hands the endpoint one message with the amount received in shared
decimals, and writes the peer and the store. -/
theorem nonempty_trace {receipt : MessagingReceipt} {oftReceipt : OFTReceipt}
    (h : apply P env w ctx params = .ok (w', es, receipt, oftReceipt)) :
    Nonempty (Trace P env w ctx params w' es oftReceipt) := by
  simp only [apply, Except.bind_eq_ok, Except.require_eq_ok, Except.ofOption_eq_ok,
    Except.pure_eq_ok, Prod.mk.injEq] at h
  obtain ⟨⟨store, peer, mint⟩, haccounts, -, hpaused, ⟨sent, received, fee⟩, hcompute, -, hmin,
    peer', hpeer, ⟨w₁, store', es₁⟩, htake, sender, -, -, -, amountSd, hsd, options, -,
    ⟨w₂, receipt'⟩, hsend, -, -, rfl, rfl, rfl, rfl⟩ := h
  obtain ⟨lamports, -, rfl⟩ := endpointSend_eq_ok.mp hsend
  exact ⟨⟨store, peer, mint, fee, peer', w₁, store', es₁, amountSd, options, _,
    tryAccounts_eq_ok.mp haccounts, hpaused, hcompute, hmin, hpeer, htake, hsd, rfl, rfl, rfl,
    rfl⟩⟩

/-- A send that goes through writes its peer and its store, over the accounts there were. -/
theorem Trace.data_update {oftReceipt : OFTReceipt}
    (t : Trace P env w ctx params w' es oftReceipt) :
    w'.data = Function.update
      (Function.update w.data ctx.peer.pubkey (some (.peerConfig t.limited)))
      ctx.oftStore.pubkey (some (.oftStore t.store')) := by
  rw [t.data_eq, (frame_of_takeTokens t.tokens).1]

theorem Trace.store_written {oftReceipt : OFTReceipt}
    (t : Trace P env w ctx params w' es oftReceipt) :
    w'.data ctx.oftStore.pubkey = some (.oftStore t.store') := by
  rw [t.data_update, Function.update_self]

/-- A send hands the endpoint one message. -/
theorem Trace.sent_eq {oftReceipt : OFTReceipt} (t : Trace P env w ctx params w' es oftReceipt) :
    es.filterMap Effect.sent? = [ctx.sendParams params t.limited t.amountSd t.options] := by
  obtain ⟨-, -, -, hmoved, -⟩ := frame_of_takeTokens t.tokens
  refine (congrArg (List.filterMap Effect.sent?) t.effects_eq).trans ?_
  rw [List.filterMap_append, hmoved, List.nil_append]
  rfl

/-- A send writes its peer and its store. -/
theorem writes {receipt : MessagingReceipt} {oftReceipt : OFTReceipt}
    (h : apply P env w ctx params = .ok (w', es, receipt, oftReceipt)) :
    Writes P w.data w'.data := by
  obtain ⟨t⟩ := nonempty_trace h
  obtain ⟨hbump, hfee, -, -⟩ := frame_of_consumeOutbound t.limits
  obtain ⟨-, hsetup, horder, -⟩ := frame_of_takeTokens t.tokens
  exact writes_peer_store t.accounts.peer_data t.accounts.store_data hbump hfee hsetup horder
    t.data_update

end Send

namespace LzReceive

variable {ctx : LzReceive} {params : LzReceiveParams} {amountLd received : U64}

/-- The account constraints of a delivery, met by a store, a peer and a mint, and the world after
the recipient's token account was created if needed. -/
structure Accounts (P : Platform) (w : OFTWorld) (ctx : LzReceive) (params : LzReceiveParams)
    (w' : OFTWorld) (store : OFTStore) (peer : PeerConfig) (mint : Mint) : Prop where
  payer_signed : ctx.payer.isSigner = true
  payer_writable : ctx.payer.isWritable = true
  peer_loaded : loadPda (E := OFTError) P peerKind PeerConfig.bump w
    (peerSeeds ctx.oftStore.pubkey params.srcEid) ctx.peer = .ok peer
  peer_writable : ctx.peer.isWritable = true
  sender_eq : peer.peerAddress = params.sender
  store_loaded : loadStore P w ctx.oftStore = .ok store
  store_writable : ctx.oftStore.isWritable = true
  escrow_loaded : ∃ t, loadEscrow w store ctx.oftStore ctx.tokenEscrow ctx.tokenMint
    ctx.tokenProgram = .ok t
  to_address : MsgCodec.sendTo params.message = some ctx.toAddress.pubkey
  mint_writable : ctx.tokenMint.isWritable = true
  mint_loaded : loadStoreMint w store ctx.tokenMint ctx.tokenProgram = .ok mint
  mint_authority : ∀ a ∈ ctx.mintAuthority, mint.mintAuthority = some a.pubkey
  token_program : ctx.tokenProgram.pubkey = P.tokenProgram ∨
    ctx.tokenProgram.pubkey = P.token2022Program
  associated_token_program : ctx.associatedTokenProgram.pubkey = P.associatedTokenProgram
  system_program : ctx.systemProgram.pubkey = P.systemProgram
  event_authority : ∃ b, P.findProgramAddress eventAuthoritySeeds =
    some (ctx.eventAuthority.pubkey, b)
  dest_created : initAssociatedIfNeeded (E := OFTError) P w ctx.payer ctx.tokenDest
    ctx.tokenMint.pubkey ctx.toAddress.pubkey ctx.tokenProgram.pubkey = .ok w'

theorem Accounts.peer_data (h : Accounts P w ctx params w' store peer mint) :
    w.data ctx.peer.pubkey = some (.peerConfig peer) :=
  (loadPda_eq_ok.mp h.peer_loaded).1

theorem Accounts.store_data (h : Accounts P w ctx params w' store peer mint) :
    w.data ctx.oftStore.pubkey = some (.oftStore store) :=
  (loadStore_eq_ok.mp h.store_loaded).1

theorem tryAccounts_eq_ok :
    tryAccounts P w ctx params = .ok (w', store, peer, mint) ↔
      Accounts P w ctx params w' store peer mint := by
  simp only [tryAccounts, signer, writable, tokenInterface, Solana.program, Except.bind_eq_ok,
    Except.require_eq_ok, Except.ofOption_eq_ok, findPda_eq_ok, Except.pure_eq_ok, Prod.mk.injEq]
  constructor
  · rintro ⟨-, hsigner, -, hmut, p, hpeer, -, hpmut, -, hsender, s, hstore, -, hsmut, e, hescrow,
      to', hto, -, rfl, -, hmmut, m, hmint, -, hauthority, -, hprogram, -, hata, -, hsystem, b,
      hevent, w₁, hinit, rfl, rfl, rfl, rfl⟩
    exact ⟨hsigner, hmut, hpeer, hpmut, hsender, hstore, hsmut, ⟨e, hescrow⟩, hto, hmmut, hmint,
      hauthority, hprogram, hata, hsystem, ⟨b, hevent⟩, hinit⟩
  · rintro ⟨hsigner, hmut, hpeer, hpmut, hsender, hstore, hsmut, ⟨e, hescrow⟩, hto, hmmut, hmint,
      hauthority, hprogram, hata, hsystem, ⟨b, hevent⟩, hinit⟩
    exact ⟨(), hsigner, (), hmut, peer, hpeer, (), hpmut, (), hsender, store, hstore, (), hsmut, e,
      hescrow, _, hto, (), rfl, (), hmmut, mint, hmint, (), hauthority, (), hprogram, (), hata, (),
      hsystem, b, hevent, w', hinit, rfl, rfl, rfl, rfl⟩

/-- **Unlocking.** An adapter stops counting the amount and transfers it. -/
theorem releaseTokens_adapter (htype : store.oftType = .adapter)
    (h : releaseTokens env w ctx store mint amountLd = .ok (w', store', received, es)) :
    ∃ (tvlLd : U64) (m : Mint), tvlLd.toNat + amountLd.toNat = store.tvlLd.toNat ∧
      store' = { store with tvlLd := tvlLd } ∧
      w.transferTokens ctx.tokenProgram.pubkey ctx.tokenEscrow.pubkey ctx.tokenDest.pubkey
        ctx.oftStore.pubkey amountLd.toNat (m.calculateFee env.epoch amountLd.toNat) = some w' ∧
      es = [.transferTokens ctx.tokenEscrow.pubkey ctx.tokenDest.pubkey ctx.oftStore.pubkey
        amountLd] := by
  rw [releaseTokens] at h
  split at h
  case h_1 =>
    simp only [Except.bind_eq_ok, Except.ofOption_eq_ok, Word.checkedSub_eq_some,
      transferChecked_eq_ok, Except.pure_eq_ok, Prod.mk.injEq] at h
    obtain ⟨tvlLd, htvl, w₁, ⟨t, m, -, -, -, -, -, htransfer⟩, post, -, rfl, rfl, rfl, rfl⟩ := h
    exact ⟨tvlLd, m, htvl, rfl, htransfer, rfl⟩
  case h_2 hnative _ => exact nomatch hnative.symm.trans htype
  case h_3 => cases h

/-- **Minting.** A native OFT mints the amount. -/
theorem releaseTokens_native (htype : store.oftType = .native)
    (h : releaseTokens env w ctx store mint amountLd = .ok (w', store', received, es)) :
    store' = store ∧
      w.mintTokens ctx.tokenProgram.pubkey ctx.tokenMint.pubkey ctx.tokenDest.pubkey
        amountLd.toNat = some w' ∧
      es = [.mintTokens ctx.tokenMint.pubkey ctx.tokenDest.pubkey amountLd] := by
  rw [releaseTokens] at h
  split at h
  case h_1 hadapter => exact nomatch hadapter.symm.trans htype
  case h_2 =>
    simp only [Except.bind_eq_ok, mintTo_eq_ok, Except.pure_eq_ok, Prod.mk.injEq] at h
    obtain ⟨w₁, ⟨m, -, -, -, hmint⟩, rfl, rfl, rfl, rfl⟩ := h
    exact ⟨rfl, hmint, rfl⟩
  case h_3 => cases h

/-- What is released leaves the accounts of the program and the token accounts of others
alone. -/
theorem frame_of_releaseTokens
    (h : releaseTokens env w ctx store mint amountLd = .ok (w', store', received, es)) :
    w'.data = w.data ∧ store.SameSetup store' ∧ (store.InOrder → store'.InOrder) ∧
      ∀ k, (∀ t, w.tokens k = some t → t.owner ≠ ctx.oftStore.pubkey) → w.Undebited w' k := by
  cases htype : store.oftType with
  | adapter =>
    obtain ⟨tvlLd, m, -, rfl, htransfer, -⟩ := releaseTokens_adapter htype h
    refine ⟨(World.frame_of_transferTokens htransfer).1, .refl _, ?_, fun k hk => ?_⟩
    · rintro ⟨hrate, hfee, -⟩
      exact ⟨hrate, hfee, fun hnative => nomatch hnative.symm.trans htype⟩
    · exact World.undebited_of_transferTokens (fun t ht _ => hk t ht) htransfer
  | native =>
    obtain ⟨rfl, hmint, -⟩ := releaseTokens_native htype h
    exact ⟨World.data_of_mintTokens hmint, .refl _, id, fun k _ =>
      World.undebited_of_mintTokens hmint⟩

/-- Composing is a call of the endpoint. -/
theorem of_compose_eq_ok
    (h : compose P env w ctx params store received = .ok (w', es)) :
    (∃ lamports, w' = { w with lamports := lamports }) ∧
      (es = [] ∨ ∃ program sender accounts call, es = [.endpointCall program sender accounts
        call]) := by
  rw [compose] at h
  split at h
  case h_1 =>
    simp only [Except.bind_eq_ok, endpointCall_eq_ok, Except.pure_eq_ok, Prod.mk.injEq] at h
    obtain ⟨w₁, ⟨lamports, -, rfl⟩, rfl, rfl⟩ := h
    exact ⟨⟨lamports, rfl⟩, Or.inr ⟨_, _, _, _, rfl⟩⟩
  case h_2 =>
    simp only [Except.pure_eq_ok, Prod.mk.injEq] at h
    obtain ⟨rfl, rfl⟩ := h
    exact ⟨⟨w.lamports, rfl⟩, Or.inl rfl⟩

/-- A delivery that goes through, step by step: the accounts it loads, the amount, the peer
after its rate limits, and the world and the store after the tokens were released. -/
structure Trace (P : Platform) (env : Env) (w : OFTWorld) (ctx : LzReceive)
    (params : LzReceiveParams) (w' : OFTWorld) (es : List OFTEffect) where
  loaded : OFTWorld
  store : OFTStore
  peer : PeerConfig
  mint : Mint
  lamports : Pubkey → ℕ
  amountSd : U64
  amountLd : U64
  limited : PeerConfig
  released : OFTWorld
  store' : OFTStore
  received : U64
  moved : List OFTEffect
  composed : List OFTEffect
  accounts : Accounts P w ctx params loaded store peer mint
  unpaused : store.paused = false
  shared : MsgCodec.amountSd params.message = some amountSd
  local_eq : store.sd2ld amountSd = .ok amountLd
  limits : consumeInbound env peer amountLd = .ok limited
  tokens : releaseTokens env { loaded with lamports := lamports } ctx store mint amountLd =
    .ok (released, store', received, moved)
  data_eq : w'.data = Function.update
    (Function.update released.data ctx.peer.pubkey (some (.peerConfig limited)))
    ctx.oftStore.pubkey (some (.oftStore store'))
  tokens_eq : w'.tokens = released.tokens
  mints_eq : w'.mints = released.mints
  effects_eq : es = [.endpointCall store'.endpointProgram ctx.oftStore.pubkey
    (ctx.remainingAccounts.take P.clearMinAccountsLen) (.clear (ctx.clearParams params))] ++
      moved ++ composed ++
      [.event (.oftReceived params.guid params.srcEid ctx.toAddress.pubkey received)]
  composes : ∃ w₁, compose P env released ctx params store' received = .ok (w₁, composed)

/-- **A delivery** clears its message, releases the amount the message says in shared decimals,
and writes the peer and the store. -/
theorem nonempty_trace (h : apply P env w ctx params = .ok (w', es)) :
    Nonempty (Trace P env w ctx params w' es) := by
  simp only [apply, Except.bind_eq_ok, Except.require_eq_ok, Except.ofOption_eq_ok,
    Except.pure_eq_ok, Prod.mk.injEq] at h
  obtain ⟨⟨w₁, store, peer, mint⟩, haccounts, -, hpaused, -, -, w₂, hclear, amountSd, hsd,
    amountLd, hld, peer', hpeer, ⟨w₃, store', received, es₁⟩, hrelease, ⟨w₄, es₂⟩, hcompose, -, -,
    rfl, rfl⟩ := h
  obtain ⟨lamports, -, rfl⟩ := endpointCall_eq_ok.mp hclear
  obtain ⟨⟨lamports', rfl⟩, -⟩ := of_compose_eq_ok hcompose
  exact ⟨⟨w₁, store, peer, mint, lamports, amountSd, amountLd, peer', w₃, store', received, es₁,
    es₂, tryAccounts_eq_ok.mp haccounts, hpaused, hsd, hld, hpeer, hrelease, rfl, rfl, rfl,
    rfl, _, hcompose⟩⟩

/-- A delivery that goes through writes its peer and its store, over the accounts there were. -/
theorem Trace.data_update (t : Trace P env w ctx params w' es) :
    w'.data = Function.update
      (Function.update w.data ctx.peer.pubkey (some (.peerConfig t.limited)))
      ctx.oftStore.pubkey (some (.oftStore t.store')) := by
  have hloaded : t.loaded.data = w.data := data_of_initAssociatedIfNeeded t.accounts.dest_created
  have hreleased : t.released.data = t.loaded.data := (frame_of_releaseTokens t.tokens).1
  rw [t.data_eq, hreleased, hloaded]

theorem Trace.store_written (t : Trace P env w ctx params w' es) :
    w'.data ctx.oftStore.pubkey = some (.oftStore t.store') := by
  rw [t.data_update, Function.update_self]

/-- Of the effects of a delivery, those that are no calls of the endpoint and no events are the
ones that move tokens. -/
theorem Trace.filterMap_effects (t : Trace P env w ctx params w' es) {α : Type}
    {f : OFTEffect → Option α}
    (hcall : ∀ program sender accounts call, f (.endpointCall program sender accounts call) = none)
    (hevent : ∀ event, f (.event event) = none) : es.filterMap f = t.moved.filterMap f := by
  have hcomposed : t.composed.filterMap f = [] := by
    obtain ⟨w₁, hcompose⟩ := t.composes
    rcases (of_compose_eq_ok hcompose).2 with h | ⟨program, sender, accounts, call, h⟩
    · rw [h, List.filterMap_nil]
    · rw [h, List.filterMap_cons, hcall]
      rfl
  refine (congrArg (List.filterMap f) t.effects_eq).trans ?_
  simp only [List.filterMap_append, List.filterMap_cons, List.filterMap_nil, hcall, hevent,
    hcomposed, List.nil_append, List.append_nil]

/-- A delivery writes its peer and its store. -/
theorem writes (h : apply P env w ctx params = .ok (w', es)) : Writes P w.data w'.data := by
  obtain ⟨t⟩ := nonempty_trace h
  obtain ⟨hbump, hfee⟩ := frame_of_consumeInbound t.limits
  obtain ⟨-, hsetup, horder, -⟩ := frame_of_releaseTokens t.tokens
  exact writes_peer_store t.accounts.peer_data t.accounts.store_data hbump hfee hsetup horder
    t.data_update

end LzReceive

end Success

end Oft
