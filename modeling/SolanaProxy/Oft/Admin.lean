import SolanaProxy.Oft.Store
import SolanaProxy.Solana.TokenInterface

/-!
# Set-up and administration of the OFT

`init_oft`, which creates a store with its escrow, the three instructions that change a
configuration, and `withdraw_fee`. For each of them one theorem says what its success means:
which accounts of the program were written (`Writes`) and what happened to token accounts.
-/

namespace Oft

open Solana

/-! ### Accounts that several instructions load -/

/-- A store at the address for its escrow. -/
def loadStore (P : Platform) (w : OFTWorld) (a : AccountInfo) : Result OFTError OFTStore := do
  let store ← loadAccount OFTStore.kind w a
  checkSeeds P (oftSeeds store.tokenEscrow) store.bump a
  return store

/-- A store, loaded for an instruction of its admin: `has_one = admin`. -/
def loadStoreFor (P : Platform) (w : OFTWorld) (admin oftStore : AccountInfo) :
    Result OFTError OFTStore := do
  signer admin
  let store ← loadStore P w oftStore
  Except.require (store.admin = admin.pubkey) (.program .unauthorized)
  return store

/-- The mint of a store. -/
def loadStoreMint (w : OFTWorld) (store : OFTStore) (tokenMint tokenProgram : AccountInfo) :
    Result OFTError Mint := do
  let mint ← loadMint w tokenMint tokenProgram.pubkey
  Except.require (tokenMint.pubkey = store.tokenMint) (.anchor .constraintAddress)
  return mint

/-- The escrow of a store, owned by the store. -/
def loadEscrow (w : OFTWorld) (store : OFTStore) (oftStore tokenEscrow tokenMint tokenProgram :
    AccountInfo) : Result OFTError TokenAccount := do
  writable tokenEscrow
  let escrow ← loadToken w tokenEscrow tokenMint.pubkey oftStore.pubkey tokenProgram.pubkey
  Except.require (tokenEscrow.pubkey = store.tokenEscrow) (.anchor .constraintAddress)
  return escrow

section Load

variable {P : Platform} {w : OFTWorld} {store : OFTStore} {mint : Mint} {escrow : TokenAccount}
  {admin oftStore tokenEscrow tokenMint tokenProgram : AccountInfo}

theorem loadStore_eq_ok :
    loadStore P w oftStore = .ok store ↔ w.data oftStore.pubkey = some (.oftStore store) ∧
      P.createProgramAddress (oftSeeds store.tokenEscrow ++ [store.bump]) =
        some oftStore.pubkey := by
  simp only [loadStore, loadAccount, checkSeeds, Except.bind_eq_ok, Except.ofOption_eq_ok,
    Except.require_eq_ok, Except.pure_eq_ok, World.load_eq_some, OFTStore.wrap_kind]
  constructor
  · rintro ⟨s, hload, -, hseeds, rfl⟩
    exact ⟨hload, hseeds⟩
  · rintro ⟨hload, hseeds⟩
    exact ⟨store, hload, (), hseeds, rfl⟩

theorem loadStoreFor_eq_ok :
    loadStoreFor P w admin oftStore = .ok store ↔ admin.isSigner = true ∧
      loadStore P w oftStore = .ok store ∧ store.admin = admin.pubkey := by
  simp only [loadStoreFor, signer, Except.bind_eq_ok, Except.require_eq_ok, Except.pure_eq_ok]
  constructor
  · rintro ⟨-, hsigner, s, hload, -, hadmin, rfl⟩
    exact ⟨hsigner, hload, hadmin⟩
  · rintro ⟨hsigner, hload, hadmin⟩
    exact ⟨(), hsigner, store, hload, (), hadmin, rfl⟩

theorem loadStoreMint_eq_ok :
    loadStoreMint w store tokenMint tokenProgram = .ok mint ↔
      w.mints tokenMint.pubkey = some mint ∧ mint.program = tokenProgram.pubkey ∧
        tokenMint.pubkey = store.tokenMint := by
  simp only [loadStoreMint, Except.bind_eq_ok, loadMint_eq_ok, Except.require_eq_ok,
    Except.pure_eq_ok]
  constructor
  · rintro ⟨m, ⟨hmint, hprogram⟩, -, haddress, rfl⟩
    exact ⟨hmint, hprogram, haddress⟩
  · rintro ⟨hmint, hprogram, haddress⟩
    exact ⟨mint, ⟨hmint, hprogram⟩, (), haddress, rfl⟩

theorem loadEscrow_eq_ok :
    loadEscrow w store oftStore tokenEscrow tokenMint tokenProgram = .ok escrow ↔
      tokenEscrow.isWritable = true ∧ w.tokens tokenEscrow.pubkey = some escrow ∧
        escrow.owner = oftStore.pubkey ∧ escrow.mint = tokenMint.pubkey ∧
        escrow.program = tokenProgram.pubkey ∧ tokenEscrow.pubkey = store.tokenEscrow := by
  simp only [loadEscrow, writable, Except.bind_eq_ok, loadToken_eq_ok, Except.require_eq_ok,
    Except.pure_eq_ok]
  constructor
  · rintro ⟨-, hmut, t, ⟨ht, howner, hmint, hprogram⟩, -, haddress, rfl⟩
    exact ⟨hmut, ht, howner, hmint, hprogram, haddress⟩
  · rintro ⟨hmut, ht, howner, hmint, hprogram, haddress⟩
    exact ⟨(), hmut, escrow, ⟨ht, howner, hmint, hprogram⟩, (), haddress, rfl⟩

end Load

/-! ### Set-up -/

/-- The accounts of `init_oft`. -/
structure InitOFT where
  payer : AccountInfo
  oftStore : AccountInfo
  lzReceiveTypesAccounts : AccountInfo
  tokenMint : AccountInfo
  tokenEscrow : AccountInfo
  tokenProgram : AccountInfo
  systemProgram : AccountInfo
  remainingAccounts : List AccountInfo

/-- The parameters of `init_oft`. -/
structure InitOFTParams where
  oftType : OFTType
  admin : Pubkey
  sharedDecimals : U8
  endpointProgram : Option Pubkey
deriving DecidableEq

namespace InitOFT

/-- The store written for the parameters. -/
def store (P : Platform) (ctx : InitOFT) (params : InitOFTParams) (ld2sdRate : U64) (bump : U8) :
    OFTStore where
  oftType := params.oftType
  ld2sdRate := ld2sdRate
  tokenMint := ctx.tokenMint.pubkey
  tokenEscrow := ctx.tokenEscrow.pubkey
  endpointProgram := params.endpointProgram.getD P.endpointId
  bump := bump
  tvlLd := 0#64
  admin := params.admin
  defaultFeeBps := 0#16
  paused := false
  pauser := none
  unpauser := none

/-- The store is created, with the rate of the decimals, and registered with the endpoint. -/
def apply (P : Platform) (env : Env) (w : OFTWorld) (ctx : InitOFT) (params : InitOFTParams) :
    Result OFTError (OFTWorld × List OFTEffect) := do
  signer ctx.payer
  writable ctx.payer
  let mint ← loadMint w ctx.tokenMint ctx.tokenProgram.pubkey
  tokenInterface P ctx.tokenProgram
  program ctx.systemProgram P.systemProgram
  let (w, bump) ← init P OFTStore.kind OFTStore.zero w (oftSeeds ctx.tokenEscrow.pubkey)
    ctx.payer ctx.oftStore (8 + OFTStore.initSpace)
  let (w, _) ← init P LzReceiveTypesAccounts.kind LzReceiveTypesAccounts.zero w
    (lzReceiveTypesSeeds ctx.oftStore.pubkey) ctx.payer ctx.lzReceiveTypesAccounts
    (8 + LzReceiveTypesAccounts.initSpace)
  let w ← initToken P w ctx.payer ctx.tokenEscrow ctx.tokenMint.pubkey ctx.oftStore.pubkey
    ctx.tokenProgram.pubkey
  Except.require (params.sharedDecimals ≤ mint.decimals) (.program .invalidDecimals)
  let ld2sdRate ← Except.ofOption .panic
    (Word.checkedPow 10#64 (mint.decimals - params.sharedDecimals).toNat)
  let oftStore := ctx.store P params ld2sdRate bump
  let w := w.store OFTStore.kind ctx.oftStore.pubkey oftStore
  let w := w.store LzReceiveTypesAccounts.kind ctx.lzReceiveTypesAccounts.pubkey
    ⟨ctx.oftStore.pubkey, ctx.tokenMint.pubkey⟩
  let w ← endpointCall env w oftStore.endpointProgram ctx.oftStore.pubkey ctx.remainingAccounts
    (.registerOapp params.admin)
  return (w, [.endpointCall oftStore.endpointProgram ctx.oftStore.pubkey ctx.remainingAccounts
    (.registerOapp params.admin)])

end InitOFT

/-! ### Settings -/

/-- The accounts of `set_oft_config`. -/
structure SetOFTConfig where
  admin : AccountInfo
  oftStore : AccountInfo
  remainingAccounts : List AccountInfo

/-- One setting of a store. -/
inductive SetOFTConfigParams where
  | admin (admin : Pubkey)
  | delegate (delegate : Pubkey)
  | defaultFee (feeBps : U16)
  | paused (paused : Bool)
  | pauser (pauser : Option Pubkey)
  | unpauser (unpauser : Option Pubkey)
deriving DecidableEq

/-- The setting applied to the store; the delegate is not part of it but the endpoint's. -/
def SetOFTConfig.set (env : Env) (w : OFTWorld) (ctx : SetOFTConfig) (store : OFTStore) :
    SetOFTConfigParams → Result OFTError (OFTWorld × OFTStore × List OFTEffect)
  | .admin admin => return (w, { store with admin := admin }, [])
  | .delegate delegate => do
    let w ← endpointCall env w store.endpointProgram ctx.oftStore.pubkey ctx.remainingAccounts
      (.setDelegate delegate)
    return (w, store, [.endpointCall store.endpointProgram ctx.oftStore.pubkey
      ctx.remainingAccounts (.setDelegate delegate)])
  | .defaultFee feeBps => do
    Except.require (feeBps < maxFeeBasisPoints) (.program .invalidFee)
    return (w, { store with defaultFeeBps := feeBps }, [])
  | .paused paused => return (w, { store with paused := paused }, [])
  | .pauser pauser => return (w, { store with pauser := pauser }, [])
  | .unpauser unpauser => return (w, { store with unpauser := unpauser }, [])

/-- The admin changes one setting of the store. -/
def SetOFTConfig.apply (P : Platform) (env : Env) (w : OFTWorld) (ctx : SetOFTConfig)
    (params : SetOFTConfigParams) : Result OFTError (OFTWorld × List OFTEffect) := do
  let store ← loadStoreFor P w ctx.admin ctx.oftStore
  writable ctx.oftStore
  let (w, store, es) ← ctx.set env w store params
  return (w.store OFTStore.kind ctx.oftStore.pubkey store, es)

/-- The accounts of `set_pause`. -/
structure SetPause where
  signer : AccountInfo
  oftStore : AccountInfo

/-- The parameters of `set_pause`. -/
structure SetPauseParams where
  paused : Bool
deriving DecidableEq

/-- Whether a key may pause, or unpause. -/
def isValidSigner (signer : Pubkey) (oftStore : OFTStore) (paused : Bool) : Bool :=
  if paused then oftStore.pauser = some signer else oftStore.unpauser = some signer

/-- The pauser pauses, the unpauser unpauses. -/
def SetPause.apply (P : Platform) (w : OFTWorld) (ctx : SetPause) (params : SetPauseParams) :
    Result OFTError (OFTWorld × List OFTEffect) := do
  Solana.signer ctx.signer
  let store ← loadStore P w ctx.oftStore
  writable ctx.oftStore
  Except.require (isValidSigner ctx.signer.pubkey store params.paused = true)
    (.program .unauthorized)
  return (w.store OFTStore.kind ctx.oftStore.pubkey { store with paused := params.paused }, [])

/-- The accounts of `set_peer_config`. -/
structure SetPeerConfig where
  admin : AccountInfo
  peer : AccountInfo
  oftStore : AccountInfo
  systemProgram : AccountInfo

/-- The account is written only if its content fits the space it was created with. -/
def SetPeerConfig.apply (P : Platform) (env : Env) (w : OFTWorld) (ctx : SetPeerConfig)
    (params : SetPeerConfigParams) : Result OFTError (OFTWorld × List OFTEffect) := do
  writable ctx.admin
  let _ ← loadStoreFor P w ctx.admin ctx.oftStore
  let (w, peer, bump) ← initIfNeeded P peerKind PeerConfig.zero w
    (peerSeeds ctx.oftStore.pubkey params.remoteEid) ctx.admin ctx.peer (8 + PeerConfig.initSpace)
  program ctx.systemProgram P.systemProgram
  let peer ← peer.set P env .invalidFee params.config
  Except.require (peer.serializedLen ≤ PeerConfig.initSpace)
    (.anchor .accountDidNotSerialize)
  return (w.store peerKind ctx.peer.pubkey { peer with bump := bump }, [])

/-! ### Withdrawal -/

/-- The accounts of `withdraw_fee`. -/
structure WithdrawFee where
  admin : AccountInfo
  oftStore : AccountInfo
  tokenMint : AccountInfo
  tokenEscrow : AccountInfo
  tokenDest : AccountInfo
  tokenProgram : AccountInfo

/-- The parameters of `withdraw_fee`. -/
structure WithdrawFeeParams where
  feeLd : U64
deriving DecidableEq

namespace WithdrawFee

/-- The account constraints: the store, its mint and its escrow. -/
def tryAccounts (P : Platform) (w : OFTWorld) (ctx : WithdrawFee) :
    Result OFTError (OFTStore × Mint × TokenAccount) := do
  let store ← loadStoreFor P w ctx.admin ctx.oftStore
  let mint ← loadStoreMint w store ctx.tokenMint ctx.tokenProgram
  let escrow ← loadEscrow w store ctx.oftStore ctx.tokenEscrow ctx.tokenMint ctx.tokenProgram
  writable ctx.tokenDest
  let _ ← loadTokenOfMint w ctx.tokenDest ctx.tokenMint.pubkey ctx.tokenProgram.pubkey
  tokenInterface P ctx.tokenProgram
  return (store, mint, escrow)

/-- What the escrow holds beyond the value locked may be withdrawn; the subtraction panics when
the escrow holds less. -/
def apply (P : Platform) (env : Env) (w : OFTWorld) (ctx : WithdrawFee)
    (params : WithdrawFeeParams) : Result OFTError (OFTWorld × List OFTEffect) := do
  let (store, mint, escrow) ← tryAccounts P w ctx
  Except.require (store.tvlLd.toNat ≤ escrow.amount) .panic
  Except.require (params.feeLd.toNat ≤ escrow.amount - store.tvlLd.toNat) (.program .invalidFee)
  let w ← transferChecked env w ctx.tokenProgram.pubkey ctx.tokenEscrow.pubkey
    ctx.tokenMint.pubkey ctx.tokenDest.pubkey ctx.oftStore.pubkey params.feeLd mint.decimals
  return (w, [.transferTokens ctx.tokenEscrow.pubkey ctx.tokenDest.pubkey ctx.oftStore.pubkey
    params.feeLd])

end WithdrawFee

/-! ### What success means -/

section Success

variable {P : Platform} {env : Env} {w w' : OFTWorld} {es : List OFTEffect}

/-- A set-up that goes through: the mint it loads, the rate, and the three accounts it creates. -/
structure InitOFT.Trace (P : Platform) (w : OFTWorld) (ctx : InitOFT) (params : InitOFTParams)
    (w' : OFTWorld) where
  mint : Mint
  ld2sdRate : U64
  bump : U8
  typesBump : U8
  mint_data : w.mints ctx.tokenMint.pubkey = some mint
  decimals_le : params.sharedDecimals ≤ mint.decimals
  rate_eq : ld2sdRate.toNat = 10 ^ (mint.decimals - params.sharedDecimals).toNat
  store_address : P.findProgramAddress (oftSeeds ctx.tokenEscrow.pubkey) =
    some (ctx.oftStore.pubkey, bump)
  types_address : P.findProgramAddress (lzReceiveTypesSeeds ctx.oftStore.pubkey) =
    some (ctx.lzReceiveTypesAccounts.pubkey, typesBump)
  store_new : w.data ctx.oftStore.pubkey = none
  types_new : w.data ctx.lzReceiveTypesAccounts.pubkey = none
  types_ne_store : ctx.lzReceiveTypesAccounts.pubkey ≠ ctx.oftStore.pubkey
  escrow_new : w.tokens ctx.tokenEscrow.pubkey = none
  data_eq : w'.data = Function.update
    (Function.update w.data ctx.oftStore.pubkey
      (some (.oftStore (ctx.store P params ld2sdRate bump))))
    ctx.lzReceiveTypesAccounts.pubkey
    (some (.lzReceiveTypesAccounts ⟨ctx.oftStore.pubkey, ctx.tokenMint.pubkey⟩))
  tokens_eq : w'.tokens = Function.update w.tokens ctx.tokenEscrow.pubkey
    (some ⟨ctx.tokenProgram.pubkey, ctx.tokenMint.pubkey, ctx.oftStore.pubkey, 0⟩)

/-- **Set-up** creates a store, its delivery accounts and its escrow, all of them new. -/
theorem InitOFT.nonempty_trace {ctx : InitOFT} {params : InitOFTParams}
    (h : apply P env w ctx params = .ok (w', es)) : Nonempty (Trace P w ctx params w') := by
  simp only [apply, Except.bind_eq_ok, Except.require_eq_ok, Except.ofOption_eq_ok,
    Word.checkedPow_eq_some, loadMint_eq_ok, Except.pure_eq_ok, Prod.mk.injEq] at h
  obtain ⟨-, -, -, -, mint, ⟨hmint, -⟩, -, -, -, -, ⟨w₁, bump⟩, hinit, ⟨w₂, bump'⟩, htypes, w₃,
    htoken, -, hdecimals, rate, hrate, w₄, hcall, rfl, rfl⟩ := h
  obtain ⟨hfind, hnew, hdata₁⟩ := data_of_init hinit
  obtain ⟨hfind', hnew', hdata₂⟩ := data_of_init htypes
  obtain ⟨hescrow, hdata₃, htokens₃⟩ := of_initToken_eq_ok htoken
  have htokens₁ : w₁.tokens = w.tokens := tokens_of_init hinit
  have htokens₂ : w₂.tokens = w₁.tokens := tokens_of_init htypes
  obtain ⟨lamports, -, rfl⟩ := endpointCall_eq_ok.mp hcall
  have hne : ctx.lzReceiveTypesAccounts.pubkey ≠ ctx.oftStore.pubkey := fun heq => by
    rw [hdata₁, heq, Function.update_self] at hnew'
    cases hnew'
  rw [hdata₁, Function.update_of_ne hne] at hnew'
  rw [htokens₂, htokens₁] at hescrow htokens₃
  refine ⟨⟨mint, rate, bump, bump', hmint, hdecimals, hrate, hfind, hfind', hnew, hnew', hne,
    hescrow, ?_, htokens₃⟩⟩
  -- the zeroed contents are overwritten
  simp only [World.data_store, hdata₃, hdata₂, hdata₁, OFTStore.wrap_kind,
    LzReceiveTypesAccounts.wrap_kind]
  rw [Function.update_comm hne.symm, Function.update_idem, Function.update_comm hne,
    Function.update_idem]

/-- After the set-up the new store is there. -/
theorem InitOFT.Trace.store_written {ctx : InitOFT} {params : InitOFTParams}
    (tr : Trace P w ctx params w') : w'.data ctx.oftStore.pubkey =
      some (.oftStore (ctx.store P params tr.ld2sdRate tr.bump)) := by
  rw [tr.data_eq, Function.update_of_ne tr.types_ne_store.symm, Function.update_self]

/-- Set-up writes two new accounts. -/
theorem InitOFT.writes {ctx : InitOFT} {params : InitOFTParams}
    (h : apply P env w ctx params = .ok (w', es)) : Writes P w.data w'.data := by
  obtain ⟨tr⟩ := nonempty_trace h
  have hfee : (0#16 : U16) < maxFeeBasisPoints := by decide
  have horder : (ctx.store P params tr.ld2sdRate tr.bump).InOrder :=
    ⟨⟨_, tr.rate_eq⟩, hfee, fun _ => rfl⟩
  rw [tr.data_eq]
  refine .tail (.single ⟨.newStore tr.store_new tr.store_address horder⟩)
    ⟨.newTypes ?_ tr.types_address⟩
  rw [Function.update_of_ne tr.types_ne_store, tr.types_new]

/-- A setting changes the configurable part of the store only. -/
theorem SetOFTConfig.of_set_eq_ok {ctx : SetOFTConfig} {params : SetOFTConfigParams}
    {store store' : OFTStore} (h : ctx.set env w store params = .ok (w', store', es)) :
    store.SameSetup store' ∧ store'.tvlLd = store.tvlLd ∧ (store.InOrder → store'.InOrder) ∧
      w'.data = w.data ∧ w'.tokens = w.tokens := by
  cases params with
  | delegate delegate =>
    simp only [set, Except.bind_eq_ok, Except.pure_eq_ok, Prod.mk.injEq] at h
    obtain ⟨w₁, hcall, rfl, rfl, -⟩ := h
    obtain ⟨lamports, -, rfl⟩ := endpointCall_eq_ok.mp hcall
    exact ⟨.refl _, rfl, id, rfl, rfl⟩
  | defaultFee feeBps =>
    simp only [set, Except.bind_eq_ok, Except.require_eq_ok, Except.pure_eq_ok,
      Prod.mk.injEq] at h
    obtain ⟨-, hfee, rfl, rfl, -⟩ := h
    refine ⟨.refl _, rfl, ?_, rfl, rfl⟩
    rintro ⟨hrate, -, htvl⟩
    exact ⟨hrate, hfee, htvl⟩
  | admin | paused | pauser | unpauser =>
    simp only [set, Except.pure_eq_ok, Prod.mk.injEq] at h
    obtain ⟨rfl, rfl, -⟩ := h
    exact ⟨.refl _, rfl, id, rfl, rfl⟩

/-- A setting writes the store and changes no token account. -/
theorem SetOFTConfig.of_apply_eq_ok {ctx : SetOFTConfig} {params : SetOFTConfigParams}
    (h : apply P env w ctx params = .ok (w', es)) :
    ∃ store store', w.data ctx.oftStore.pubkey = some (.oftStore store) ∧
      store.SameSetup store' ∧ store'.tvlLd = store.tvlLd ∧ (store.InOrder → store'.InOrder) ∧
      w'.data = Function.update w.data ctx.oftStore.pubkey (some (.oftStore store')) ∧
      w'.tokens = w.tokens := by
  simp only [apply, Except.bind_eq_ok, Except.pure_eq_ok, Prod.mk.injEq] at h
  obtain ⟨store, hstore, -, -, ⟨w₁, store', es₁⟩, hset, rfl, rfl⟩ := h
  obtain ⟨-, hload, -⟩ := loadStoreFor_eq_ok.mp hstore
  obtain ⟨hdata, -⟩ := loadStore_eq_ok.mp hload
  obtain ⟨hsame, htvl, horder, hdata₁, htokens⟩ := of_set_eq_ok hset
  refine ⟨store, store', hdata, hsame, htvl, horder, ?_, htokens⟩
  rw [World.data_store, hdata₁]
  rfl

theorem SetPause.of_apply_eq_ok {ctx : SetPause} {params : SetPauseParams}
    (h : apply P w ctx params = .ok (w', es)) :
    ∃ store, w.data ctx.oftStore.pubkey = some (.oftStore store) ∧
      isValidSigner ctx.signer.pubkey store params.paused = true ∧
      w' = w.store OFTStore.kind ctx.oftStore.pubkey { store with paused := params.paused } := by
  simp only [apply, Except.bind_eq_ok, Except.require_eq_ok, Except.pure_eq_ok,
    Prod.mk.injEq] at h
  obtain ⟨-, -, store, hload, -, -, -, hsigner, rfl, rfl⟩ := h
  obtain ⟨hdata, -⟩ := loadStore_eq_ok.mp hload
  exact ⟨store, hdata, hsigner, rfl⟩

/-- No setting of a peer makes its fee everything. -/
theorem peerInOrder_of_set {p p' : PeerConfig} {param : PeerConfigParam}
    (h : p.set P env OFTError.invalidFee param = .ok p') (hp : PeerInOrder p) :
    PeerInOrder p' := by
  obtain ⟨_, -, rfl⟩ | ⟨feeBps, -, hfee, rfl⟩ | ⟨_, _, -, rfl⟩ | ⟨_, _, -, -, rfl⟩ |
    ⟨_, _, -, -, rfl⟩ := PeerConfig.set_cases h
  · exact hp
  · exact hfee
  · exact hp
  · exact hp
  · exact hp

/-- A peer setting writes the peer and changes no token account. -/
theorem SetPeerConfig.of_apply_eq_ok {ctx : SetPeerConfig} {params : SetPeerConfigParams}
    (h : apply P env w ctx params = .ok (w', es)) :
    ∃ peer, AccountWrite P w.data ctx.peer.pubkey (.peerConfig peer) ∧
      w'.data = Function.update w.data ctx.peer.pubkey (some (.peerConfig peer)) ∧
      w'.tokens = w.tokens := by
  simp only [apply, Except.bind_eq_ok, Except.pure_eq_ok, Prod.mk.injEq] at h
  obtain ⟨-, -, store, -, ⟨w₁, p, bump⟩, hinit, -, -, peer, hset, -, -, rfl, rfl⟩ := h
  obtain ⟨hfind, hold, hdata⟩ := data_of_initIfNeeded hinit
  have htokens : w₁.tokens = w.tokens := tokens_of_initIfNeeded hinit
  refine ⟨{ peer with bump := bump }, .newPeer ?_ hfind fun hp => ?_, ?_, htokens⟩
  · exact hold.imp And.left fun hload => ⟨p, hload⟩
  · have hset' : PeerInOrder p → PeerInOrder peer := peerInOrder_of_set hset
    rcases hold with ⟨-, rfl⟩ | hload
    · refine hset' ?_
      intro bps hbps
      cases hbps
    · exact hset' (hp p hload)
  · rw [World.data_store, hdata]
    rfl

/-- The account constraints of a withdrawal, met by a store, its mint and its escrow. -/
structure WithdrawFee.Accounts (P : Platform) (w : OFTWorld) (ctx : WithdrawFee)
    (store : OFTStore) (mint : Mint) (escrow : TokenAccount) : Prop where
  store_loaded : loadStoreFor P w ctx.admin ctx.oftStore = .ok store
  mint_loaded : loadStoreMint w store ctx.tokenMint ctx.tokenProgram = .ok mint
  escrow_loaded : loadEscrow w store ctx.oftStore ctx.tokenEscrow ctx.tokenMint
    ctx.tokenProgram = .ok escrow
  dest_writable : ctx.tokenDest.isWritable = true
  dest_loaded : ∃ t, w.tokens ctx.tokenDest.pubkey = some t ∧ t.mint = ctx.tokenMint.pubkey ∧
    t.program = ctx.tokenProgram.pubkey
  token_program : ctx.tokenProgram.pubkey = P.tokenProgram ∨
    ctx.tokenProgram.pubkey = P.token2022Program

theorem WithdrawFee.Accounts.store_data {ctx : WithdrawFee} {store : OFTStore} {mint : Mint}
    {escrow : TokenAccount} (h : Accounts P w ctx store mint escrow) :
    w.data ctx.oftStore.pubkey = some (.oftStore store) := by
  obtain ⟨-, hload, -⟩ := loadStoreFor_eq_ok.mp h.store_loaded
  exact (loadStore_eq_ok.mp hload).1

theorem WithdrawFee.tryAccounts_eq_ok {ctx : WithdrawFee} {store : OFTStore} {mint : Mint}
    {escrow : TokenAccount} :
    tryAccounts P w ctx = .ok (store, mint, escrow) ↔ Accounts P w ctx store mint escrow := by
  simp only [tryAccounts, writable, tokenInterface, Except.bind_eq_ok, Except.require_eq_ok,
    loadTokenOfMint_eq_ok, Except.pure_eq_ok, Prod.mk.injEq]
  constructor
  · rintro ⟨s, hstore, m, hmint, e, hescrow, -, hmut, t, hdest, -, hprogram, rfl, rfl, rfl⟩
    exact ⟨hstore, hmint, hescrow, hmut, ⟨t, hdest⟩, hprogram⟩
  · rintro ⟨hstore, hmint, hescrow, hmut, ⟨t, hdest⟩, hprogram⟩
    exact ⟨store, hstore, mint, hmint, escrow, hescrow, (), hmut, t, hdest, (), hprogram, rfl,
      rfl, rfl⟩

/-- **Withdrawal** moves the fee out of the escrow, which covers it beside the value locked. -/
theorem WithdrawFee.of_apply_eq_ok {ctx : WithdrawFee} {params : WithdrawFeeParams}
    (h : apply P env w ctx params = .ok (w', es)) :
    ∃ store mint escrow, Accounts P w ctx store mint escrow ∧
      store.tvlLd.toNat ≤ escrow.amount ∧
      params.feeLd.toNat ≤ escrow.amount - store.tvlLd.toNat ∧
      ∃ m : Mint, w.transferTokens ctx.tokenProgram.pubkey ctx.tokenEscrow.pubkey
        ctx.tokenDest.pubkey ctx.oftStore.pubkey params.feeLd.toNat
          (m.calculateFee env.epoch params.feeLd.toNat) = some w' := by
  simp only [apply, Except.bind_eq_ok, Except.require_eq_ok, transferChecked_eq_ok,
    Except.pure_eq_ok, Prod.mk.injEq] at h
  obtain ⟨⟨store, mint, escrow⟩, haccounts, -, htvl, -, hfee, w₁, ⟨s, m, -, -, -, -, -, htransfer⟩,
    rfl, rfl⟩ := h
  exact ⟨store, mint, escrow, tryAccounts_eq_ok.mp haccounts, htvl, hfee, m, htransfer⟩

end Success

end Oft
