import SolanaProxy.Oft.Changes
import SolanaProxy.Oft.Wire

/-!
# The accounts of an OFT delivery

An executor delivers a message with the accounts `lz_receive_types` names. One of them is the
compose account, whose address is derived from the compose message; and this message carries the
amount that arrives, which `lz_receive_types` computes on its own, before anything is
transferred. `lzReceiveTypes_predicts` says that the two never disagree: whenever a delivery can
succeed at all, the list passes its account constraints, and the bytes the list is made from are
the bytes the delivery composes.

An account list has no gaps. A delivery without a mint authority has the id of the program in its
place, and whatever has that key is read as no mint authority (`LzReceive.ofList`).
-/

namespace Oft

open Solana

/-! ### Account lists -/

namespace LzReceive

/-- The accounts in the order in which they are passed, the two of the events after the others;
`programId` stands for no mint authority. -/
def ofList (programId : Pubkey) : List AccountInfo → Option LzReceive
  | payer :: peer :: oftStore :: tokenEscrow :: toAddress :: tokenDest :: tokenMint ::
      mintAuthority :: tokenProgram :: associatedTokenProgram :: systemProgram ::
      eventAuthority :: program :: remainingAccounts =>
    some ⟨payer, peer, oftStore, tokenEscrow, toAddress, tokenDest, tokenMint,
      if mintAuthority.pubkey = programId then none else some mintAuthority, tokenProgram,
      associatedTokenProgram, systemProgram, eventAuthority, program, remainingAccounts⟩
  | _ => none

/-- The account constraints of `lz_receive` hold of a list of accounts, and enough accounts
follow for the endpoint's `clear`. -/
def accepts (P : Platform) (w : OFTWorld) (params : LzReceiveParams)
    (accounts : List AccountInfo) : Bool :=
  match ofList P.programId accounts with
  | some ctx =>
    (tryAccounts P w ctx params).isOk && P.clearMinAccountsLen ≤ ctx.remainingAccounts.length
  | none => false

/-- The account a list starts with pays. -/
theorem payer_of_ofList {programId : Pubkey} {executor : AccountInfo}
    {accounts : List AccountInfo} {ctx : LzReceive}
    (h : ofList programId (executor :: accounts) = some ctx) : ctx.payer = executor := by
  unfold ofList at h
  split at h
  case h_1 heq =>
    obtain ⟨rfl, -⟩ := List.cons.inj heq
    rw [← Option.some.inj h]
  case h_2 => cases h

end LzReceive

/-! ### The list for an executor -/

/-- The accounts of `lz_receive_types`. -/
structure LzReceiveTypes where
  oftStore : AccountInfo
  tokenMint : AccountInfo

namespace LzReceiveTypes

/-- The account constraints: the store and its mint. -/
def tryAccounts (P : Platform) (w : OFTWorld) (ctx : LzReceiveTypes) :
    Result OFTError (OFTStore × Mint) := do
  let store ← loadStore P w ctx.oftStore
  let mint ← Except.ofOption (.anchor .accountNotInitialized) (w.mints ctx.tokenMint.pubkey)
  Except.require (mint.program = P.tokenProgram ∨ mint.program = P.token2022Program)
    (.anchor .accountOwnedByWrongProgram)
  Except.require (ctx.tokenMint.pubkey = store.tokenMint) (.anchor .constraintAddress)
  return (store, mint)

/-- What arrives of an amount: all of it by minting, and what the fee of the mint leaves by
unlocking. -/
def amountReceivedLd (env : Env) (store : OFTStore) (mint : Mint) (amountLd : U64) :
    Result OFTError U64 :=
  if store.oftType = .native then return amountLd else getPostFeeAmountLd env mint amountLd

/-- The bytes to compose for a message, if it has a part to compose. -/
def composeBytes (env : Env) (store : OFTStore) (mint : Mint) (params : LzReceiveParams) :
    Result OFTError (Option Bytes) :=
  match MsgCodec.composeMsg params.message with
  | some message => do
    let amountSd ← Except.ofOption .panic (MsgCodec.amountSd params.message)
    let amountLd ← store.sd2ld amountSd
    let amountReceivedLd ← amountReceivedLd env store mint amountLd
    return some (ComposeMsgCodec.encode params.nonce params.srcEid amountReceivedLd message)
  | none => return none

/-- The list of accounts to deliver a message with; position 0 is left to the executor.
`getAccountsForSendCompose` is the helper of `oapp::endpoint_cpi`: endpoint, sender, recipient,
guid, index and message. -/
def apply (P : Platform)
    (getAccountsForSendCompose :
      Pubkey → Pubkey → Pubkey → ByteArr 32 → U16 → Bytes → List AccountInfo)
    (env : Env) (w : OFTWorld) (ctx : LzReceiveTypes) (params : LzReceiveParams) :
    Result OFTError (List AccountInfo) := do
  let (store, mint) ← tryAccounts P w ctx
  let (peer, _) ← Except.ofOption .panic
    (P.findProgramAddress (peerSeeds ctx.oftStore.pubkey params.srcEid))
  let toAddress ← Except.ofOption .panic (MsgCodec.sendTo params.message)
  let tokenDest ← Except.ofOption .panic
    (P.associatedTokenAddress toAddress store.tokenMint mint.program)
  let (eventAuthority, _) ← Except.ofOption .panic (P.findProgramAddress P.eventSeed)
  let composed ← composeBytes env store mint params
  return [
    ⟨zero32, true, true⟩,
    ⟨peer, false, true⟩,
    ⟨ctx.oftStore.pubkey, false, true⟩,
    ⟨store.tokenEscrow, false, true⟩,
    ⟨toAddress, false, false⟩,
    ⟨tokenDest, false, true⟩,
    ⟨ctx.tokenMint.pubkey, false, true⟩,
    ⟨mint.mintAuthority.getD P.programId, false, false⟩,
    ⟨mint.program, false, false⟩,
    ⟨P.associatedTokenProgram, false, false⟩,
    ⟨P.systemProgram, false, false⟩,
    ⟨eventAuthority, false, false⟩,
    ⟨P.programId, false, false⟩] ++
    P.getAccountsForClear store.endpointProgram ctx.oftStore.pubkey params.srcEid params.sender
      params.nonce ++
    composed.elim [] (getAccountsForSendCompose store.endpointProgram ctx.oftStore.pubkey
      toAddress params.guid 0#16)

end LzReceiveTypes

/-! ### What a delivery determines -/

section Delivery

variable {P : Platform} {env : Env} {w w' : OFTWorld} {es : List OFTEffect} {ctx : LzReceive}
  {params : LzReceiveParams}

/-- The message an effect hands to the endpoint to compose, if it does. -/
def composed? : OFTEffect → Option SendComposeParams
  | .endpointCall _ _ _ (.sendCompose params) => some params
  | _ => none

/-- What arrives of an amount released does not depend on how it is computed. -/
theorem LzReceive.received_of_releaseTokens {store store' : OFTStore} {mint : Mint}
    {amountLd received : U64}
    (h : ctx.releaseTokens env w store mint amountLd = .ok (w', store', received, es)) :
    LzReceiveTypes.amountReceivedLd env store mint amountLd = .ok received := by
  rw [releaseTokens] at h
  rw [LzReceiveTypes.amountReceivedLd]
  split at h
  case h_1 hadapter =>
    simp only [Except.bind_eq_ok, Except.pure_eq_ok, Prod.mk.injEq] at h
    obtain ⟨tvlLd, -, w₁, -, post, hpost, -, -, rfl, -⟩ := h
    rw [hadapter, if_neg (by decide)]
    exact hpost
  case h_2 hnative _ =>
    simp only [Except.bind_eq_ok, Except.pure_eq_ok, Prod.mk.injEq] at h
    obtain ⟨w₁, -, -, -, rfl, -⟩ := h
    rw [hnative, if_pos rfl]
    rfl
  case h_3 => cases h

/-- **The bytes agree.** What `lz_receive_types` computes is what a delivery composes. -/
theorem LzReceive.Trace.composed_eq (t : Trace P env w ctx params w' es) :
    ∃ composed, LzReceiveTypes.composeBytes env t.store t.mint params = .ok composed ∧
      es.filterMap composed? =
        composed.toList.map fun bytes => ⟨ctx.toAddress.pubkey, params.guid, 0#16, bytes⟩ := by
  have hmoved : t.moved.filterMap composed? = [] := by
    rcases t.store.adapter_or_native with htype | htype
    · obtain ⟨_, _, -, -, -, hmoved⟩ := releaseTokens_adapter htype t.tokens
      rw [hmoved]
      rfl
    · obtain ⟨-, -, hmoved⟩ := releaseTokens_native htype t.tokens
      rw [hmoved]
      rfl
  have heffects : es.filterMap composed? = t.composed.filterMap composed? := by
    refine (congrArg (List.filterMap composed?) t.effects_eq).trans ?_
    simp only [List.filterMap_append, hmoved, List.append_nil]
    exact List.append_nil _
  obtain ⟨w₁, hcompose⟩ := t.composes
  rw [compose] at hcompose
  rw [heffects]
  split at hcompose
  case h_1 message hmessage =>
    simp only [Except.bind_eq_ok, Except.pure_eq_ok, Prod.mk.injEq] at hcompose
    obtain ⟨w₂, -, -, hcomposed⟩ := hcompose
    refine ⟨some (ComposeMsgCodec.encode params.nonce params.srcEid t.received message), ?_, ?_⟩
    · simp only [LzReceiveTypes.composeBytes, hmessage, t.shared, Except.ofOption_some,
        Except.ok_bind, t.local_eq, received_of_releaseTokens t.tokens]
      rfl
    · rw [← hcomposed]
      rfl
  case h_2 hmessage =>
    simp only [Except.pure_eq_ok, Prod.mk.injEq] at hcompose
    obtain ⟨-, hcomposed⟩ := hcompose
    refine ⟨none, ?_, ?_⟩
    · rw [LzReceiveTypes.composeBytes, hmessage]
      rfl
    · rw [← hcomposed]
      rfl

/-- The accounts of a delivery by an executor, from the addresses that go into them. -/
def LzReceive.computed (P : Platform) (store : OFTStore) (mint : Mint) (executor : AccountInfo)
    (oftStore peer toAddress tokenDest eventAuthority : Pubkey)
    (remainingAccounts : List AccountInfo) : LzReceive where
  payer := executor
  peer := ⟨peer, false, true⟩
  oftStore := ⟨oftStore, false, true⟩
  tokenEscrow := ⟨store.tokenEscrow, false, true⟩
  toAddress := ⟨toAddress, false, false⟩
  tokenDest := ⟨tokenDest, false, true⟩
  tokenMint := ⟨store.tokenMint, false, true⟩
  mintAuthority :=
    if mint.mintAuthority.getD P.programId = P.programId then none
    else some ⟨mint.mintAuthority.getD P.programId, false, false⟩
  tokenProgram := ⟨mint.program, false, false⟩
  associatedTokenProgram := ⟨P.associatedTokenProgram, false, false⟩
  systemProgram := ⟨P.systemProgram, false, false⟩
  eventAuthority := ⟨eventAuthority, false, false⟩
  program := ⟨P.programId, false, false⟩
  remainingAccounts := remainingAccounts

/-- **Computed accounts are accepted.** Accounts that pass the constraints of a delivery
determine their addresses, and the accounts computed from these addresses pass too. -/
theorem LzReceive.tryAccounts_computed {store : OFTStore} {peer : PeerConfig} {mint : Mint}
    (h : Accounts P w ctx params w' store peer mint) (remainingAccounts : List AccountInfo) :
    tryAccounts P w (computed P store mint ctx.payer ctx.oftStore.pubkey ctx.peer.pubkey
      ctx.toAddress.pubkey ctx.tokenDest.pubkey ctx.eventAuthority.pubkey remainingAccounts)
      params = .ok (w', store, peer, mint) := by
  obtain ⟨escrow, hescrow⟩ := h.escrow_loaded
  obtain ⟨-, htoken, howner, hmintKey, hprogram, haddress⟩ := loadEscrow_eq_ok.mp hescrow
  obtain ⟨hmint, hmintProgram, hmintAddress⟩ := loadStoreMint_eq_ok.mp h.mint_loaded
  obtain ⟨-, hcreated⟩ := initAssociatedIfNeeded_eq_ok.mp h.dest_created
  rw [hmintAddress, ← hmintProgram] at hcreated
  rw [haddress] at htoken
  rw [hmintAddress] at hmint hmintKey
  have hauthority : ∀ a ∈ (computed P store mint ctx.payer ctx.oftStore.pubkey ctx.peer.pubkey
      ctx.toAddress.pubkey ctx.tokenDest.pubkey ctx.eventAuthority.pubkey
      remainingAccounts).mintAuthority, mint.mintAuthority = some a.pubkey := by
    intro a ha
    simp only [computed, Option.mem_def, Option.ite_none_left_eq_some, Option.some.injEq] at ha
    obtain ⟨hne, rfl⟩ := ha
    -- only a mint without authority has the program in its place
    cases hauth : mint.mintAuthority with
    | none => rw [hauth] at hne; exact (hne rfl).elim
    | some k => rfl
  have hinterface : mint.program = P.tokenProgram ∨ mint.program = P.token2022Program := by
    rw [hmintProgram]
    exact h.token_program
  exact tryAccounts_eq_ok.mpr ⟨h.payer_signed, h.payer_writable,
    loadPda_eq_ok.mpr (loadPda_eq_ok.mp h.peer_loaded), rfl, h.sender_eq,
    loadStore_eq_ok.mpr (loadStore_eq_ok.mp h.store_loaded), rfl,
    ⟨escrow, loadEscrow_eq_ok.mpr ⟨rfl, htoken, howner, hmintKey, hprogram.trans
      hmintProgram.symm, rfl⟩⟩, h.to_address, rfl, loadStoreMint_eq_ok.mpr ⟨hmint, rfl, rfl⟩,
    hauthority, hinterface, rfl, rfl, h.event_authority,
    initAssociatedIfNeeded_eq_ok.mpr ⟨rfl, hcreated⟩⟩

/-- The peer a delivery loads is at the canonical address for its store and endpoint id. -/
theorem LzReceive.Accounts.peer_address (hP : P.DeriveInjective) (hw : WellFormed P w.data)
    {store : OFTStore} {peer : PeerConfig} {mint : Mint}
    (h : Accounts P w ctx params w' store peer mint) :
    P.findProgramAddress (peerSeeds ctx.oftStore.pubkey params.srcEid) =
      some (ctx.peer.pubkey, peer.bump) := by
  obtain ⟨hdata, hseeds⟩ := loadPda_eq_ok.mp h.peer_loaded
  obtain ⟨⟨oftStore, eid, hfind⟩, -⟩ : (OFTAccount.peerConfig peer).WellFormed P ctx.peer.pubkey :=
    hw _ _ hdata
  obtain ⟨hk, heid, -⟩ :=
    peerSeeds_inj (hP.seeds_eq (Platform.createProgramAddress_of_find hfind) hseeds)
  rwa [hk, heid] at hfind

/-- Bytes are composed exactly for a message with a part to compose. -/
theorem LzReceiveTypes.composeBytes_eq_none {store : OFTStore} {mint : Mint}
    {composed : Option Bytes} (h : composeBytes env store mint params = .ok composed) :
    composed = none ↔ MsgCodec.composeMsg params.message = none := by
  rw [composeBytes] at h
  split at h
  case h_1 message hmessage =>
    simp only [Except.bind_eq_ok, Except.pure_eq_ok] at h
    obtain ⟨_, -, _, -, _, -, rfl⟩ := h
    simp [hmessage]
  case h_2 hmessage =>
    obtain rfl := Except.pure_eq_ok.mp h
    simp [hmessage]

end Delivery

/-- **Account lists predict deliveries.** Take a delivery that succeeds with some list of
accounts. In the same state and epoch, `lz_receive_types` for the same store and mint returns a
list, and

* with the executor of the delivery in position 0 it passes every account constraint of the
  delivery;
* it ends in the accounts for clearing, followed by those for composing certain bytes if the
  message has a part to compose;
* these bytes are the ones the delivery hands to the endpoint to compose, for the same recipient,
  guid and index, and without a part to compose the delivery composes nothing.
-/
theorem lzReceiveTypes_predicts {P : Platform} (hP : P.DeriveInjective)
    (hevent : P.eventSeed = eventAuthoritySeeds)
    (hclear : ∀ endpoint receiver srcEid sender nonce,
      (P.getAccountsForClear endpoint receiver srcEid sender nonce).length =
        P.clearMinAccountsLen)
    (getAccountsForSendCompose :
      Pubkey → Pubkey → Pubkey → ByteArr 32 → U16 → Bytes → List AccountInfo)
    (s : OFTState P) {env : Env} {params : LzReceiveParams} {executor : AccountInfo}
    {accounts : List AccountInfo} {ctx : LzReceive}
    (hctx : LzReceive.ofList P.programId (executor :: accounts) = some ctx)
    {w' : OFTWorld} {es : List OFTEffect} (h : ctx.apply P env s.world params = .ok (w', es))
    {types : LzReceiveTypes} (hstore : types.oftStore.pubkey = ctx.oftStore.pubkey)
    (hmint : types.tokenMint.pubkey = ctx.tokenMint.pubkey) :
    ∃ store returned composed, s.world.data ctx.oftStore.pubkey = some (.oftStore store) ∧
      types.apply P getAccountsForSendCompose env s.world params = .ok returned ∧
      LzReceive.accepts P s.world params (returned.set 0 executor) = true ∧
      returned.drop 13 = P.getAccountsForClear store.endpointProgram ctx.oftStore.pubkey
          params.srcEid params.sender params.nonce ++
        composed.elim [] (getAccountsForSendCompose store.endpointProgram ctx.oftStore.pubkey
          ctx.toAddress.pubkey params.guid 0#16) ∧
      es.filterMap composed? =
        composed.toList.map (fun bytes => ⟨ctx.toAddress.pubkey, params.guid, 0#16, bytes⟩) ∧
      (composed = none ↔ MsgCodec.composeMsg params.message = none) := by
  obtain ⟨tr⟩ := LzReceive.nonempty_trace h
  obtain rfl := LzReceive.payer_of_ofList hctx
  obtain ⟨composed, hcomposed, hbytes⟩ := tr.composed_eq
  obtain ⟨hmintData, hmintProgram, hmintAddress⟩ := loadStoreMint_eq_ok.mp tr.accounts.mint_loaded
  obtain ⟨bump, hauthority⟩ := tr.accounts.event_authority
  obtain ⟨-, hdest, -⟩ := initAssociatedIfNeeded_eq_ok.mp tr.accounts.dest_created
  have hinterface : tr.mint.program = P.tokenProgram ∨ tr.mint.program = P.token2022Program := by
    rw [hmintProgram]
    exact tr.accounts.token_program
  rw [hmintAddress] at hmintData hmint hdest
  rw [← hmintProgram] at hdest
  rw [← hevent] at hauthority
  have htypes : types.tryAccounts P s.world = .ok (tr.store, tr.mint) := by
    have hload : loadStore P s.world types.oftStore = .ok tr.store := by
      rw [loadStore_eq_ok, hstore]
      exact loadStore_eq_ok.mp tr.accounts.store_loaded
    simp only [LzReceiveTypes.tryAccounts, hload, hmint, hmintData, hinterface, Except.ok_bind,
      Except.ofOption_some, Except.require_of_true]
    rfl
  -- what follows the thirteen accounts of the delivery
  have hreturned : ∃ returned rest,
      types.apply P getAccountsForSendCompose env s.world params = .ok returned ∧
      LzReceive.ofList P.programId (returned.set 0 ctx.payer) =
        some (LzReceive.computed P tr.store tr.mint ctx.payer ctx.oftStore.pubkey ctx.peer.pubkey
          ctx.toAddress.pubkey ctx.tokenDest.pubkey ctx.eventAuthority.pubkey rest) ∧
      returned.drop 13 = rest ∧
      rest = P.getAccountsForClear tr.store.endpointProgram ctx.oftStore.pubkey
          params.srcEid params.sender params.nonce ++
        composed.elim [] (getAccountsForSendCompose tr.store.endpointProgram ctx.oftStore.pubkey
          ctx.toAddress.pubkey params.guid 0#16) := by
    simp only [LzReceiveTypes.apply, htypes, hstore, hmint,
      tr.accounts.peer_address hP s.wellFormed, tr.accounts.to_address, hdest, hauthority,
      hcomposed, Except.ok_bind, Except.ofOption_some]
    exact ⟨_, _, rfl, rfl, rfl, rfl⟩
  obtain ⟨returned, rest, happly, hlist, hrest, hsplit⟩ := hreturned
  refine ⟨tr.store, returned, composed, tr.accounts.store_data, happly, ?_, hrest.trans hsplit,
    hbytes, LzReceiveTypes.composeBytes_eq_none hcomposed⟩
  have hcomputed := LzReceive.tryAccounts_computed tr.accounts rest
  have hok : (LzReceive.tryAccounts P s.world (LzReceive.computed P tr.store tr.mint ctx.payer
      ctx.oftStore.pubkey ctx.peer.pubkey ctx.toAddress.pubkey ctx.tokenDest.pubkey
      ctx.eventAuthority.pubkey rest) params).isOk = true := by
    rw [hcomputed]
    rfl
  have hlen : P.clearMinAccountsLen ≤ rest.length := by
    rw [hsplit, List.length_append, hclear]
    exact Nat.le_add_right _ _
  rw [LzReceive.accepts, hlist]
  exact Bool.and_eq_true_iff.mpr ⟨hok, decide_eq_true hlen⟩

/-- The accounts the sample delivery is passed with after the executor, the program itself for no
mint authority. -/
def sampleAccounts : List AccountInfo :=
  [sampleWritable (sampleKey 5), sampleWritable (sampleKey 1), sampleWritable (sampleKey 9),
    ⟨sampleReceiver, false, false⟩, sampleWritable (sampleKey 10), sampleWritable sampleMint,
    ⟨sampleKey 110, false, false⟩, ⟨sampleKey 102, false, false⟩, ⟨sampleKey 103, false, false⟩,
    ⟨zero32, false, false⟩, ⟨sampleKey 7, false, false⟩, ⟨sampleKey 110, false, false⟩,
    ⟨sampleKey 23, false, false⟩]

/-- The accounts the list is asked with. -/
def sampleReceiveTypes : LzReceiveTypes :=
  ⟨⟨sampleKey 1, false, false⟩, ⟨sampleMint, false, false⟩⟩

/-- A delivery of three shared units with one byte to compose. -/
def sampleComposeParams : LzReceiveParams :=
  { sampleReceiveParams 300000000#256 with
    message := (sampleReceiveParams 300000000#256).message ++ (sampleKey 50).toList ++ [1] }

/-- An account for composing is named by the bytes to compose. -/
def sampleSendCompose (endpoint sender _ : Pubkey) (_ : ByteArr 32) (_ : U16) (message : Bytes) :
    List AccountInfo :=
  [⟨endpoint, false, false⟩, ⟨sender, false, false⟩, ⟨samplePlatform.keccak message, false, true⟩]

/-- The returned list is accepted for the sample delivery, which composes certain bytes. -/
theorem lzReceiveTypes_predicts_sample : ∃ returned bytes w' es,
    sampleReceiveTypes.apply samplePlatform sampleSendCompose sampleEnv sampleLocked.world
      sampleComposeParams = .ok returned ∧
    LzReceive.accepts samplePlatform sampleLocked.world sampleComposeParams
      (returned.set 0 (sampleSigner sampleUser)) = true ∧
    sampleLzReceive.apply samplePlatform sampleEnv sampleLocked.world sampleComposeParams =
      .ok (w', es) ∧
    es.filterMap composed? = [⟨sampleReceiver, sampleKey 60, 0#16, bytes⟩] := by
  have hok : (sampleLzReceive.apply samplePlatform sampleEnv sampleLocked.world
      sampleComposeParams).isOk = true := by decide +kernel
  obtain ⟨⟨w', es⟩, happly⟩ := Except.exists_of_isOk hok
  have hctx : LzReceive.ofList samplePlatform.programId
      (sampleSigner sampleUser :: sampleAccounts) = some sampleLzReceive := rfl
  have hstore : sampleReceiveTypes.oftStore.pubkey = sampleLzReceive.oftStore.pubkey := rfl
  obtain ⟨store, returned, composed, -, hreturned, haccepts, -, hbytes, hnone⟩ :=
    lzReceiveTypes_predicts samplePlatform_injective rfl (fun _ _ _ _ _ => rfl) sampleSendCompose
      sampleLocked hctx happly hstore rfl
  have hpart : MsgCodec.composeMsg sampleComposeParams.message ≠ none := by decide
  obtain ⟨bytes, rfl⟩ := Option.ne_none_iff_exists'.mp (mt hnone.mp hpart)
  exact ⟨returned, bytes, w', es, hreturned, haccepts, happly, hbytes⟩

end Oft
