import SolanaProxy.Oft.Run

/-!
# What an instruction can change

One inversion lemma for each kind of account that matters to the program's logic: what happens to
the store at a key (`Instruction.storeChange`) and what happens to the peer at a key
(`Instruction.peerChange`). A store changes when it is created, set by its admin, paused by a
valid signer, or when its value locked moves with a transfer; a peer changes when it is set by
the admin of its store, or when a transfer goes through its rate limiters. Invariants of runs
need one case for each of these only.
-/

namespace Oft

open Solana

/-! ### Amounts on record -/

/-- The amount a message was sent for, if the effect is the event of a send. -/
def sentLd? : OFTEffect → Option ℕ
  | .event (.oftSent _ _ _ _ amountReceivedLd) => some amountReceivedLd.toNat
  | _ => none

/-- The amount unlocked or minted, if the effect does. -/
def releasedLd? : OFTEffect → Option ℕ
  | .transferTokens _ _ _ amount => some amount.toNat
  | .mintTokens _ _ amount => some amount.toNat
  | _ => none

/-- What a list of effects sends. -/
def sentLd (es : List OFTEffect) : ℕ := (es.filterMap sentLd?).sum

/-- What a list of effects releases. -/
def releasedLd (es : List OFTEffect) : ℕ := (es.filterMap releasedLd?).sum

section Amounts

variable {P : Platform} {env : Env} {w w' : OFTWorld} {es : List OFTEffect}

/-- A send is on record with the amount that the other side is told. -/
theorem Send.Trace.sentLd_eq {ctx : Send} {params : SendParams} {receipt : OFTReceipt}
    (t : Trace P env w ctx params w' es receipt) :
    sentLd es = receipt.amountReceivedLd.toNat := by
  have hmoved : t.moved.filterMap sentLd? = [] := by
    cases htype : t.store.oftType with
    | adapter =>
      obtain ⟨_, _, -, -, -, -, hmoved⟩ := takeTokens_adapter htype t.tokens
      rw [hmoved]
      rfl
    | native =>
      obtain ⟨-, _, -, _, -, hrest⟩ := takeTokens_native htype t.tokens
      rcases hrest with ⟨-, hmoved⟩ | ⟨-, hmoved⟩ <;> rw [hmoved] <;> rfl
  rw [sentLd, t.effects_eq, List.filterMap_append, hmoved]
  exact Nat.add_zero _

/-- A delivery is on record with the amount that the message names. -/
theorem LzReceive.Trace.releasedLd_eq {ctx : LzReceive} {params : LzReceiveParams}
    (t : Trace P env w ctx params w' es) : releasedLd es = t.amountLd.toNat := by
  have hmoved : t.moved.filterMap releasedLd? = [t.amountLd.toNat] := by
    cases htype : t.store.oftType with
    | adapter =>
      obtain ⟨_, _, -, -, -, hmoved⟩ := releaseTokens_adapter htype t.tokens
      rw [hmoved]
      rfl
    | native =>
      obtain ⟨-, -, hmoved⟩ := releaseTokens_native htype t.tokens
      rw [hmoved]
      rfl
  rw [releasedLd, t.filterMap_effects (fun _ _ _ _ => rfl) (fun _ => rfl), hmoved]
  exact Nat.add_zero _

end Amounts

/-! ### Changes -/

/-- The instruction transfers tokens through the peer at `k`. -/
def Instruction.ThroughPeer (k : Pubkey) : Instruction → Prop
  | .send ctx _ => ctx.peer.pubkey = k
  | .lzReceive ctx _ => ctx.peer.pubkey = k
  | _ => False

/-- The instruction transfers tokens of the store at `k`. -/
def Instruction.OfStore (k : Pubkey) : Instruction → Prop
  | .send ctx _ => ctx.oftStore.pubkey = k
  | .lzReceive ctx _ => ctx.oftStore.pubkey = k
  | _ => False

/-- What an instruction with the effects `es` does to the peer at `k`. -/
inductive PeerChange (P : Platform) (env : Env) (w : OFTWorld) (es : List OFTEffect)
    (k : Pubkey) : Instruction → Option PeerConfig → Option PeerConfig → Prop
  | same {i : Instruction} {o : Option PeerConfig} (hother : ¬i.ThroughPeer k) :
      PeerChange P env w es k i o o
  /-- set by the admin of its store -/
  | set {ctx : SetPeerConfig} {params : SetPeerConfigParams} {store : OFTStore}
      {o : Option PeerConfig} {p : PeerConfig} {bump : U8} (hkey : ctx.peer.pubkey = k)
      (hstore : loadStoreFor P w ctx.admin ctx.oftStore = .ok store)
      (hfind : P.findProgramAddress (peerSeeds ctx.oftStore.pubkey params.remoteEid) =
        some (k, bump))
      (hset : (o.getD PeerConfig.zero).set P env OFTError.invalidFee params.config = .ok p) :
      PeerChange P env w es k (.setPeerConfig ctx params) o (some { p with bump := bump })
  /-- consumed outbound, refilled inbound -/
  | sent {ctx : Send} {params : SendParams} {p p' : PeerConfig} {amount : U64}
      (hkey : ctx.peer.pubkey = k) (hconsume : consumeOutbound env p amount = .ok p')
      (hamount : sentLd es = amount.toNat) :
      PeerChange P env w es k (.send ctx params) (some p) (some p')
  /-- consumed inbound, refilled outbound -/
  | received {ctx : LzReceive} {params : LzReceiveParams} {p p' : PeerConfig} {amount : U64}
      (hkey : ctx.peer.pubkey = k) (hconsume : consumeInbound env p amount = .ok p')
      (hamount : releasedLd es = amount.toNat) :
      PeerChange P env w es k (.lzReceive ctx params) (some p) (some p')

/-- What an instruction does to the store at `k`. -/
inductive StoreChange (P : Platform) (env : Env) (w : OFTWorld) (k : Pubkey) :
    Instruction → Option OFTStore → Option OFTStore → Prop
  | same {i : Instruction} {o : Option OFTStore} (hother : ¬i.OfStore k) :
      StoreChange P env w k i o o
  | init {ctx : InitOFT} {params : InitOFTParams} {ld2sdRate : U64} {bump : U8}
      (hkey : ctx.oftStore.pubkey = k) :
      StoreChange P env w k (.initOFT ctx params) none
        (some (ctx.store P params ld2sdRate bump))
  /-- set by its admin -/
  | config {ctx : SetOFTConfig} {params : SetOFTConfigParams} {s s' : OFTStore} {w' : OFTWorld}
      {es : List OFTEffect} (hkey : ctx.oftStore.pubkey = k) (hsigner : ctx.admin.isSigner = true)
      (hadmin : s.admin = ctx.admin.pubkey) (hset : ctx.set env w s params = .ok (w', s', es)) :
      StoreChange P env w k (.setOFTConfig ctx params) (some s) (some s')
  | pause {ctx : SetPause} {params : SetPauseParams} {s : OFTStore}
      (hkey : ctx.oftStore.pubkey = k) (hsigner : ctx.signer.isSigner = true)
      (hvalid : isValidSigner ctx.signer.pubkey s params.paused = true) :
      StoreChange P env w k (.setPause ctx params) (some s)
        (some { s with paused := params.paused })
  /-- the value locked moves with a transfer -/
  | transfer {i : Instruction} {s : OFTStore} {tvlLd : U64} (hof : i.OfStore k)
      (hunpaused : s.paused = false) :
      StoreChange P env w k i (some s) (some { s with tvlLd := tvlLd })

section Changes

variable {P : Platform} {env : Env} {w w' : OFTWorld} {es : List OFTEffect} {i : Instruction}

/-- A set-up changes no store or peer but the store it creates. -/
private theorem load_of_init {ctx : InitOFT} {params : InitOFTParams}
    (tr : InitOFT.Trace P w ctx params w') (k : Pubkey) :
    w'.load peerKind k = w.load peerKind k ∧
      w'.load OFTStore.kind k =
        if k = ctx.oftStore.pubkey then some (ctx.store P params tr.ld2sdRate tr.bump)
        else w.load OFTStore.kind k := by
  have hstore : w.load peerKind ctx.oftStore.pubkey = none := by
    rw [World.load, tr.store_new, Option.bind_none]
  have htypes : w.load peerKind ctx.lzReceiveTypesAccounts.pubkey = none ∧
      w.load OFTStore.kind ctx.lzReceiveTypesAccounts.pubkey = none := by
    constructor <;> rw [World.load, tr.types_new, Option.bind_none]
  -- the world between the two writes
  have hmid : ∀ {T : Type} (K : AccountKind OFTAccount T), w'.load K k =
      if k = ctx.lzReceiveTypesAccounts.pubkey then
        K.unwrap (.lzReceiveTypesAccounts ⟨ctx.oftStore.pubkey, ctx.tokenMint.pubkey⟩)
      else if k = ctx.oftStore.pubkey then
        K.unwrap (.oftStore (ctx.store P params tr.ld2sdRate tr.bump))
      else w.load K k := by
    intro T K
    refine (World.load_update (w := w.store OFTStore.kind ctx.oftStore.pubkey
      (ctx.store P params tr.ld2sdRate tr.bump)) tr.data_eq k).trans ?_
    rw [World.load_update rfl]
    rfl
  rw [hmid, hmid]
  constructor
  · split
    case isTrue hk => rw [hk, htypes.1]; rfl
    case isFalse =>
      split
      case isTrue hk => rw [hk, hstore]; rfl
      case isFalse => rfl
  · split
    case isTrue hk =>
      rw [hk, if_neg tr.types_ne_store, htypes.2]
      rfl
    case isFalse => rfl

/-- A transfer changes its store and its peer. -/
private theorem load_of_transfer {kStore kPeer : Pubkey} {store store' : OFTStore}
    {peer peer' : PeerConfig} (hstore : w.data kStore = some (.oftStore store))
    (hpeer : w.data kPeer = some (.peerConfig peer))
    (hdata : w'.data = Function.update
      (Function.update w.data kPeer (some (.peerConfig peer'))) kStore (some (.oftStore store')))
    (k : Pubkey) :
    w'.load peerKind k = (if k = kPeer then some peer' else w.load peerKind k) ∧
      w'.load OFTStore.kind k = if k = kStore then some store' else w.load OFTStore.kind k := by
  -- one account is not both, so neither write covers the other
  have hne : kStore ≠ kPeer := oftStore_ne_peer hstore hpeer
  have hmid : ∀ {T : Type} (K : AccountKind OFTAccount T), w'.load K k =
      if k = kStore then K.unwrap (.oftStore store')
      else if k = kPeer then K.unwrap (.peerConfig peer') else w.load K k := by
    intro T K
    refine (World.load_update (w := w.store peerKind kPeer peer') hdata k).trans ?_
    rw [World.load_update rfl]
    rfl
  rw [hmid, hmid]
  constructor
  · split
    case isTrue hk =>
      rw [if_neg (hk ▸ hne), hk, World.load, hstore]
      rfl
    case isFalse => rfl
  · split
    case isTrue => rfl
    case isFalse =>
      split
      case isTrue hk => rw [hk, World.load, hpeer]; rfl
      case isFalse => rfl

/-- Writing a store over a store changes no peer. -/
private theorem load_peer_of_store {kStore : Pubkey} {store store' : OFTStore}
    (hstore : w.data kStore = some (.oftStore store))
    (hdata : w'.data = Function.update w.data kStore (some (.oftStore store'))) (k : Pubkey) :
    w'.load peerKind k = w.load peerKind k := by
  refine World.load_of_update hdata ?_ k
  rw [World.load, hstore]
  rfl

/-- A peer setting by the admin of its store, in detail. -/
private theorem load_of_setPeerConfig {ctx : SetPeerConfig} {params : SetPeerConfigParams}
    (h : ctx.apply P env w params = .ok (w', es)) (k : Pubkey) :
    ∃ store p bump, loadStoreFor P w ctx.admin ctx.oftStore = .ok store ∧
      P.findProgramAddress (peerSeeds ctx.oftStore.pubkey params.remoteEid) =
        some (ctx.peer.pubkey, bump) ∧
      ((w.load peerKind ctx.peer.pubkey).getD PeerConfig.zero).set P env OFTError.invalidFee
        params.config = .ok p ∧
      w'.load peerKind k =
        (if k = ctx.peer.pubkey then some { p with bump := bump } else w.load peerKind k) ∧
      w'.load OFTStore.kind k = w.load OFTStore.kind k := by
  simp only [SetPeerConfig.apply, Except.bind_eq_ok, Except.pure_eq_ok, Prod.mk.injEq] at h
  obtain ⟨-, -, store, hstore, ⟨w₁, p, bump⟩, hinit, -, -, p', hset, -, -, rfl, -⟩ := h
  obtain ⟨hfind, hold, hdata⟩ := data_of_initIfNeeded hinit
  -- the account is created with zeroed contents unless the peer is there already
  have hload : (w.load peerKind ctx.peer.pubkey).getD PeerConfig.zero = p ∧
      w.load OFTStore.kind ctx.peer.pubkey = none := by
    rcases hold with ⟨hnew, rfl⟩ | hload
    · rw [World.load, World.load, hnew]
      exact ⟨rfl, rfl⟩
    · rw [World.load, World.load, hload]
      exact ⟨rfl, rfl⟩
  have hdata' : (w₁.store peerKind ctx.peer.pubkey { p' with bump := bump }).data =
      Function.update w.data ctx.peer.pubkey (some (.peerConfig { p' with bump := bump })) := by
    rw [World.data_store, hdata]
    rfl
  refine ⟨store, p', bump, hstore, hfind, ?_, ?_, ?_⟩
  · rw [hload.1]
    exact hset
  · exact World.load_update hdata' k
  · refine World.load_of_update hdata' ?_ k
    rw [hload.2]
    rfl

/-- **Changes of a peer.** -/
theorem Instruction.peerChange (h : execute P env w i = .ok (w', es)) (k : Pubkey) :
    PeerChange P env w es k i (w.load peerKind k) (w'.load peerKind k) := by
  cases i with
  | initOFT ctx params =>
    obtain ⟨tr⟩ := InitOFT.nonempty_trace h
    rw [(load_of_init tr k).1]
    exact .same not_false
  | setOFTConfig ctx params =>
    obtain ⟨store, store', hstore, -, -, -, hdata, -⟩ := SetOFTConfig.of_apply_eq_ok h
    rw [load_peer_of_store hstore hdata k]
    exact .same not_false
  | setPause ctx params =>
    obtain ⟨store, hstore, -, rfl⟩ := SetPause.of_apply_eq_ok h
    have hload : (w.store OFTStore.kind ctx.oftStore.pubkey
        { store with paused := params.paused }).load peerKind k = w.load peerKind k :=
      load_peer_of_store hstore (World.data_store ..) k
    rw [hload]
    exact .same not_false
  | setPeerConfig ctx params =>
    obtain ⟨store, p, bump, hstore, hfind, hset, hload, -⟩ := load_of_setPeerConfig h k
    rw [hload]
    split
    case isTrue hk =>
      subst hk
      exact .set rfl hstore hfind hset
    case isFalse => exact .same not_false
  | withdrawFee ctx params =>
    obtain ⟨_, _, _, -, -, -, m, htransfer⟩ := WithdrawFee.of_apply_eq_ok h
    rw [World.load_of_data_eq (World.frame_of_transferTokens htransfer).1]
    exact .same not_false
  | send ctx params =>
    obtain ⟨receipt, oftReceipt, hc⟩ := execute_send h
    obtain ⟨tr⟩ := Send.nonempty_trace hc
    have hpeer := tr.accounts.peer_data
    rw [(load_of_transfer tr.accounts.store_data hpeer tr.data_update k).1]
    split
    case isTrue hk =>
      subst hk
      rw [World.load_eq_some.mpr hpeer]
      exact .sent rfl tr.limits tr.sentLd_eq
    case isFalse hk => exact .same (Ne.symm hk)
  | lzReceive ctx params =>
    obtain ⟨tr⟩ := LzReceive.nonempty_trace h
    have hpeer := tr.accounts.peer_data
    rw [(load_of_transfer tr.accounts.store_data hpeer tr.data_update k).1]
    split
    case isTrue hk =>
      subst hk
      rw [World.load_eq_some.mpr hpeer]
      exact .received rfl tr.limits tr.releasedLd_eq
    case isFalse hk => exact .same (Ne.symm hk)

theorem OFTStore.adapter_or_native (s : OFTStore) : s.oftType = .adapter ∨ s.oftType = .native := by
  cases s.oftType with
  | native => exact Or.inr rfl
  | adapter => exact Or.inl rfl

/-- Taking or releasing tokens moves the value locked and nothing else of the store. -/
private theorem tvl_of_takeTokens {ctx : Send} {store store' : OFTStore} {mint : Mint}
    {sent received fee : U64}
    (h : ctx.takeTokens env w store mint sent received fee = .ok (w', store', es)) :
    ∃ tvlLd, store' = { store with tvlLd := tvlLd } := by
  rcases store.adapter_or_native with htype | htype
  · obtain ⟨tvlLd, _, -, hstore, -⟩ := Send.takeTokens_adapter htype h
    exact ⟨tvlLd, hstore⟩
  · exact ⟨store.tvlLd, (Send.takeTokens_native htype h).1⟩

private theorem tvl_of_releaseTokens {ctx : LzReceive} {store store' : OFTStore} {mint : Mint}
    {amountLd received : U64}
    (h : ctx.releaseTokens env w store mint amountLd = .ok (w', store', received, es)) :
    ∃ tvlLd, store' = { store with tvlLd := tvlLd } := by
  rcases store.adapter_or_native with htype | htype
  · obtain ⟨tvlLd, _, -, hstore, -⟩ := LzReceive.releaseTokens_adapter htype h
    exact ⟨tvlLd, hstore⟩
  · exact ⟨store.tvlLd, (LzReceive.releaseTokens_native htype h).1⟩

/-- **Changes of a store.** -/
theorem Instruction.storeChange (h : execute P env w i = .ok (w', es)) (k : Pubkey) :
    StoreChange P env w k i (w.load OFTStore.kind k) (w'.load OFTStore.kind k) := by
  cases i with
  | initOFT ctx params =>
    obtain ⟨tr⟩ := InitOFT.nonempty_trace h
    rw [(load_of_init tr k).2]
    split
    case isTrue hk =>
      subst hk
      have hnew : w.load OFTStore.kind ctx.oftStore.pubkey = none := by
        rw [World.load, tr.store_new, Option.bind_none]
      rw [hnew]
      exact .init rfl
    case isFalse => exact .same not_false
  | setOFTConfig ctx params =>
    simp only [execute, SetOFTConfig.apply, Except.bind_eq_ok, Except.pure_eq_ok,
      Prod.mk.injEq] at h
    obtain ⟨store, hstore, -, -, ⟨w₁, store', es₁⟩, hset, rfl, -⟩ := h
    obtain ⟨hsigner, hload, hadmin⟩ := loadStoreFor_eq_ok.mp hstore
    have hdata : (w₁.store OFTStore.kind ctx.oftStore.pubkey store').data =
        Function.update w.data ctx.oftStore.pubkey (some (.oftStore store')) := by
      obtain ⟨-, -, -, hkeep, -⟩ := SetOFTConfig.of_set_eq_ok hset
      rw [World.data_store, hkeep]
      rfl
    rw [World.load_update hdata k]
    split
    case isTrue hk =>
      subst hk
      rw [World.load_eq_some.mpr (loadStore_eq_ok.mp hload).1]
      exact .config rfl hsigner hadmin hset
    case isFalse => exact .same not_false
  | setPause ctx params =>
    simp only [execute, SetPause.apply, Solana.signer, Except.bind_eq_ok, Except.require_eq_ok,
      Except.pure_eq_ok, Prod.mk.injEq] at h
    obtain ⟨-, hsigner, store, hload, -, -, -, hvalid, rfl, -⟩ := h
    rw [World.load_update (World.data_store ..) k]
    split
    case isTrue hk =>
      subst hk
      rw [World.load_eq_some.mpr (loadStore_eq_ok.mp hload).1]
      exact .pause rfl hsigner hvalid
    case isFalse => exact .same not_false
  | setPeerConfig ctx params =>
    obtain ⟨_, _, _, -, -, -, -, hload⟩ := load_of_setPeerConfig h k
    rw [hload]
    exact .same not_false
  | withdrawFee ctx params =>
    obtain ⟨_, _, _, -, -, -, m, htransfer⟩ := WithdrawFee.of_apply_eq_ok h
    rw [World.load_of_data_eq (World.frame_of_transferTokens htransfer).1]
    exact .same not_false
  | send ctx params =>
    obtain ⟨receipt, oftReceipt, hc⟩ := execute_send h
    obtain ⟨tr⟩ := Send.nonempty_trace hc
    have hstore := tr.accounts.store_data
    obtain ⟨tvlLd, htvl⟩ := tvl_of_takeTokens tr.tokens
    rw [(load_of_transfer hstore tr.accounts.peer_data tr.data_update k).2]
    split
    case isTrue hk =>
      subst hk
      rw [World.load_eq_some.mpr hstore, htvl]
      exact .transfer rfl tr.unpaused
    case isFalse hk => exact .same (Ne.symm hk)
  | lzReceive ctx params =>
    obtain ⟨tr⟩ := LzReceive.nonempty_trace h
    have hstore := tr.accounts.store_data
    obtain ⟨tvlLd, htvl⟩ := tvl_of_releaseTokens tr.tokens
    rw [(load_of_transfer hstore tr.accounts.peer_data tr.data_update k).2]
    split
    case isTrue hk =>
      subst hk
      rw [World.load_eq_some.mpr hstore, htvl]
      exact .transfer rfl tr.unpaused
    case isFalse hk => exact .same (Ne.symm hk)

end Changes

end Oft
