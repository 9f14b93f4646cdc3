import SolanaProxy.General.Custody
import SolanaProxy.Oft.Run

/-!
# Escrow solvency

The escrow of an OFT holds the value locked together with the fees, and the store counts the
value locked. Read as a `Custody`, the store owes `tvl_ld` and holds the balance of its escrow.
Every instruction, and everything that can happen outside, moves this pair by steps of a
custodian (`Instruction.moves`), so the value locked is covered in every reachable state
(`escrow_solvent`).

The one step with arithmetic in it is a send to an adapter. It promises the amount received and
takes in what arrives of the amount sent; that the second is the first together with the fee is
the exactness of the inverse transfer fee.
-/

namespace Oft

open Solana

/-- The store at `k` with its escrow, which it owns. -/
structure Escrows (w : OFTWorld) (k : Pubkey) (store : OFTStore) (t : TokenAccount) : Prop where
  data : w.data k = some (.oftStore store)
  tokens : w.tokens store.tokenEscrow = some t
  owner : t.owner = k

/-- What a store owes and what it holds. -/
def OFTStore.custody (store : OFTStore) (t : TokenAccount) : Custody :=
  ⟨store.tvlLd.toNat, t.amount⟩

/-- Every store has its escrow, and holds what it owes. -/
def Solvent (w : OFTWorld) : Prop :=
  ∀ k store, w.data k = some (.oftStore store) →
    ∃ t, Escrows w k store t ∧ (store.custody t).Covered

/-- The store at `k` keeps an escrow, and the two move like a custodian. -/
def Moves (w w' : OFTWorld) (k : Pubkey) : Prop :=
  ∀ store t, Escrows w k store t →
    ∃ store' t', Escrows w' k store' t' ∧ Custody.Steps (store.custody t) (store'.custody t')

section Moves

variable {w w' : OFTWorld} {k : Pubkey}

/-- The escrow of a store belongs to no one else. -/
theorem Escrows.owner_ne {store : OFTStore} {t : TokenAccount} (h : Escrows w k store t)
    {a : Pubkey} (hk : k ≠ a) :
    ∀ t', w.tokens store.tokenEscrow = some t' → t'.owner ≠ a := by
  intro t' ht' howner
  obtain rfl := Option.some.inj (h.tokens.symm.trans ht')
  exact hk (h.owner.symm.trans howner)

/-- A store whose value locked stays the same and whose escrow is not debited only gains. -/
theorem Escrows.of_undebited {store store' : OFTStore} {t : TokenAccount}
    (h : Escrows w k store t) (hdata : w'.data k = some (.oftStore store'))
    (htvl : store'.tvlLd = store.tvlLd) (hescrow : store'.tokenEscrow = store.tokenEscrow)
    (htokens : w.Undebited w' store.tokenEscrow) :
    ∃ store' t', Escrows w' k store' t' ∧
      Custody.Steps (store.custody t) (store'.custody t') := by
  obtain ⟨amount, hle, hamount⟩ := htokens t h.tokens
  refine ⟨store', { t with amount := amount }, ⟨hdata, ?_, h.owner⟩, ?_⟩
  · rw [hescrow, hamount]
  · rw [OFTStore.custody, OFTStore.custody, htvl]
    exact .gain hle

/-- An untouched store whose escrow is not debited only gains. -/
theorem Moves.of_undebited (hdata : w'.data k = w.data k)
    (h : ∀ store t, Escrows w k store t → w.Undebited w' store.tokenEscrow) : Moves w w' k :=
  fun store t ht => ht.of_undebited (hdata.trans ht.data) rfl rfl (h store t ht)

/-- Stores that were there before move, and new ones owe nothing: solvency is kept. -/
theorem Solvent.of_moves (hw : Solvent w) (hmoves : ∀ k, Moves w w' k)
    (hnew : ∀ k store', w'.data k = some (.oftStore store') →
      (∃ store, w.data k = some (.oftStore store)) ∨
        ∃ t, Escrows w' k store' t ∧ store'.tvlLd = 0#64) : Solvent w' := by
  intro k store' hstore'
  rcases hnew k store' hstore' with ⟨store, hstore⟩ | ⟨t, ht, htvl⟩
  · obtain ⟨t, ht, hcovered⟩ := hw k store hstore
    obtain ⟨store'', t', ht', hsteps⟩ := hmoves k store t ht
    obtain rfl : store'' = store' := oftStore_unique ht'.data hstore'
    exact ⟨t', ht', hsteps.covered hcovered⟩
  · refine ⟨t, ht, ?_⟩
    rw [Custody.Covered, OFTStore.custody, htvl]
    exact Nat.zero_le _

end Moves

/-! ### One instruction -/

section Instructions

variable {P : Platform} {env : Env} {w w' : OFTWorld} {es : List OFTEffect} {k : Pubkey}

/-- **Set-up** leaves the stores there were alone. -/
theorem InitOFT.moves {ctx : InitOFT} {params : InitOFTParams}
    (h : ctx.apply P env w params = .ok (w', es)) : Moves w w' k := by
  intro store t ht
  obtain ⟨tr⟩ := nonempty_trace h
  -- the set-up writes fresh addresses only
  have hne : k ≠ ctx.oftStore.pubkey := by
    rintro rfl
    exact nomatch tr.store_new.symm.trans ht.data
  have hne' : k ≠ ctx.lzReceiveTypesAccounts.pubkey := by
    rintro rfl
    exact nomatch tr.types_new.symm.trans ht.data
  have hneEscrow : store.tokenEscrow ≠ ctx.tokenEscrow.pubkey := by
    intro heq
    exact nomatch (heq ▸ tr.escrow_new).symm.trans ht.tokens
  refine ht.of_undebited ?_ rfl rfl (.of_tokens_eq ?_)
  · rw [tr.data_eq, Function.update_of_ne hne', Function.update_of_ne hne, ht.data]
  · rw [tr.tokens_eq, Function.update_of_ne hneEscrow]

/-- A new store has an empty escrow and owes nothing. -/
theorem InitOFT.new_store {ctx : InitOFT} {params : InitOFTParams} {store' : OFTStore}
    (h : ctx.apply P env w params = .ok (w', es)) (hstore' : w'.data k = some (.oftStore store')) :
    (∃ store, w.data k = some (.oftStore store)) ∨
      ∃ t, Escrows w' k store' t ∧ store'.tvlLd = 0#64 := by
  obtain ⟨tr⟩ := nonempty_trace h
  by_cases htypes : k = ctx.lzReceiveTypesAccounts.pubkey
  · rw [tr.data_eq, htypes, Function.update_self] at hstore'
    cases hstore'
  by_cases hk : k = ctx.oftStore.pubkey
  · right
    have hdata' := hstore'
    rw [tr.data_eq, Function.update_of_ne htypes, hk, Function.update_self, Option.some.injEq,
      OFTAccount.oftStore.injEq] at hdata'
    subst hdata'
    have hescrow : w'.tokens ctx.tokenEscrow.pubkey = some ⟨ctx.tokenProgram.pubkey,
        ctx.tokenMint.pubkey, ctx.oftStore.pubkey, 0⟩ := by
      rw [tr.tokens_eq, Function.update_self]
    exact ⟨_, ⟨hstore', hescrow, hk.symm⟩, rfl⟩
  · left
    rw [tr.data_eq, Function.update_of_ne htypes, Function.update_of_ne hk] at hstore'
    exact ⟨store', hstore'⟩

/-- Changing the settings of a store moves nothing. -/
theorem moves_of_setting {a : Pubkey} {store store' : OFTStore}
    (hstore : w.data a = some (.oftStore store)) (hsetup : store.SameSetup store')
    (htvl : store'.tvlLd = store.tvlLd)
    (hdata : w'.data = Function.update w.data a (some (.oftStore store')))
    (htokens : w'.tokens = w.tokens) : Moves w w' k := by
  by_cases hk : k = a
  · intro s t ht
    subst hk
    obtain rfl := oftStore_unique ht.data hstore
    obtain ⟨-, -, -, hescrow, -⟩ := hsetup
    refine ht.of_undebited ?_ htvl hescrow (.of_tokens_eq (by rw [htokens]))
    rw [hdata, Function.update_self]
  · refine .of_undebited ?_ fun s t _ => .of_tokens_eq (by rw [htokens])
    rw [hdata, Function.update_of_ne hk]

/-- Changing a peer moves nothing. -/
theorem SetPeerConfig.moves {ctx : SetPeerConfig} {params : SetPeerConfigParams}
    (h : ctx.apply P env w params = .ok (w', es)) : Moves w w' k := by
  intro store t ht
  obtain ⟨peer, hwrite, hdata, htokens⟩ := of_apply_eq_ok h
  have hne : k ≠ ctx.peer.pubkey := by
    rintro rfl
    cases hwrite with
    | newPeer hold =>
      rcases hold with hnone | ⟨p, hp⟩
      · exact nomatch hnone.symm.trans ht.data
      · exact nomatch hp.symm.trans ht.data
    | peer hold => exact nomatch hold.symm.trans ht.data
  refine ht.of_undebited ?_ rfl rfl (.of_tokens_eq (by rw [htokens]))
  rw [hdata, Function.update_of_ne hne, ht.data]

/-- **Withdrawal** gives away surplus of one store, and debits no other. -/
theorem WithdrawFee.moves {ctx : WithdrawFee} {params : WithdrawFeeParams}
    (h : ctx.apply P env w params = .ok (w', es)) : Moves w w' k := by
  obtain ⟨store, mint, escrow, haccounts, htvl, hfee, m, htransfer⟩ := of_apply_eq_ok h
  obtain ⟨-, htoken, -, -, -, haddress⟩ := loadEscrow_eq_ok.mp haccounts.escrow_loaded
  have hdata : w'.data = w.data := (World.frame_of_transferTokens htransfer).1
  by_cases hk : k = ctx.oftStore.pubkey
  · intro s t ht
    subst hk
    obtain rfl := oftStore_unique ht.data haccounts.store_data
    have htokens := ht.tokens
    rw [← haddress] at htokens
    obtain rfl := Option.some.inj (htoken.symm.trans htokens)
    obtain ⟨-, hsrc⟩ := World.tokens_src_of_transferTokens htokens htransfer
    rw [haddress] at hsrc
    refine ⟨s, _, ⟨by rw [hdata, ht.data], hsrc, ht.owner⟩, ?_⟩
    -- the destination may be the escrow itself
    split
    case isTrue => exact .refl
    case isFalse => exact .single (.withdraw hfee)
  · refine .of_undebited (by rw [hdata]) fun s t ht => ?_
    exact World.undebited_of_transferTokens (fun t' ht' _ => ht.owner_ne hk t' ht') htransfer

/-- A transfer writes no other store than its own. -/
theorem data_of_other_store {a b : Pubkey} {peer peer' : PeerConfig} {store store' : OFTStore}
    (hpeer : w.data a = some (.peerConfig peer))
    (hdata : w'.data = Function.update (Function.update w.data a (some (.peerConfig peer'))) b
      (some (.oftStore store')))
    (hk : k ≠ b) (hstore : w.data k = some (.oftStore store)) :
    w'.data k = some (.oftStore store) := by
  have hne : k ≠ a := oftStore_ne_peer hstore hpeer
  rw [hdata, Function.update_of_ne hk, Function.update_of_ne hne, hstore]

/-- A send debits no escrow, since the signer is no store. -/
theorem Send.undebited_of_trace {ctx : Send} {params : SendParams} {oftReceipt : OFTReceipt}
    (hsigner : w.data ctx.signer.pubkey = none) (tr : Trace P env w ctx params w' es oftReceipt)
    {store : OFTStore} {t : TokenAccount} (ht : Escrows w k store t) :
    w.Undebited w' store.tokenEscrow := by
  obtain ⟨-, -, -, -, hframe⟩ := frame_of_takeTokens tr.tokens
  have hk : k ≠ ctx.signer.pubkey := by
    rintro rfl
    cases hsigner.symm.trans ht.data
  have htaken : w.Undebited tr.taken store.tokenEscrow :=
    hframe store.tokenEscrow (ht.owner_ne hk)
  exact htaken.trans (.of_tokens_eq (by rw [tr.tokens_eq]))

/-- A send to an adapter locks what is received, and takes in the fee on top of it. -/
theorem Send.locks_of_trace {ctx : Send} {params : SendParams} {oftReceipt : OFTReceipt}
    (hsigner : w.data ctx.signer.pubkey = none) (tr : Trace P env w ctx params w' es oftReceipt)
    (htype : tr.store.oftType = .adapter) {t : TokenAccount}
    (ht : Escrows w ctx.oftStore.pubkey tr.store t) :
    ∃ store' t', Escrows w' ctx.oftStore.pubkey store' t' ∧
      Custody.Steps (tr.store.custody t) (store'.custody t') := by
  obtain ⟨source, hsource⟩ := tr.accounts.source_loaded
  obtain ⟨escrow, hescrow⟩ := tr.accounts.escrow_loaded
  obtain ⟨hsourceToken, hsourceOwner, -⟩ := loadToken_eq_ok.mp hsource
  obtain ⟨-, -, -, -, -, haddress⟩ := loadEscrow_eq_ok.mp hescrow
  obtain ⟨hmint, -⟩ := loadStoreMint_eq_ok.mp tr.accounts.mint_loaded
  obtain ⟨tvlLd, m, htvl, hstore, hm, htransfer, -⟩ := takeTokens_adapter htype tr.tokens
  obtain rfl : m = tr.mint := Option.some.inj (hm.symm.trans hmint)
  -- what arrives of the amount sent is the amount received and the fee
  obtain ⟨hsent, -⟩ := of_computeFeeAndAdjustAmount_adapter htype tr.amounts
  have hk : ctx.oftStore.pubkey ≠ ctx.signer.pubkey := by
    intro heq
    rw [← heq, ht.data] at hsigner
    cases hsigner
  -- the escrow belongs to the store, and the source to the signer
  have hne : ctx.tokenSource.pubkey ≠ ctx.tokenEscrow.pubkey := by
    intro heq
    rw [heq, haddress] at hsourceToken
    exact ht.owner_ne hk source hsourceToken hsourceOwner
  have htoken := ht.tokens
  rw [← haddress] at htoken
  have hdst := World.tokens_dst_of_transferTokens hne htoken htransfer
  rw [hsent, haddress, ← tr.tokens_eq] at hdst
  have hdata := tr.store_written
  rw [hstore] at hdata
  refine ⟨_, _, ⟨hdata, hdst, ht.owner⟩, .single ?_⟩
  have hlock : (tr.store.custody t).Step
      ⟨tr.store.tvlLd.toNat + oftReceipt.amountReceivedLd.toNat,
        t.amount + (oftReceipt.amountReceivedLd.toNat + tr.fee.toNat)⟩ :=
    .lock (Nat.le_add_right _ _)
  rwa [← htvl] at hlock

/-- **A send** to an adapter locks, and a send to a native OFT takes in its fee. No other escrow
is debited. -/
theorem Send.moves {ctx : Send} {params : SendParams} {receipt : MessagingReceipt}
    {oftReceipt : OFTReceipt} (hsigner : w.data ctx.signer.pubkey = none)
    (h : ctx.apply P env w params = .ok (w', es, receipt, oftReceipt)) : Moves w w' k := by
  obtain ⟨tr⟩ := nonempty_trace h
  intro store t ht
  by_cases hk : k = ctx.oftStore.pubkey
  · subst hk
    obtain rfl : store = tr.store := oftStore_unique ht.data tr.accounts.store_data
    cases htype : tr.store.oftType with
    | adapter => exact locks_of_trace hsigner tr htype ht
    | native =>
      have hdata := tr.store_written
      rw [(takeTokens_native htype tr.tokens).1] at hdata
      exact ht.of_undebited hdata rfl rfl (undebited_of_trace hsigner tr ht)
  · have hdata : w'.data k = some (.oftStore store) :=
      data_of_other_store tr.accounts.peer_data tr.data_update hk ht.data
    exact ht.of_undebited hdata rfl rfl (undebited_of_trace hsigner tr ht)

/-- The escrow of a store is there after the recipient's token account was created. -/
theorem LzReceive.escrows_loaded {ctx : LzReceive} {params : LzReceiveParams}
    (tr : Trace P env w ctx params w' es) {store : OFTStore} {t : TokenAccount}
    (ht : Escrows w k store t) : Escrows tr.loaded k store t := by
  have hdata : tr.loaded.data = w.data := data_of_initAssociatedIfNeeded tr.accounts.dest_created
  exact ⟨hdata ▸ ht.data,
    tokens_of_initAssociatedIfNeeded tr.accounts.dest_created ht.tokens, ht.owner⟩

/-- Only the store of a delivery can have its escrow debited, and only by an adapter. -/
theorem LzReceive.undebited_of_trace {ctx : LzReceive} {params : LzReceiveParams}
    (tr : Trace P env w ctx params w' es) {store : OFTStore} {t : TokenAccount}
    (ht : Escrows w k store t) (h : k ≠ ctx.oftStore.pubkey ∨ tr.store.oftType = .native) :
    w.Undebited w' store.tokenEscrow := by
  have hloaded : Escrows tr.loaded k store t := escrows_loaded tr ht
  have hreleased : World.Undebited { tr.loaded with lamports := tr.lamports } tr.released
      store.tokenEscrow := by
    rcases h with hk | htype
    · obtain ⟨-, -, -, hframe⟩ := frame_of_releaseTokens tr.tokens
      exact hframe store.tokenEscrow (hloaded.owner_ne hk)
    · obtain ⟨-, hmint, -⟩ := releaseTokens_native htype tr.tokens
      exact World.undebited_of_mintTokens hmint
  intro t' ht'
  obtain rfl := Option.some.inj (ht.tokens.symm.trans ht')
  obtain ⟨amount, hle, hamount⟩ := hreleased t hloaded.tokens
  refine ⟨amount, hle, ?_⟩
  rw [tr.tokens_eq, hamount]

/-- A delivery by an adapter releases what the store counts. -/
theorem LzReceive.releases_of_trace {ctx : LzReceive} {params : LzReceiveParams}
    (tr : Trace P env w ctx params w' es) (htype : tr.store.oftType = .adapter)
    {t : TokenAccount} (ht : Escrows w ctx.oftStore.pubkey tr.store t) :
    ∃ store' t', Escrows w' ctx.oftStore.pubkey store' t' ∧
      Custody.Steps (tr.store.custody t) (store'.custody t') := by
  obtain ⟨escrow, hescrow⟩ := tr.accounts.escrow_loaded
  obtain ⟨-, -, -, -, -, haddress⟩ := loadEscrow_eq_ok.mp hescrow
  obtain ⟨tvlLd, m, htvl, hstore, htransfer, -⟩ := releaseTokens_adapter htype tr.tokens
  have htoken := (escrows_loaded tr ht).tokens
  rw [← haddress] at htoken
  obtain ⟨hle, hsrc⟩ := World.tokens_src_of_transferTokens
    (w := { tr.loaded with lamports := tr.lamports }) htoken htransfer
  rw [haddress, ← tr.tokens_eq] at hsrc
  have hdata := tr.store_written
  rw [hstore] at hdata
  refine ⟨_, _, ⟨hdata, hsrc, ht.owner⟩, ?_⟩
  have hcounted : tr.amountLd.toNat ≤ tr.store.tvlLd.toNat := by omega
  have howed : tvlLd.toNat = tr.store.tvlLd.toNat - tr.amountLd.toNat := by omega
  have hrelease : (tr.store.custody t).Step
      ⟨tr.store.tvlLd.toNat - tr.amountLd.toNat, t.amount - tr.amountLd.toNat⟩ :=
    .release hcounted hle
  rw [← howed] at hrelease
  -- when the escrow pays itself it gets the amount back
  split
  case isTrue => exact .head hrelease (Custody.Steps.gain (Nat.sub_le _ _))
  case isFalse => exact .single hrelease

/-- **A delivery** by an adapter releases what the store counts, and a native OFT mints; no other
escrow is debited. -/
theorem LzReceive.moves {ctx : LzReceive} {params : LzReceiveParams}
    (h : ctx.apply P env w params = .ok (w', es)) : Moves w w' k := by
  obtain ⟨tr⟩ := nonempty_trace h
  intro store t ht
  by_cases hk : k = ctx.oftStore.pubkey
  · subst hk
    obtain rfl : store = tr.store := oftStore_unique ht.data tr.accounts.store_data
    cases htype : tr.store.oftType with
    | adapter => exact releases_of_trace tr htype ht
    | native =>
      have hdata := tr.store_written
      rw [(releaseTokens_native htype tr.tokens).1] at hdata
      exact ht.of_undebited hdata rfl rfl (undebited_of_trace tr ht (Or.inr htype))
  · have hdata : w'.data k = some (.oftStore store) :=
      data_of_other_store tr.accounts.peer_data tr.data_update hk ht.data
    exact ht.of_undebited hdata rfl rfl (undebited_of_trace tr ht (Or.inl hk))

end Instructions

/-! ### Runs -/

section Runs

variable {P : Platform} {env : Env} {w w' : OFTWorld} {es : List OFTEffect}

/-- A write makes a store only where there was one, unless it is a new one. -/
private theorem exists_store_of_update {data : Contents} {a k : Pubkey} {x : OFTAccount}
    {store' : OFTStore} (hx : ∀ s, x = .oftStore s → ∃ s, data a = some (.oftStore s))
    (h : Function.update data a (some x) k = some (.oftStore store')) :
    ∃ store, data k = some (.oftStore store) := by
  rw [Function.update_apply] at h
  split at h
  case isTrue hk => exact hk ▸ hx store' (Option.some.inj h)
  case isFalse => exact ⟨store', h⟩

/-- A transfer makes no store. -/
private theorem exists_store_of_transfer {a b k : Pubkey} {peer peer' : PeerConfig}
    {store store₁ store' : OFTStore} (hpeer : w.data a = some (.peerConfig peer))
    (hstore : w.data b = some (.oftStore store))
    (hdata : w'.data = Function.update (Function.update w.data a (some (.peerConfig peer'))) b
      (some (.oftStore store₁)))
    (h : w'.data k = some (.oftStore store')) :
    ∃ store, w.data k = some (.oftStore store) := by
  have hne : b ≠ a := oftStore_ne_peer hstore hpeer
  rw [hdata] at h
  obtain ⟨s, hs⟩ := exists_store_of_update
    (fun _ _ => ⟨store, by rw [Function.update_of_ne hne, hstore]⟩) h
  exact exists_store_of_update (x := .peerConfig peer') (fun _ heq => nomatch heq) hs

/-- **Step.** Every call keeps every store solvent. -/
theorem Solvent.invoke {i : Instruction} (hw : Solvent w)
    (h : i.invoke P env w = .ok (w', es)) : Solvent w' := by
  obtain ⟨hsigners, hexec⟩ := Instruction.invoke_eq_ok.mp h
  cases i with
  | initOFT ctx params =>
    exact hw.of_moves (fun _ => InitOFT.moves hexec) fun _ _ => InitOFT.new_store hexec
  | setOFTConfig ctx params =>
    obtain ⟨store, store', hstore, hsetup, htvl, -, hdata, htokens⟩ :=
      SetOFTConfig.of_apply_eq_ok hexec
    refine hw.of_moves (fun _ => moves_of_setting hstore hsetup htvl hdata htokens) ?_
    exact fun k s hs => Or.inl (exists_store_of_update (fun _ _ => ⟨store, hstore⟩) (hdata ▸ hs))
  | setPause ctx params =>
    obtain ⟨store, hstore, -, rfl⟩ := SetPause.of_apply_eq_ok hexec
    have hsetup : store.SameSetup { store with paused := params.paused } := .refl store
    refine hw.of_moves (fun _ => moves_of_setting hstore hsetup rfl rfl rfl) ?_
    exact fun k s hs => Or.inl (exists_store_of_update (fun _ _ => ⟨store, hstore⟩) hs)
  | setPeerConfig ctx params =>
    obtain ⟨peer, -, hdata, -⟩ := SetPeerConfig.of_apply_eq_ok hexec
    refine hw.of_moves (fun _ => SetPeerConfig.moves hexec) ?_
    exact fun k s hs => Or.inl (exists_store_of_update (x := .peerConfig peer)
      (fun _ heq => nomatch heq) (hdata ▸ hs))
  | withdrawFee ctx params =>
    obtain ⟨_, _, _, -, -, -, m, htransfer⟩ := WithdrawFee.of_apply_eq_ok hexec
    refine hw.of_moves (fun _ => WithdrawFee.moves hexec) ?_
    exact fun k s hs => Or.inl ⟨s, (World.frame_of_transferTokens htransfer).1 ▸ hs⟩
  | send ctx params =>
    obtain ⟨receipt, oftReceipt, happly⟩ := Instruction.execute_send hexec
    obtain ⟨tr⟩ := Send.nonempty_trace happly
    -- nobody signs for an account of the program
    have hkey : w.data ctx.signer.pubkey = none :=
      hsigners ctx.signer (List.mem_cons_self ..) tr.accounts.signer_signed
    refine hw.of_moves (fun _ => Send.moves hkey happly) ?_
    exact fun k s hs => Or.inl (exists_store_of_transfer tr.accounts.peer_data
      tr.accounts.store_data tr.data_update hs)
  | lzReceive ctx params =>
    obtain ⟨tr⟩ := LzReceive.nonempty_trace hexec
    refine hw.of_moves (fun _ => LzReceive.moves hexec) ?_
    exact fun k s hs => Or.inl (exists_store_of_transfer tr.accounts.peer_data
      tr.accounts.store_data tr.data_update hs)

/-- Nothing outside debits an escrow. -/
theorem Solvent.outside (hw : Solvent w) (lamports : Pubkey → ℕ)
    (tokens : Pubkey → Option TokenAccount) (mints : Pubkey → Option Mint)
    (deposits : Pubkey → ℕ) :
    Solvent ⟨w.data, lamports, outsideTokens w tokens deposits, mints⟩ := by
  refine hw.of_moves (fun k => .of_undebited rfl fun store t ht t' ht' => ?_)
    fun k s hs => Or.inl ⟨s, hs⟩
  obtain rfl := Option.some.inj (ht.tokens.symm.trans ht')
  -- the owner of the escrow is an account of the program
  have howned : ¬w.data t.owner = none := by
    rw [ht.owner, ht.data]
    exact fun h => nomatch h
  refine ⟨t.amount + deposits store.tokenEscrow, Nat.le_add_right _ _, ?_⟩
  simp only [outsideTokens, ht.tokens, if_neg howned]

/-- **Run.** Every store is solvent in every reachable state. -/
theorem solvent_run {s : OFTState P} (hs : s.Fresh) (is : List Input) :
    Solvent (Machine.run (step P) s is).world := by
  refine Machine.run_invariant (P := fun s : OFTState P => Solvent s.world) ?_ ?_ is
  · intro s i s' es hw hstep
    cases i with
    | call env i => exact hw.invoke (step_call_eq_ok.mp hstep)
    | outside lamports tokens mints deposits =>
      obtain ⟨rfl, -⟩ := Prod.mk.inj (Except.ok.inj hstep)
      exact hw.outside lamports tokens mints deposits
  · intro k store hstore
    exact nomatch (hs k).symm.trans hstore

/-! ### What solvency is good for -/

/-- A solvent store's own escrow covers the value locked. -/
theorem Solvent.le_escrow (hw : Solvent w) {store : OFTStore}
    {oftStore tokenEscrow tokenMint tokenProgram : AccountInfo} {escrow : TokenAccount}
    (hstore : w.data oftStore.pubkey = some (.oftStore store))
    (h : loadEscrow w store oftStore tokenEscrow tokenMint tokenProgram = .ok escrow) :
    store.tvlLd.toNat ≤ escrow.amount := by
  obtain ⟨t, ht, hcovered⟩ := hw _ store hstore
  obtain ⟨-, htoken, -, -, -, haddress⟩ := loadEscrow_eq_ok.mp h
  have htokens := ht.tokens
  rw [← haddress] at htokens
  obtain rfl := Option.some.inj (htoken.symm.trans htokens)
  exact hcovered

/-- **Withdrawals.** With its accounts in order a withdrawal goes through exactly when the
surplus covers the fee. -/
theorem WithdrawFee.exists_apply_iff (hw : Solvent w) {ctx : WithdrawFee}
    {params : WithdrawFeeParams} {store : OFTStore} {mint : Mint} {escrow : TokenAccount}
    (haccounts : tryAccounts P w ctx = .ok (store, mint, escrow)) :
    (∃ w' es, ctx.apply P env w params = .ok (w', es)) ↔
      params.feeLd.toNat ≤ escrow.amount - store.tvlLd.toNat := by
  have hvalid : Accounts P w ctx store mint escrow := tryAccounts_eq_ok.mp haccounts
  obtain ⟨d, hd, hdmint, hdprogram⟩ := hvalid.dest_loaded
  obtain ⟨hm, hmprogram, -⟩ := loadStoreMint_eq_ok.mp hvalid.mint_loaded
  obtain ⟨-, htoken, howner, htmint, htprogram, -⟩ := loadEscrow_eq_ok.mp hvalid.escrow_loaded
  have hcovered : store.tvlLd.toNat ≤ escrow.amount :=
    hw.le_escrow hvalid.store_data hvalid.escrow_loaded
  constructor
  · rintro ⟨w', es, h⟩
    obtain ⟨store', mint', escrow', hvalid', -, hfee, -⟩ := of_apply_eq_ok h
    obtain ⟨rfl, rfl, rfl⟩ : store = store' ∧ mint = mint' ∧ escrow = escrow' := by
      simpa using haccounts.symm.trans (tryAccounts_eq_ok.mpr hvalid')
    exact hfee
  · intro hfee
    have htransfer : ∃ w', transferChecked (E := OFTError) env w ctx.tokenProgram.pubkey
        ctx.tokenEscrow.pubkey ctx.tokenMint.pubkey ctx.tokenDest.pubkey ctx.oftStore.pubkey
        params.feeLd mint.decimals = .ok w' :=
      exists_transferChecked htoken hd hm ⟨htmint, hdmint⟩ ⟨htprogram, hdprogram, hmprogram⟩
        howner (hfee.trans (Nat.sub_le escrow.amount store.tvlLd.toNat))
    obtain ⟨w', hw'⟩ := htransfer
    simp only [apply, haccounts, Except.ok_bind, Except.require_of_true hcovered,
      Except.require_of_true hfee, hw']
    exact ⟨w', _, rfl⟩

/-- **Deliveries.** An adapter finds every amount it counts in its escrow. -/
theorem LzReceive.exists_releaseTokens (hw : Solvent w) {ctx : LzReceive}
    {params : LzReceiveParams} {store : OFTStore} {peer : PeerConfig} {mint : Mint}
    {amountLd : U64} (lamports : Pubkey → ℕ)
    (haccounts : tryAccounts P w ctx params = .ok (w', store, peer, mint))
    (htype : store.oftType = .adapter) (hle : amountLd.toNat ≤ store.tvlLd.toNat) :
    ∃ r, releaseTokens env { w' with lamports := lamports } ctx store mint amountLd = .ok r := by
  have hvalid : Accounts P w ctx params w' store peer mint := tryAccounts_eq_ok.mp haccounts
  obtain ⟨escrow, hescrow⟩ := hvalid.escrow_loaded
  obtain ⟨hm, hmprogram, -⟩ := loadStoreMint_eq_ok.mp hvalid.mint_loaded
  obtain ⟨-, htoken, howner, htmint, htprogram, -⟩ := loadEscrow_eq_ok.mp hescrow
  obtain ⟨⟨d, hd, hdmint, hdprogram⟩, hmints⟩ :=
    exists_token_of_initAssociatedIfNeeded hvalid.dest_created
  have hcovered : (store.custody escrow).Covered := hw.le_escrow hvalid.store_data hescrow
  have htoken' : w'.tokens ctx.tokenEscrow.pubkey = some escrow :=
    tokens_of_initAssociatedIfNeeded hvalid.dest_created htoken
  have htransfer : ∃ w₂, transferChecked (E := OFTError) env { w' with lamports := lamports }
      ctx.tokenProgram.pubkey ctx.tokenEscrow.pubkey ctx.tokenMint.pubkey ctx.tokenDest.pubkey
      ctx.oftStore.pubkey amountLd mint.decimals = .ok w₂ :=
    exists_transferChecked htoken' hd (hmints ▸ hm) ⟨htmint, hdmint⟩
      ⟨htprogram, hdprogram, hmprogram⟩ howner (hcovered.le_held hle)
  obtain ⟨w₂, hw₂⟩ := htransfer
  obtain ⟨post, hpost⟩ := exists_getPostFeeAmountLd env mint amountLd
  have hsub : Word.checkedSub store.tvlLd amountLd = some (store.tvlLd - amountLd) := if_pos hle
  simp only [releaseTokens, htype, hsub, hw₂, hpost, Except.ofOption_some, Except.ok_bind]
  exact ⟨_, rfl⟩

/-- A withdrawal leaves the value locked. -/
theorem WithdrawFee.le_escrow_of_apply (hw : Solvent w) {ctx : WithdrawFee}
    {params : WithdrawFeeParams} {store : OFTStore} {mint : Mint} {escrow : TokenAccount}
    (haccounts : tryAccounts P w ctx = .ok (store, mint, escrow))
    (h : ctx.apply P env w params = .ok (w', es)) :
    ∃ t, w'.tokens store.tokenEscrow = some t ∧ store.tvlLd.toNat ≤ t.amount := by
  have hstore : w.data ctx.oftStore.pubkey = some (.oftStore store) :=
    (tryAccounts_eq_ok.mp haccounts).store_data
  obtain ⟨_, _, _, -, -, -, m, htransfer⟩ := of_apply_eq_ok h
  have hdata : w'.data = w.data := (World.frame_of_transferTokens htransfer).1
  obtain ⟨t, ht, hcovered⟩ := hw _ store hstore
  obtain ⟨store', t', ht', hsteps⟩ := moves h store t ht
  have hstore' : w'.data ctx.oftStore.pubkey = some (.oftStore store) := by
    rw [hdata, hstore]
  obtain rfl : store' = store := oftStore_unique ht'.data hstore'
  exact ⟨t', ht'.tokens, hsteps.covered hcovered⟩

/-- **Escrow solvency.** In every reachable state every store owns its escrow, and the escrow
holds the value locked. So the subtraction of a withdrawal does not underflow, a withdrawal with
its accounts in order goes through exactly when the surplus covers it and leaves the value
locked, and an adapter finds every amount it counts. -/
theorem escrow_solvent {s : OFTState P} (hs : s.Fresh) (is : List Input) :
    (∀ k store, (worldAfter s is).data k = some (.oftStore store) →
      ∃ t, (worldAfter s is).tokens store.tokenEscrow = some t ∧ t.owner = k ∧
        store.tvlLd.toNat ≤ t.amount) ∧
    (∀ (ctx : WithdrawFee) store mint escrow,
      ctx.tryAccounts P (worldAfter s is) = .ok (store, mint, escrow) →
      store.tvlLd.toNat ≤ escrow.amount ∧ ∀ env params,
        ((∃ w' es, ctx.apply P env (worldAfter s is) params = .ok (w', es)) ↔
          params.feeLd.toNat ≤ escrow.amount - store.tvlLd.toNat) ∧
        ∀ w' es, ctx.apply P env (worldAfter s is) params = .ok (w', es) →
          ∃ t, w'.tokens store.tokenEscrow = some t ∧ store.tvlLd.toNat ≤ t.amount) ∧
    (∀ (ctx : LzReceive) params w' store peer mint,
      ctx.tryAccounts P (worldAfter s is) params = .ok (w', store, peer, mint) →
      store.oftType = .adapter → ∀ env lamports (amountLd : U64),
        amountLd.toNat ≤ store.tvlLd.toNat →
        ∃ r, ctx.releaseTokens env { w' with lamports := lamports } store mint amountLd =
          .ok r) := by
  have hw : Solvent (worldAfter s is) := solvent_run hs is
  refine ⟨fun k store hstore => ?_, fun ctx store mint escrow haccounts => ⟨?_, fun env params =>
    ⟨WithdrawFee.exists_apply_iff hw haccounts, fun w' es h =>
      WithdrawFee.le_escrow_of_apply hw haccounts h⟩⟩, ?_⟩
  · obtain ⟨t, ht, hcovered⟩ := hw k store hstore
    exact ⟨t, ht.tokens, ht.owner, hcovered⟩
  · have hvalid := WithdrawFee.tryAccounts_eq_ok.mp haccounts
    exact hw.le_escrow hvalid.store_data hvalid.escrow_loaded
  · intro ctx params w' store peer mint haccounts htype env lamports amountLd hle
    exact LzReceive.exists_releaseTokens hw lamports haccounts htype hle

end Runs

/-- The accounts of a withdrawal from the sample deployment. -/
def sampleWithdraw : WithdrawFee :=
  ⟨sampleSigner sampleAdmin, ⟨sampleKey 1, false, false⟩, ⟨sampleMint, false, false⟩,
    sampleWritable (sampleKey 9), sampleWritable (sampleKey 31), ⟨sampleKey 102, false, false⟩⟩

/-- In the sample deployment a withdrawal of the fee goes through and the value locked stays. -/
theorem escrow_solvent_sample :
    ∃ store mint escrow w' es, sampleWithdraw.tryAccounts samplePlatform sampleLocked.world =
        .ok (store, mint, escrow) ∧
      sampleWithdraw.apply samplePlatform sampleEnv sampleLocked.world ⟨4970000#64⟩ =
        .ok (w', es) ∧
      ∃ t, w'.tokens store.tokenEscrow = some t ∧ 990030000 ≤ t.amount := by
  obtain ⟨-, hwithdraw, -⟩ := escrow_solvent (s := sampleFresh) (fun _ => rfl)
    (sampleSetup ++ [.call sampleEnv (.send sampleSend sampleSendParams)])
  have haccounts : (sampleWithdraw.tryAccounts samplePlatform sampleLocked.world).map
      (fun r => (r.1.tvlLd, r.2.2.amount)) = .ok (990030000#64, 995000000) := by decide +kernel
  obtain ⟨⟨store, mint, escrow⟩, hok, hamounts⟩ := Except.map_eq_ok.mp haccounts
  obtain ⟨htvl, hescrow⟩ := Prod.mk.inj hamounts
  obtain ⟨-, hall⟩ := hwithdraw sampleWithdraw store mint escrow hok
  obtain ⟨hiff, hleft⟩ := hall sampleEnv ⟨4970000#64⟩
  obtain ⟨w', es, happly⟩ := hiff.mpr (by rw [htvl, hescrow]; decide)
  obtain ⟨t, ht, hle⟩ := hleft w' es happly
  rw [htvl] at hle
  exact ⟨store, mint, escrow, w', es, hok, happly, t, ht, hle⟩

end Oft
