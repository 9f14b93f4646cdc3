import SolanaProxy.Oft.Fees
import SolanaProxy.Oft.QuoteSend
import SolanaProxy.Oft.Settings

/-!
# The pause of an OFT

A pause lasts until the admin of the store or its unpauser ends it. Till then the store is frozen:
it stays as it is, its peers stay as they are, and its escrow loses nothing (`Frozen`). One
instruction of anybody else keeps it so (`Instruction.frozen_of_paused`), hence a whole run does,
and nothing is sent, received or quoted in it (`pause_holds`).
-/

namespace Oft

open Solana Machine

/-- The input is signed by somebody who may end the pause of a store. -/
def Input.SignedToUnpause (store : OFTStore) (i : Input) : Prop :=
  i.SignedBy store.admin ∨ ∃ u ∈ store.unpauser, i.SignedBy u

/-- The peer of the store at `k` for an endpoint id. -/
def peerOf (P : Platform) (k : Pubkey) (w : OFTWorld) (eid : U32) : Option PeerConfig :=
  (P.findProgramAddress (peerSeeds k eid)).bind fun x => w.load peerKind x.1

/-- Nothing of the store at `k` has moved: it and its peers are what they were, and its escrow has
lost nothing. -/
structure Frozen (P : Platform) (k : Pubkey) (w w' : OFTWorld) : Prop where
  store : w'.data k = w.data k
  peers : peerOf P k w' = peerOf P k w
  escrow : ∀ store t, Escrows w k store t → w.Undebited w' store.tokenEscrow

namespace Frozen

variable {P : Platform} {k : Pubkey} {w w' w'' : OFTWorld}

theorem refl (P : Platform) (k : Pubkey) (w : OFTWorld) : Frozen P k w w :=
  ⟨rfl, rfl, fun store _ _ => .refl w store.tokenEscrow⟩

theorem trans (h : Frozen P k w w') (h' : Frozen P k w' w'') : Frozen P k w w'' := by
  refine ⟨h'.store.trans h.store, h'.peers.trans h.peers, fun store t ht => ?_⟩
  have hfirst := h.escrow store t ht
  obtain ⟨amount, -, hamount⟩ := hfirst t ht.tokens
  exact hfirst.trans (h'.escrow store _ ⟨h.store.trans ht.data, hamount, ht.owner⟩)

/-- What happens outside freezes every store. -/
theorem outside (w : OFTWorld) (lamports : Pubkey → ℕ) (tokens : Pubkey → Option TokenAccount)
    (mints : Pubkey → Option Mint) (deposits : Pubkey → ℕ) :
    Frozen P k w ⟨w.data, lamports, outsideTokens w tokens deposits, mints⟩ :=
  ⟨rfl, rfl, fun _ _ ht => ht.undebited_outside lamports tokens mints deposits⟩

end Frozen

/-! ### One instruction -/

section Instructions

variable {P : Platform} {env : Env} {w w' : OFTWorld} {es : List OFTEffect} {i : Instruction}
  {k : Pubkey} {store : OFTStore}

/-- A transfer through a peer of a store is a transfer of the store. -/
theorem Instruction.ofStore_of_throughPeer (hP : P.DeriveInjective) {eid : U32} {kp : Pubkey}
    {bump : U8} (hkp : P.findProgramAddress (peerSeeds k eid) = some (kp, bump))
    (h : i.execute P env w = .ok (w', es)) (hthrough : i.ThroughPeer kp) : i.OfStore k := by
  cases i with
  | send ctx params =>
    obtain ⟨receipt, oftReceipt, hc⟩ := execute_send h
    obtain ⟨t⟩ := Send.nonempty_trace hc
    obtain ⟨-, hseeds⟩ := loadPda_eq_ok.mp t.accounts.peer_loaded
    obtain rfl : ctx.peer.pubkey = kp := hthrough
    exact (peerSeeds_inj (hP.seeds_eq hseeds (Platform.createProgramAddress_of_find hkp))).1
  | lzReceive ctx params =>
    obtain ⟨t⟩ := LzReceive.nonempty_trace h
    obtain ⟨-, hseeds⟩ := loadPda_eq_ok.mp t.accounts.peer_loaded
    obtain rfl : ctx.peer.pubkey = kp := hthrough
    exact (peerSeeds_inj (hP.seeds_eq hseeds (Platform.createProgramAddress_of_find hkp))).1
  | _ => exact hthrough.elim

/-- What checks the admin of a store is signed by the admin it has. -/
theorem admin_of_loadStoreFor {admin oftStore : AccountInfo} {store' : OFTStore}
    (hload : loadStoreFor P w admin oftStore = .ok store')
    (hstore : w.data oftStore.pubkey = some (.oftStore store)) :
    admin.isSigner = true ∧ admin.pubkey = store.admin := by
  obtain ⟨hsigner, hload', hadmin⟩ := loadStoreFor_eq_ok.mp hload
  obtain rfl := oftStore_unique (loadStore_eq_ok.mp hload').1 hstore
  exact ⟨hsigner, hadmin.symm⟩

/-- **Peers** change with the transfers of their store, and with what its admin signs. -/
theorem Instruction.peerOf_eq (hP : P.DeriveInjective)
    (hstore : w.data k = some (.oftStore store)) (hadmin : ¬i.SignedBy store.admin)
    (hother : ¬i.OfStore k) (h : i.execute P env w = .ok (w', es)) :
    peerOf P k w' = peerOf P k w := by
  funext eid
  rw [peerOf, peerOf]
  cases hkp : P.findProgramAddress (peerSeeds k eid) with
  | none => rfl
  | some x =>
    obtain ⟨kp, bump⟩ := x
    have hthrough : ¬i.ThroughPeer kp := fun hthrough =>
      hother (Instruction.ofStore_of_throughPeer hP hkp h hthrough)
    have hchange := i.peerChange h kp
    simp only [Option.bind_some]
    generalize w.load peerKind kp = o at hchange ⊢
    generalize w'.load peerKind kp = o' at hchange ⊢
    cases hchange with
    | same => rfl
    | sent hkey => exact (hthrough hkey).elim
    | received hkey => exact (hthrough hkey).elim
    | @set ctx params store' _ p bump' hkey hload hfind hset =>
      -- the address tells whose peer it is
      obtain ⟨rfl, -⟩ := peerSeeds_inj (hP.seeds_eq
        (Platform.createProgramAddress_of_find hfind) (Platform.createProgramAddress_of_find hkp))
      exact (hadmin ⟨ctx.admin, List.mem_cons_self, admin_of_loadStoreFor hload hstore⟩).elim

/-- **Withdrawals** are signed by the admin of their store. -/
theorem Instruction.not_withdraws (hstore : w.data k = some (.oftStore store))
    (hadmin : ¬i.SignedBy store.admin) (h : i.execute P env w = .ok (w', es)) :
    ¬i.Withdraws k := by
  intro hwithdraw
  cases i with
  | withdrawFee ctx params =>
    obtain ⟨_, _, _, haccounts, -⟩ := WithdrawFee.of_apply_eq_ok h
    obtain rfl : ctx.oftStore.pubkey = k := hwithdraw
    exact hadmin ⟨ctx.admin, List.mem_cons_self,
      admin_of_loadStoreFor haccounts.store_loaded hstore⟩
  | _ => exact hwithdraw.elim

/-- A store that is paused stays as it is, and nothing is transferred. -/
theorem StoreChange.of_paused {o' : Option OFTStore} (hpaused : store.paused = true)
    (hunsigned : ¬(Input.call env i).SignedToUnpause store)
    (h : StoreChange P env w k i (some store) o') : ¬i.OfStore k ∧ o' = some store := by
  cases h with
  | same hother => exact ⟨hother, rfl⟩
  | @config ctx params _ _ _ _ hkey hsigner hadmin =>
    exact (hunsigned (.inl ⟨ctx.admin, List.mem_cons_self, hsigner, hadmin.symm⟩)).elim
  | @pause ctx params _ hkey hsigner hvalid =>
    refine ⟨not_false, ?_⟩
    cases hflag : params.paused with
    | true => rw [← hpaused]
    | false =>
      rw [isValidSigner, hflag, if_neg Bool.false_ne_true, decide_eq_true_eq] at hvalid
      exact (hunsigned (.inr ⟨_, hvalid, ctx.signer, List.mem_cons_self, hsigner, rfl⟩)).elim
  | transfer hof hunpaused =>
    rw [hpaused] at hunpaused
    cases hunpaused

/-- **One instruction** that nobody has signed who may end the pause is no transfer of the store,
and leaves it frozen. -/
theorem Instruction.frozen_of_paused (hP : P.DeriveInjective)
    (hstore : w.data k = some (.oftStore store)) (hpaused : store.paused = true)
    (hunsigned : ¬(Input.call env i).SignedToUnpause store)
    (h : i.invoke P env w = .ok (w', es)) : ¬i.OfStore k ∧ Frozen P k w w' := by
  obtain ⟨-, hexec⟩ := Instruction.invoke_eq_ok.mp h
  have hadmin : ¬i.SignedBy store.admin := fun hsigned => hunsigned (.inl hsigned)
  have hchange := i.storeChange hexec k
  rw [World.load_eq_some.mpr hstore] at hchange
  obtain ⟨hother, hload⟩ := hchange.of_paused hpaused hunsigned
  refine ⟨hother, ?_, Instruction.peerOf_eq hP hstore hadmin hother hexec, fun store' t ht => ?_⟩
  · exact (World.load_eq_some.mp hload).trans hstore.symm
  · obtain rfl := oftStore_unique hstore ht.data
    exact Instruction.undebited_escrow ht (Instruction.not_withdraws hstore hadmin hexec) hother h

end Instructions

/-! ### Runs -/

section Runs

variable {P : Platform} {s s' : OFTState P} {i : Input} {es : List OFTEffect} {k : Pubkey}
  {store : OFTStore}

/-- **One input** that nobody has signed who may end the pause is no transfer of the store, and
leaves it frozen. -/
theorem frozen_of_step (hP : P.DeriveInjective)
    (hstore : s.world.data k = some (.oftStore store)) (hpaused : store.paused = true)
    (hunsigned : ¬i.SignedToUnpause store) (h : step P s i = .ok (s', es)) :
    ¬i.OfStore k ∧ Frozen P k s.world s'.world := by
  cases i with
  | call env i =>
    exact Instruction.frozen_of_paused hP hstore hpaused hunsigned (step_call_eq_ok.mp h)
  | outside lamports tokens mints deposits =>
    obtain ⟨rfl, -⟩ := Prod.mk.inj (Except.ok.inj h)
    exact ⟨not_false, .outside s.world lamports tokens mints deposits⟩

/-- A step of a run that nobody has signed who may end the pause leaves the store frozen. -/
theorem Frozen.of_transition (hP : P.DeriveInjective) {s₀ : OFTState P} {is : List Input}
    (hstore : s₀.world.data k = some (.oftStore store)) (hpaused : store.paused = true)
    (hunsigned : ∀ e ∈ history (step P) s₀ is, ¬e.1.SignedToUnpause store)
    {t : OFTState P × Input × List OFTEffect} (ht : t ∈ transitions (step P) s₀ is)
    (hfrozen : Frozen P k s₀.world t.1.world) (h : step P t.1 t.2.1 = .ok (s', t.2.2)) :
    ¬t.2.1.OfStore k ∧ Frozen P k s₀.world s'.world := by
  obtain ⟨hother, hstep⟩ := frozen_of_step hP (hfrozen.store.trans hstore) hpaused
    (hunsigned t.2 (mem_history_of_mem_transitions ht)) h
  exact ⟨hother, hfrozen.trans hstep⟩

/-- **A quote** is of a store that is not paused. -/
theorem QuoteSend.unpaused_of_apply {env : Env} {w : OFTWorld} {ctx : QuoteSend}
    {params : QuoteSendParams} {r : List OFTEffect × MessagingFee}
    (hstore : w.data ctx.oftStore.pubkey = some (.oftStore store))
    (h : ctx.apply P env w params = .ok r) : store.paused = false := by
  simp only [QuoteSend.apply, QuoteSend.prepare, QuoteSend.tryAccounts, Except.bind_eq_ok,
    Except.require_eq_ok, Except.pure_eq_ok] at h
  obtain ⟨_, ⟨_, ⟨store', hload, _, -, _, -, _, -, _, -, rfl⟩, _, hunpaused, -⟩, -⟩ := h
  obtain rfl := oftStore_unique (loadStore_eq_ok.mp hload).1 hstore
  exact hunpaused

theorem QuoteOFT.unpaused_of_apply {env : Env} {w : OFTWorld} {ctx : QuoteOFT}
    {params : QuoteOFTParams} {r : QuoteOFTResult}
    (hstore : w.data ctx.oftStore.pubkey = some (.oftStore store))
    (h : ctx.apply P env w params = .ok r) : store.paused = false := by
  simp only [QuoteOFT.apply, QuoteOFT.tryAccounts, Except.bind_eq_ok, Except.require_eq_ok,
    Except.pure_eq_ok] at h
  obtain ⟨_, ⟨store', hload, _, -, _, -, _, -, _, -, rfl⟩, _, hunpaused, -⟩ := h
  obtain rfl := oftStore_unique (loadStore_eq_ok.mp hload).1 hstore
  exact hunpaused

/-- **The pause holds.** Take any run from a state where a store is paused, of which nothing that
goes through is signed by its admin or by its unpauser. Then:

* the store is what it was, pause included, its peers are what they were, and its escrow has lost
  nothing;
* nothing was sent or received;
* nothing is quoted. -/
theorem pause_holds (hP : P.DeriveInjective) (hstore : s.world.data k = some (.oftStore store))
    (hpaused : store.paused = true) (is : List Input)
    (hunsigned : ∀ e ∈ history (step P) s is, ¬e.1.SignedToUnpause store) :
    Frozen P k s.world (worldAfter s is) ∧
    (∀ e ∈ history (step P) s is, ¬e.1.OfStore k) ∧
    ∀ env,
      (∀ (ctx : QuoteSend) params r, ctx.oftStore.pubkey = k →
        ctx.apply P env (worldAfter s is) params ≠ .ok r) ∧
      ∀ (ctx : QuoteOFT) params r, ctx.oftStore.pubkey = k →
        ctx.apply P env (worldAfter s is) params ≠ .ok r := by
  have hkept : ∀ t ∈ transitions (step P) s is, ∀ s', Frozen P k s.world t.1.world →
      step P t.1 t.2.1 = .ok (s', t.2.2) → Frozen P k s.world s'.world :=
    fun t ht s' hfrozen h => (Frozen.of_transition hP hstore hpaused hunsigned ht hfrozen h).2
  have hfrozen : Frozen P k s.world (worldAfter s is) :=
    run_invariant_of_transitions (P := fun s' : OFTState P => Frozen P k s.world s'.world) hkept
      (.refl P k s.world)
  refine ⟨hfrozen, fun e he => ?_, fun env => ⟨?_, ?_⟩⟩
  · rw [← map_transitions] at he
    obtain ⟨t, ht, rfl⟩ := List.mem_map.mp he
    have hbefore : Frozen P k s.world t.1.world :=
      of_mem_transitions (P := fun s' : OFTState P => Frozen P k s.world s'.world) hkept
        (.refl P k s.world) ht
    obtain ⟨-, -, s', -, -, hstep⟩ := exists_of_mem_transitions ht
    exact (Frozen.of_transition hP hstore hpaused hunsigned ht hbefore hstep).1
  · rintro ctx params r rfl hquote
    rw [QuoteSend.unpaused_of_apply (hfrozen.store.trans hstore) hquote] at hpaused
    cases hpaused
  · rintro ctx params r rfl hquote
    rw [QuoteOFT.unpaused_of_apply (hfrozen.store.trans hstore) hquote] at hpaused
    cases hpaused

end Runs

/-- The sample deployment, paused by its pauser. -/
def samplePaused : OFTState samplePlatform :=
  run (step samplePlatform) sampleLocked
    [.call sampleEnv (.setOFTConfig ⟨sampleSigner sampleAdmin, sampleWritable (sampleKey 1), []⟩
      (.pauser (some sampleUser))),
    .call sampleEnv (.setPause ⟨sampleSigner sampleUser, sampleWritable (sampleKey 1)⟩ ⟨true⟩)]

/-- The user tries to transfer and to end the pause, pauses again, and adds to the escrow. -/
def sampleWhilePaused : List Input :=
  [.call sampleEnv (.send sampleSend sampleSendParams),
    .call sampleEnv (.setPause ⟨sampleSigner sampleUser, sampleWritable (sampleKey 1)⟩ ⟨false⟩),
    .call sampleEnv (.setPause ⟨sampleSigner sampleUser, sampleWritable (sampleKey 1)⟩ ⟨true⟩),
    .outside samplePaused.world.lamports samplePaused.world.tokens samplePaused.world.mints
      fun _ => 1000]

/-- Two of these go through, and the store is what it was. -/
theorem pause_holds_sample :
    (history (step samplePlatform) samplePaused sampleWhilePaused).length = 2 ∧
      Frozen samplePlatform (sampleKey 1) samplePaused.world
        (worldAfter samplePaused sampleWhilePaused) := by
  have hlength : (history (step samplePlatform) samplePaused sampleWhilePaused).length = 2 := by
    decide +kernel
  have hany : (samplePaused.world.load OFTStore.kind (sampleKey 1)).any (fun store =>
      store.paused && store.admin == sampleAdmin && store.unpauser == none) = true := by
    decide +kernel
  obtain ⟨store, hload, hstore⟩ := (Option.any_eq_true _ _).mp hany
  simp only [Bool.and_eq_true, beq_iff_eq] at hstore
  obtain ⟨⟨hpaused, hadmin⟩, hunpauser⟩ := hstore
  refine ⟨hlength, (pause_holds samplePlatform_injective (World.load_eq_some.mp hload) hpaused
    sampleWhilePaused fun e he hsigned => ?_).1⟩
  have hinput := mem_of_mem_history he
  rcases hsigned with hsigned | ⟨u, hu, -⟩
  · rw [hadmin] at hsigned
    have hnone : ∀ i ∈ sampleWhilePaused, ¬i.SignedBy sampleAdmin := by
      simp only [sampleWhilePaused, List.forall_mem_cons, List.not_mem_nil, false_imp_iff,
        implies_true, and_true, Input.SignedBy, Instruction.SignedBy]
      decide
    exact hnone e.1 hinput hsigned
  · rw [hunpauser] at hu
    cases hu

end Oft
