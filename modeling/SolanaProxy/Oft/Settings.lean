import SolanaProxy.Oft.Changes
import SolanaProxy.Oft.Quote

/-!
# Settings of the OFT

What holds of a store from its set-up on, whatever is called by whomever. Its setup stays; its
numbers stay in order, which is what the arithmetic of every transfer relies on
(`ArithmeticSafe`); and what can be changed about it and its peers is changed by those who may
(`Authorised`): the settings by its admin, the pause by its admin, pauser and unpauser.

Both follow from what one instruction can change (`Instruction.storeChange`,
`Instruction.peerChange`), case by case.
-/

namespace Oft

open Solana

/-- The instruction is signed by a key. -/
def Instruction.SignedBy (i : Instruction) (u : Pubkey) : Prop :=
  ∃ a ∈ i.accounts, a.isSigner = true ∧ a.pubkey = u

/-- The input is an instruction signed by a key. -/
def Input.SignedBy (u : Pubkey) : Input → Prop
  | .call _ i => i.SignedBy u
  | .outside .. => False

/-- What is set about a peer; the tokens of its limiters also move with every transfer. -/
structure PeerSettings where
  peerAddress : ByteArr 32
  enforcedOptions : EnforcedOptions
  outboundLimit : Option (U64 × U64)
  inboundLimit : Option (U64 × U64)
  feeBps : Option U16

/-- The capacity and the rate of a limiter. -/
def limitOf (l : RateLimiter) : U64 × U64 := (l.capacity, l.refillPerSecond)

/-- The settings in a peer account. -/
def settingsOf (p : PeerConfig) : PeerSettings where
  peerAddress := p.peerAddress
  enforcedOptions := p.enforcedOptions
  outboundLimit := p.outboundRateLimiter.map limitOf
  inboundLimit := p.inboundRateLimiter.map limitOf
  feeBps := p.feeBps

/-- A step of the store at `k`, and the signatures that its changes need. -/
structure Authorised (P : Platform) (w w' : OFTWorld) (i : Input) (k : Pubkey)
    (store store' : OFTStore) : Prop where
  settings : (store'.admin, store'.defaultFeeBps, store'.pauser, store'.unpauser) ≠
    (store.admin, store.defaultFeeBps, store.pauser, store.unpauser) → i.SignedBy store.admin
  peers : ∀ eid kp bump, P.findProgramAddress (peerSeeds k eid) = some (kp, bump) →
    (w'.load peerKind kp).map settingsOf ≠ (w.load peerKind kp).map settingsOf →
      i.SignedBy store.admin
  paused : store.paused = false → store'.paused = true →
    i.SignedBy store.admin ∨ ∃ u ∈ store.pauser, i.SignedBy u
  unpaused : store.paused = true → store'.paused = false →
    i.SignedBy store.admin ∨ ∃ u ∈ store.unpauser, i.SignedBy u

/-- What the arithmetic of a transfer relies on, and that no conversion of it divides by zero and
no fee is more than its amount. -/
structure ArithmeticSafe (data : Contents) (store : OFTStore) : Prop where
  rate : ∃ n ≤ 19, store.ld2sdRate.toNat = 10 ^ n
  defaultFee : store.defaultFeeBps.toNat < 10000
  peerFees : ∀ k p, data k = some (.peerConfig p) → ∀ bps ∈ p.feeBps, bps.toNat < 10000
  native : store.oftType = .native → store.tvlLd = 0#64
  ld2sd : ∀ a, ∃ b, store.ld2sd a = .ok b
  removeDust : ∀ a, ∃ b, store.removeDust a = .ok b
  amounts : ∀ env m k p a, data k = some (.peerConfig p) → ∃ sent received fee,
    computeFeeAndAdjustAmount env a store m p.feeBps = .ok (sent, received, fee) ∧
      received.toNat + fee.toNat ≤ sent.toNat

/-! ### Arithmetic -/

/-- A power of ten that fits into 64 bits is at most the nineteenth. -/
theorem exponent_le {rate : U64} {n : ℕ} (h : rate.toNat = 10 ^ n) : n ≤ 19 := by
  have hlt : 10 ^ n < 10 ^ 20 := by
    have hrate : rate.toNat < 2 ^ 64 := rate.isLt
    omega
  have hexp : n < 20 := (Nat.pow_lt_pow_iff_right (by decide)).mp hlt
  omega

/-- With a positive rate an amount has a number of shared units. -/
theorem exists_ld2sd {store : OFTStore} (hpos : 0 < store.ld2sdRate.toNat) (a : U64) :
    ∃ b, store.ld2sd a = .ok b := by
  have hlt : a.toNat / store.ld2sdRate.toNat < 2 ^ 64 := (Nat.div_le_self _ _).trans_lt a.isLt
  refine ⟨BitVec.ofNat 64 (a.toNat / store.ld2sdRate.toNat), OFTStore.ld2sd_eq_ok.mpr ⟨hpos, ?_⟩⟩
  rw [BitVec.toNat_ofNat, Nat.mod_eq_of_lt hlt]

/-- **Arithmetic** is safe where all accounts are in order. -/
theorem WellFormed.arithmeticSafe {P : Platform} {data : Contents} (hdata : WellFormed P data)
    {k : Pubkey} {store : OFTStore} (hstore : data k = some (.oftStore store)) :
    ArithmeticSafe data store := by
  have horder : store.InOrder := hdata.storeInOrder hstore
  have hpeers : ∀ k p, data k = some (.peerConfig p) → PeerInOrder p :=
    fun _ _ hp => hdata.peerInOrder hp
  -- the rate is all that conversions divide by
  have hpos : 0 < store.ld2sdRate.toNat := horder.ld2sdRate_pos
  obtain ⟨⟨n, hrate⟩, hfee, hnative⟩ := id horder
  refine ⟨⟨n, exponent_le hrate, hrate⟩, hfee, hpeers, hnative, exists_ld2sd hpos, fun a => ?_,
    fun env m k p a hp => ?_⟩
  · obtain ⟨b, hb, -⟩ := exists_removeDust hpos a
    exact ⟨b, hb⟩
  · obtain ⟨sent, received, fee, hcompute, hadjusted⟩ :=
      exists_adjusted horder (hpeers k p hp) env m a
    exact ⟨sent, received, fee, hcompute, hadjusted.received_add_fee_le⟩

/-! ### Authority -/

section Authority

variable {P : Platform} {env : Env} {w : OFTWorld} {es : List OFTEffect} {k : Pubkey}
  {i : Instruction}

/-- An operation on a limiter that keeps its capacity and its rate keeps the limit. -/
private theorem limit_of_updateLimiter {f : RateLimiter → Result OFTError RateLimiter}
    (hf : ∀ {l l'}, f l = .ok l' → limitOf l' = limitOf l) {o o' : Option RateLimiter}
    (h : updateLimiter f o = .ok o') : o'.map limitOf = o.map limitOf := by
  cases o with
  | none =>
    obtain rfl := Except.pure_eq_ok.mp h
    rfl
  | some l =>
    obtain ⟨l', hl', rfl⟩ := exists_of_updateLimiter rfl h
    rw [Option.map_some, Option.map_some, hf hl']

private theorem limitOf_refill {l l' : RateLimiter} {amount : U64}
    (h : l.refill (E := OFTError) env amount = .ok l') : limitOf l' = limitOf l := by
  simp only [RateLimiter.refill, Except.bind_eq_ok, Except.pure_eq_ok] at h
  obtain ⟨now, -, rfl⟩ := h
  rfl

private theorem limitOf_tryConsume {l l' : RateLimiter} {amount : U64}
    (h : l.tryConsume OFTError.rateLimitExceeded env amount = .ok l') : limitOf l' = limitOf l := by
  simp only [RateLimiter.tryConsume, Except.bind_eq_ok, Except.pure_eq_ok] at h
  obtain ⟨l₁, hrefill, rest, -, rfl⟩ := h
  have hsame : limitOf l₁ = limitOf l := limitOf_refill hrefill
  exact hsame

/-- A transfer sets nothing about its peer. -/
theorem settingsOf_consumeOutbound {p p' : PeerConfig} {amount : U64}
    (h : consumeOutbound env p amount = .ok p') : settingsOf p' = settingsOf p := by
  obtain ⟨outbound, hout, inbound, hin, rfl⟩ := consumeOutbound_eq_ok.mp h
  have hout' := limit_of_updateLimiter limitOf_tryConsume hout
  have hin' := limit_of_updateLimiter limitOf_refill hin
  rw [settingsOf, settingsOf, hout', hin']

theorem settingsOf_consumeInbound {p p' : PeerConfig} {amount : U64}
    (h : consumeInbound env p amount = .ok p') : settingsOf p' = settingsOf p := by
  obtain ⟨inbound, hin, outbound, hout, rfl⟩ := consumeInbound_eq_ok.mp h
  have hin' := limit_of_updateLimiter limitOf_tryConsume hin
  have hout' := limit_of_updateLimiter limitOf_refill hout
  rw [settingsOf, settingsOf, hin', hout']

/-- **Peer settings** change by the admin of the store the peer belongs to. -/
theorem PeerChange.signedBy (hP : P.DeriveInjective) {store : OFTStore} {kp : Pubkey} {eid : U32}
    {bump : U8} {o o' : Option PeerConfig} (hstore : w.data k = some (.oftStore store))
    (hkp : P.findProgramAddress (peerSeeds k eid) = some (kp, bump))
    (h : PeerChange P env w es kp i o o') (hne : o'.map settingsOf ≠ o.map settingsOf) :
    i.SignedBy store.admin := by
  cases h with
  | same => exact (hne rfl).elim
  | sent _ hconsume => exact (hne (congrArg some (settingsOf_consumeOutbound hconsume))).elim
  | received _ hconsume => exact (hne (congrArg some (settingsOf_consumeInbound hconsume))).elim
  | @set ctx params store' _ p bump' _ hload hfind _ =>
    obtain ⟨hsigner, hload', hadmin⟩ := loadStoreFor_eq_ok.mp hload
    -- the address tells which store the peer belongs to
    have hseeds : peerSeeds ctx.oftStore.pubkey params.remoteEid ++ [bump'] =
        peerSeeds k eid ++ [bump] :=
      hP.seeds_eq (Platform.createProgramAddress_of_find hfind)
        (Platform.createProgramAddress_of_find hkp)
    obtain ⟨rfl, -⟩ := peerSeeds_inj hseeds
    obtain rfl := oftStore_unique (loadStore_eq_ok.mp hload').1 hstore
    exact ⟨ctx.admin, List.mem_cons_self, hsigner, hadmin.symm⟩

/-- The settings of a store, and its pause, after one setting of its admin or one pause. -/
theorem StoreChange.exists_store {store : OFTStore} {o' : Option OFTStore}
    (h : StoreChange P env w k i (some store) o') :
    ∃ store', o' = some store' ∧
      ((store'.admin, store'.defaultFeeBps, store'.pauser, store'.unpauser) ≠
        (store.admin, store.defaultFeeBps, store.pauser, store.unpauser) →
          i.SignedBy store.admin) ∧
      (store'.paused ≠ store.paused → i.SignedBy store.admin ∨
        ∃ u, isValidSigner u store store'.paused = true ∧ i.SignedBy u) := by
  cases h with
  | same => exact ⟨store, rfl, fun hne => (hne rfl).elim, fun hne => (hne rfl).elim⟩
  | transfer => exact ⟨_, rfl, fun hne => (hne rfl).elim, fun hne => (hne rfl).elim⟩
  | @config ctx params _ store' _ _ _ hsigner hadmin _ =>
    have hsigned : (Instruction.setOFTConfig ctx params).SignedBy store.admin :=
      ⟨ctx.admin, List.mem_cons_self, hsigner, hadmin.symm⟩
    exact ⟨store', rfl, fun _ => hsigned, fun _ => Or.inl hsigned⟩
  | @pause ctx params _ _ hsigner hvalid =>
    have hsigned : (Instruction.setPause ctx params).SignedBy ctx.signer.pubkey :=
      ⟨ctx.signer, List.mem_cons_self, hsigner, rfl⟩
    exact ⟨_, rfl, fun hne => (hne rfl).elim, fun _ => Or.inr ⟨_, hvalid, hsigned⟩⟩

/-- **Authority.** Every step keeps the store, and what it changes is signed for. -/
theorem authorised_of_step (hP : P.DeriveInjective) {s s' : OFTState P} {store : OFTStore}
    (hstore : s.world.data k = some (.oftStore store)) {i : Input}
    (h : step P s i = .ok (s', es)) :
    ∃ store', s'.world.data k = some (.oftStore store') ∧
      Authorised P s.world s'.world i k store store' := by
  cases i with
  | outside lamports tokens mints deposits =>
    obtain ⟨rfl, -⟩ := Prod.mk.inj (Except.ok.inj h)
    refine ⟨store, hstore, fun hne => (hne rfl).elim, fun _ _ _ _ hne => (hne rfl).elim, ?_, ?_⟩
    · intro hpaused hpaused'
      cases hpaused.symm.trans hpaused'
    · intro hpaused hpaused'
      cases hpaused.symm.trans hpaused'
  | call env i =>
    obtain ⟨-, hexec⟩ := Instruction.invoke_eq_ok.mp (step_call_eq_ok.mp h)
    have hchange := i.storeChange hexec k
    rw [World.load_eq_some.mpr hstore] at hchange
    obtain ⟨store', hload, hsettings, hpause⟩ := hchange.exists_store
    refine ⟨store', World.load_eq_some.mp hload, hsettings, ?_, ?_, ?_⟩
    · intro eid kp bump hkp hne
      exact (i.peerChange hexec kp).signedBy hP hstore hkp hne
    -- the flag that is set says whether the pauser or the unpauser had to sign
    · intro hpaused hpaused'
      refine (hpause (by rw [hpaused, hpaused']; decide)).imp id ?_
      rintro ⟨u, hvalid, hsigned⟩
      rw [isValidSigner, hpaused', if_pos rfl, decide_eq_true_eq] at hvalid
      exact ⟨u, hvalid, hsigned⟩
    · intro hpaused hpaused'
      refine (hpause (by rw [hpaused, hpaused']; decide)).imp id ?_
      rintro ⟨u, hvalid, hsigned⟩
      rw [isValidSigner, hpaused', if_neg Bool.false_ne_true, decide_eq_true_eq] at hvalid
      exact ⟨u, hvalid, hsigned⟩

end Authority

/-! ### Runs -/

/-- **Settings.** After any run from a set-up of the store at `k`:

* the store is there with its setup;
* its rate is a power of ten, at most the nineteenth, all fees are less than
  everything, a native store has nothing locked, and so the arithmetic of transfers is safe;
* whatever the next step changes of its settings, of its peers and of its pause, is signed by
  those who may.
-/
theorem settings_safe {P : Platform} (hP : P.DeriveInjective) {s s₁ : OFTState P} {env : Env}
    {ctx : InitOFT} {params : InitOFTParams} {es : List OFTEffect}
    (hinit : step P s (.call env (.initOFT ctx params)) = .ok (s₁, es)) (is : List Input) :
    let k := ctx.oftStore.pubkey
    let s₂ := Machine.run (step P) s₁ is
    ∃ rate bump store₂, s₁.world.data k = some (.oftStore (ctx.store P params rate bump)) ∧
      s₂.world.data k = some (.oftStore store₂) ∧
      (ctx.store P params rate bump).SameSetup store₂ ∧ ArithmeticSafe s₂.world.data store₂ ∧
      ∀ i s₃ es', step P s₂ i = .ok (s₃, es') → ∃ store₃,
        s₃.world.data k = some (.oftStore store₃) ∧
          Authorised P s₂.world s₃.world i k store₂ store₃ := by
  obtain ⟨-, hexec⟩ := Instruction.invoke_eq_ok.mp (step_call_eq_ok.mp hinit)
  obtain ⟨tr⟩ := InitOFT.nonempty_trace hexec
  obtain ⟨store₂, hstore₂, hsetup⟩ := sameSetup_run tr.store_written is
  refine ⟨tr.ld2sdRate, tr.bump, store₂, tr.store_written, hstore₂, hsetup, ?_, ?_⟩
  · exact (Machine.run (step P) s₁ is).wellFormed.arithmeticSafe hstore₂
  · intro i s₃ es' hstep
    exact authorised_of_step hP hstore₂ hstep

/-- After the set-up of the sample deployment its store converts every amount. -/
theorem settings_safe_sample : ∃ store,
    (worldAfter sampleFresh sampleSetup).data (sampleKey 1) = some (.oftStore store) ∧
      store.oftType = .adapter ∧ (∃ n ≤ 19, store.ld2sdRate.toNat = 10 ^ n) ∧
      ∀ a, ∃ b, store.removeDust a = .ok b := by
  have hinit : (step samplePlatform sampleFresh
      (.call sampleEnv (.initOFT sampleInit sampleInitParams))).isOk = true := by decide +kernel
  obtain ⟨⟨s₁, es⟩, hstep⟩ := Except.exists_of_isOk hinit
  obtain ⟨rate, bump, store, -, hstore, ⟨htype, -⟩, hsafe, -⟩ :=
    settings_safe samplePlatform_injective hstep sampleSetup.tail
  have hrun : worldAfter sampleFresh sampleSetup =
      (Machine.run (step samplePlatform) s₁ sampleSetup.tail).world := by
    rw [worldAfter, sampleSetup, Machine.run_cons, Machine.next_of_ok hstep]
    rfl
  exact ⟨store, hrun ▸ hstore, htype, hsafe.rate, hsafe.removeDust⟩

end Oft
