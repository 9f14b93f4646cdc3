import SolanaProxy.Oft.Quote

/-!
# Amounts in closed form

What `computeFeeAndAdjustAmount` answers, in one formula for both store types. A store sees an
amount through a fee, which is the mint's for an adapter and none for a native OFT
(`OFTStore.cappedFee`). `OFTStore.sharedUnits` is how many whole shared units that fee leaves; the
amount sent is the smallest that leaves them, and the amount received is what the fee of the OFT
keeps of their number (`toNat_of_computeFeeAndAdjustAmount`).

All three are monotone, so nobody receives less for sending more, or more at a higher fee
(`amounts_monotone`).
-/

namespace Oft

open Solana

/-- The fee between what a user sends and what arrives at the store. -/
def OFTStore.cappedFee (s : OFTStore) (env : Env) (m : Mint) : CappedFee :=
  match s.oftType with
  | .adapter => m.cappedFee env.epoch
  | .native => .free

/-- The whole shared units that arrive of an amount. -/
def OFTStore.sharedUnits (s : OFTStore) (env : Env) (m : Mint) (amountLd : U64) : ℕ :=
  (s.cappedFee env m).post amountLd.toNat / s.ld2sdRate.toNat

section ClosedForm

variable {env : Env} {m : Mint} {s s' : OFTStore} {feeBps feeBps' : Option U16}
  {a b x sent received fee sent' received' fee' : U64}

/-- What is received of whole shared units. -/
private theorem toNat_received {n : ℕ} (hbps : feeBps.getD s.defaultFeeBps < maxFeeBasisPoints)
    (hx : x.toNat = n * s.ld2sdRate.toNat)
    (hfee : s.removeDust (calculateFee x s.defaultFeeBps feeBps) = .ok fee)
    (hsum : received.toNat + fee.toNat = x.toNat) :
    received.toNat = FlooredFee.kept (feeBps.getD s.defaultFeeBps).toNat oneInBasisPoints n *
      s.ld2sdRate.toNat := by
  obtain ⟨hpos, hvalue⟩ := OFTStore.removeDust_eq_ok.mp hfee
  rw [toNat_calculateFee hbps, hx, FlooredFee.mul_unit_div hpos] at hvalue
  rw [FlooredFee.kept, Nat.sub_mul, ← hvalue, ← hx]
  omega

/-- **Closed form.** The amount sent is the smallest that leaves the whole shared units, and the
amount received is what the fee keeps of them. -/
theorem toNat_of_computeFeeAndAdjustAmount
    (hbps : feeBps.getD s.defaultFeeBps < maxFeeBasisPoints)
    (h : computeFeeAndAdjustAmount env a s m feeBps = .ok (sent, received, fee)) :
    sent.toNat = (s.cappedFee env m).pre (s.sharedUnits env m a * s.ld2sdRate.toNat) ∧
      received.toNat = FlooredFee.kept (feeBps.getD s.defaultFeeBps).toNat oneInBasisPoints
        (s.sharedUnits env m a) * s.ld2sdRate.toNat := by
  cases htype : s.oftType with
  | native =>
    obtain ⟨hsent, hfee, hsum⟩ := (computeFeeAndAdjustAmount_eq_ok_of_native htype).mp h
    obtain ⟨-, hwhole⟩ := OFTStore.removeDust_eq_ok.mp hsent
    have hunits : sent.toNat = s.sharedUnits env m a * s.ld2sdRate.toNat := by
      simp only [OFTStore.sharedUnits, OFTStore.cappedFee, htype, CappedFee.post_free, hwhole]
    refine ⟨?_, toNat_received hbps hunits hfee hsum⟩
    simp only [OFTStore.cappedFee, htype]
    rw [CappedFee.pre_of_rate_eq_zero rfl, hunits]
  | adapter =>
    obtain ⟨post, whole, hpost, hdust, hsent, hfee, hsum⟩ :=
      (computeFeeAndAdjustAmount_eq_ok_of_adapter htype).mp h
    obtain ⟨-, hwhole⟩ := OFTStore.removeDust_eq_ok.mp hdust
    obtain ⟨post', hpost', hval⟩ := getPostFeeAmountLd_eq env m a
    obtain rfl : post = post' := Except.ok.inj (hpost.symm.trans hpost')
    have hunits : whole.toNat = s.sharedUnits env m a * s.ld2sdRate.toNat := by
      simp only [OFTStore.sharedUnits, OFTStore.cappedFee, htype, hwhole, hval]
    refine ⟨?_, toNat_received hbps hunits hfee hsum⟩
    simp only [OFTStore.cappedFee, htype]
    rw [← hunits]
    exact getPreFeeAmountLd_eq_ok.mp hsent

/-- More arrives in whole shared units of a larger amount. -/
theorem OFTStore.sharedUnits_mono (s : OFTStore) (env : Env) (m : Mint) (h : a ≤ b) :
    s.sharedUnits env m a ≤ s.sharedUnits env m b :=
  Nat.div_le_div_right (CappedFee.post_mono h)

/-- **Monotonicity.** Of two amounts, the larger one at the lower fee has the larger answers. -/
theorem computeFeeAndAdjustAmount_mono (htype : s'.oftType = s.oftType)
    (hrate : s'.ld2sdRate = s.ld2sdRate)
    (hbps : feeBps.getD s.defaultFeeBps < maxFeeBasisPoints)
    (hle : feeBps'.getD s'.defaultFeeBps ≤ feeBps.getD s.defaultFeeBps) (hab : a ≤ b)
    (ha : computeFeeAndAdjustAmount env a s m feeBps = .ok (sent, received, fee))
    (hb : computeFeeAndAdjustAmount env b s' m feeBps' = .ok (sent', received', fee')) :
    sent ≤ sent' ∧ received ≤ received' := by
  have hbpsLt : (feeBps.getD s.defaultFeeBps).toNat < oneInBasisPoints := hbps
  have hleNat : (feeBps'.getD s'.defaultFeeBps).toNat ≤ (feeBps.getD s.defaultFeeBps).toNat := hle
  have hbps' : feeBps'.getD s'.defaultFeeBps < maxFeeBasisPoints := hleNat.trans_lt hbpsLt
  obtain ⟨hsent, hreceived⟩ := toNat_of_computeFeeAndAdjustAmount hbps ha
  obtain ⟨hsent', hreceived'⟩ := toNat_of_computeFeeAndAdjustAmount hbps' hb
  -- both stores see the amounts through the same fee
  have hfee : s'.cappedFee env m = s.cappedFee env m := by
    rw [OFTStore.cappedFee, OFTStore.cappedFee, htype]
  have hunits : s.sharedUnits env m a ≤ s'.sharedUnits env m b := by
    rw [OFTStore.sharedUnits, OFTStore.sharedUnits, hfee, hrate]
    exact s.sharedUnits_mono env m hab
  constructor
  · rw [BitVec.le_def, hsent, hsent', hfee, hrate]
    exact CappedFee.pre_mono (Nat.mul_le_mul_right _ hunits)
  · rw [BitVec.le_def, hreceived, hreceived', hrate]
    exact Nat.mul_le_mul_right _
      ((FlooredFee.kept_mono hbpsLt.le hunits).trans (FlooredFee.kept_anti hleNat _ _))

end ClosedForm

/-- **Sending more never delivers less.** With the accounts of the program as they can be, the
larger of two amounts is answered with the larger amount sent and the larger amount received; and
a store of the same type and rate with a lower fee, the peer's or its own default, answers every
amount with at least as much received. -/
theorem amounts_monotone {P : Platform} {s : OFTState P} {k k' : Pubkey} {store : OFTStore}
    {peer : PeerConfig} (hstore : s.world.data k = some (.oftStore store))
    (hpeer : s.world.data k' = some (.peerConfig peer)) (env : Env) (mint : Mint) :
    (∀ a b : U64, a ≤ b → ∃ sent received fee sent' received' fee',
      computeFeeAndAdjustAmount env a store mint peer.feeBps = .ok (sent, received, fee) ∧
      computeFeeAndAdjustAmount env b store mint peer.feeBps = .ok (sent', received', fee') ∧
      sent ≤ sent' ∧ received ≤ received') ∧
    ∀ (s' : OFTState P) (j j' : Pubkey) (store' : OFTStore) (peer' : PeerConfig),
      s'.world.data j = some (.oftStore store') → s'.world.data j' = some (.peerConfig peer') →
      store'.oftType = store.oftType → store'.ld2sdRate = store.ld2sdRate →
      peer'.feeBps.getD store'.defaultFeeBps ≤ peer.feeBps.getD store.defaultFeeBps →
      ∀ a : U64, ∃ sent received fee sent' received' fee',
        computeFeeAndAdjustAmount env a store mint peer.feeBps = .ok (sent, received, fee) ∧
        computeFeeAndAdjustAmount env a store' mint peer'.feeBps =
          .ok (sent', received', fee') ∧
        received ≤ received' := by
  have horder : store.InOrder := s.wellFormed.storeInOrder hstore
  have hfee : PeerInOrder peer := s.wellFormed.peerInOrder hpeer
  have hbps := horder.getD_lt hfee
  constructor
  · intro a b hab
    obtain ⟨sent, received, fee, ha, -⟩ := exists_adjusted horder hfee env mint a
    obtain ⟨sent', received', fee', hb, -⟩ := exists_adjusted horder hfee env mint b
    exact ⟨sent, received, fee, sent', received', fee', ha, hb,
      computeFeeAndAdjustAmount_mono rfl rfl hbps (BitVec.le_refl _) hab ha hb⟩
  · intro s' j j' store' peer' hstore' hpeer' htype hrate hle a
    have horder' : store'.InOrder := s'.wellFormed.storeInOrder hstore'
    have hfee' : PeerInOrder peer' := s'.wellFormed.peerInOrder hpeer'
    obtain ⟨sent, received, fee, ha, -⟩ := exists_adjusted horder hfee env mint a
    obtain ⟨sent', received', fee', ha', -⟩ := exists_adjusted horder' hfee' env mint a
    have hmono := computeFeeAndAdjustAmount_mono htype hrate hbps hle (BitVec.le_refl a) ha ha'
    exact ⟨sent, received, fee, sent', received', fee', ha, ha', hmono.2⟩

/-- In the sample deployment ten times the amount delivers at least as much. -/
theorem amounts_monotone_sample :
    ∃ store peer sent received fee sent' received' fee',
      sampleLocked.world.data (sampleKey 1) = some (.oftStore store) ∧
      sampleLocked.world.data (sampleKey 5) = some (.peerConfig peer) ∧
      computeFeeAndAdjustAmount sampleEnv 123456789#64 store sampleMintState peer.feeBps =
        .ok (sent, received, fee) ∧
      computeFeeAndAdjustAmount sampleEnv 1234567890#64 store sampleMintState peer.feeBps =
        .ok (sent', received', fee') ∧
      sent ≤ sent' ∧ received ≤ received' := by
  obtain ⟨store, hstore⟩ := Option.isSome_iff_exists.mp
    (by decide +kernel : (sampleLocked.world.load OFTStore.kind (sampleKey 1)).isSome = true)
  obtain ⟨peer, hpeer⟩ := Option.isSome_iff_exists.mp
    (by decide +kernel : (sampleLocked.world.load peerKind (sampleKey 5)).isSome = true)
  rw [World.load_eq_some] at hstore hpeer
  obtain ⟨hmono, -⟩ := amounts_monotone hstore hpeer sampleEnv sampleMintState
  obtain ⟨sent, received, fee, sent', received', fee', hanswers⟩ :=
    hmono 123456789#64 1234567890#64 (by decide)
  exact ⟨store, peer, sent, received, fee, sent', received', fee', hstore, hpeer, hanswers⟩

end Oft
