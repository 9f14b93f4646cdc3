import SolanaProxy.Oft.Run

/-!
# Quoted amounts

`computeFeeAndAdjustAmount` answers every amount: with a store and a peer in order no step of it
overflows, underflows or divides by zero, and its answer is `Adjusted`, that is, made of whole
shared units that add up, no larger than what was asked for, and stable when it is asked for
again. Both store types end with the same step, which splits whole shared units into what is
received and the fee (`exists_split`); an adapter comes to them through the transfer fee of the
mint and back, where the adjunction of `CappedFee` keeps the way back below the amount.

`quote_oft` lists the difference of what is sent and what is received as fee details.
-/

namespace Oft

open Solana

/-! ### Amounts -/

section Amounts

variable {env : Env} {m : Mint} {s : OFTStore} {feeBps : Option U16} {a x : U64}

/-- The fee of a transfer is a share of the amount in basis points, rounded down. -/
theorem toNat_calculateFee (hbps : feeBps.getD s.defaultFeeBps < maxFeeBasisPoints) :
    (calculateFee a s.defaultFeeBps feeBps).toNat =
      a.toNat * (feeBps.getD s.defaultFeeBps).toNat / oneInBasisPoints := by
  have hlt : (feeBps.getD s.defaultFeeBps).toNat < oneInBasisPoints := hbps
  have ha : a.toNat < 2 ^ 64 := a.isLt
  have hbps128 : ((feeBps.getD s.defaultFeeBps).setWidth 128).toNat =
      (feeBps.getD s.defaultFeeBps).toNat := toNat_setWidth_of_le (by decide) _
  have ha128 : (a.setWidth 128).toNat = a.toNat := toNat_setWidth_of_le (by decide) _
  have hone : (BitVec.ofNat 128 oneInBasisPoints).toNat = oneInBasisPoints := rfl
  rw [calculateFee]
  split
  case isTrue h =>
    have hzero : a.toNat * (feeBps.getD s.defaultFeeBps).toNat = 0 := by
      rcases h with h | rfl
      · rw [← hbps128, h]
        exact Nat.mul_zero _
      · exact Nat.zero_mul _
    rw [hzero, Nat.zero_div]
    rfl
  case isFalse =>
    have hprod : a.toNat * (feeBps.getD s.defaultFeeBps).toNat < 2 ^ 64 * oneInBasisPoints :=
      Nat.mul_lt_mul'' ha hlt
    have hdiv : a.toNat * (feeBps.getD s.defaultFeeBps).toNat / oneInBasisPoints < 2 ^ 64 :=
      (Nat.div_lt_iff_lt_mul (by decide)).mpr hprod
    rw [BitVec.toNat_setWidth, BitVec.toNat_udiv, BitVec.toNat_mul, ha128, hbps128, hone,
      Nat.mod_eq_of_lt (hprod.trans (by decide)), Nat.mod_eq_of_lt hdiv]

/-- What is left of an amount without dust is less than a unit below it. -/
theorem exists_removeDust (hpos : 0 < s.ld2sdRate.toNat) (a : U64) :
    ∃ whole, s.removeDust a = .ok whole ∧ whole.toNat ≤ a.toNat ∧
      a.toNat - whole.toNat < s.ld2sdRate.toNat ∧ s.ld2sdRate.toNat ∣ whole.toNat := by
  have hle : a.toNat / s.ld2sdRate.toNat * s.ld2sdRate.toNat ≤ a.toNat := Nat.div_mul_le_self _ _
  have hmod : a.toNat % s.ld2sdRate.toNat < s.ld2sdRate.toNat := Nat.mod_lt _ hpos
  have hsplit := Nat.div_add_mod' a.toNat s.ld2sdRate.toNat
  refine ⟨BitVec.ofNat 64 (a.toNat / s.ld2sdRate.toNat * s.ld2sdRate.toNat), ?_, ?_⟩
  · rw [OFTStore.removeDust_eq_ok, BitVec.toNat_ofNat, Nat.mod_eq_of_lt (hle.trans_lt a.isLt)]
    exact ⟨hpos, rfl⟩
  · rw [BitVec.toNat_ofNat, Nat.mod_eq_of_lt (hle.trans_lt a.isLt)]
    exact ⟨hle, by omega, Nat.dvd_mul_left _ _⟩

/-- Whole shared units have no dust. -/
theorem removeDust_of_dvd (hpos : 0 < s.ld2sdRate.toNat) (h : s.ld2sdRate.toNat ∣ a.toNat) :
    s.removeDust a = .ok a :=
  OFTStore.removeDust_eq_ok.mpr ⟨hpos, (Nat.div_mul_cancel h).symm⟩

/-- **The split.** Whole shared units split into what is received and the fee, both in whole
shared units. -/
theorem exists_split (hpos : 0 < s.ld2sdRate.toNat)
    (hbps : feeBps.getD s.defaultFeeBps < maxFeeBasisPoints)
    (hx : s.ld2sdRate.toNat ∣ x.toNat) :
    ∃ received fee : U64, s.removeDust (calculateFee x s.defaultFeeBps feeBps) = .ok fee ∧
      received.toNat + fee.toNat = x.toNat ∧ s.ld2sdRate.toNat ∣ received.toNat ∧
      s.ld2sdRate.toNat ∣ fee.toNat := by
  obtain ⟨fee, hfee, hle, -, hdvd⟩ :=
    exists_removeDust hpos (calculateFee x s.defaultFeeBps feeBps)
  have hshare : (calculateFee x s.defaultFeeBps feeBps).toNat ≤ x.toNat := by
    have hlt : (feeBps.getD s.defaultFeeBps).toNat < oneInBasisPoints := hbps
    rw [toNat_calculateFee hbps]
    refine Nat.div_le_of_le_mul ?_
    rw [Nat.mul_comm]
    exact Nat.mul_le_mul_right _ hlt.le
  have hfeeLe : fee.toNat ≤ x.toNat := hle.trans hshare
  have hsub : Word.checkedSub x fee = some (x - fee) := if_pos hfeeLe
  have hsum : (x - fee).toNat + fee.toNat = x.toNat := Word.checkedSub_eq_some.mp hsub
  refine ⟨x - fee, fee, hfee, hsum, ?_, hdvd⟩
  exact (Nat.dvd_add_left hdvd).mp (hsum ▸ hx)

/-- The amounts sent, received and kept as the fee for the amount `a`. -/
structure Adjusted (env : Env) (m : Mint) (s : OFTStore) (feeBps : Option U16)
    (a sent received fee : U64) : Prop where
  sent_le : sent.toNat ≤ a.toNat
  received_whole : s.ld2sdRate.toNat ∣ received.toNat
  fee_whole : s.ld2sdRate.toNat ∣ fee.toNat
  native : s.oftType = .native →
    sent.toNat = received.toNat + fee.toNat ∧ a.toNat - sent.toNat < s.ld2sdRate.toNat
  adapter : s.oftType = .adapter → ∃ post, getPostFeeAmountLd env m sent = .ok post ∧
    post.toNat = received.toNat + fee.toNat
  stable : computeFeeAndAdjustAmount env sent s m feeBps = .ok (sent, received, fee)

/-- A native OFT drops the dust and splits the rest. -/
private theorem exists_adjusted_native (hpos : 0 < s.ld2sdRate.toNat)
    (hbps : feeBps.getD s.defaultFeeBps < maxFeeBasisPoints) (htype : s.oftType = .native)
    (a : U64) :
    ∃ sent received fee, computeFeeAndAdjustAmount env a s m feeBps =
      .ok (sent, received, fee) ∧ Adjusted env m s feeBps a sent received fee := by
  obtain ⟨sent, hsent, hle, hdust, hdvd⟩ := exists_removeDust hpos a
  obtain ⟨received, fee, hfee, hsum, hreceived, hfeeDvd⟩ := exists_split hpos hbps hdvd
  have hcompute : ∀ b, s.removeDust b = .ok sent →
      computeFeeAndAdjustAmount env b s m feeBps = .ok (sent, received, fee) := by
    intro b hb
    exact (computeFeeAndAdjustAmount_eq_ok_of_native htype).mpr ⟨hb, hfee, hsum⟩
  refine ⟨sent, received, fee, hcompute a hsent, hle, hreceived, hfeeDvd,
    fun _ => ⟨hsum.symm, hdust⟩, fun h => ?_, hcompute sent (removeDust_of_dvd hpos hdvd)⟩
  cases htype.symm.trans h

/-- An adapter drops the dust of what is left of the amount, and the smallest amount that leaves
the rest is no larger. -/
private theorem exists_adjusted_adapter (hpos : 0 < s.ld2sdRate.toNat)
    (hbps : feeBps.getD s.defaultFeeBps < maxFeeBasisPoints) (htype : s.oftType = .adapter)
    (a : U64) :
    ∃ sent received fee, computeFeeAndAdjustAmount env a s m feeBps =
      .ok (sent, received, fee) ∧ Adjusted env m s feeBps a sent received fee := by
  obtain ⟨post, hpost, hpostVal⟩ := getPostFeeAmountLd_eq env m a
  obtain ⟨whole, hwhole, hwholeLe, -, hdvd⟩ := exists_removeDust hpos post
  have hpre : (m.cappedFee env.epoch).pre whole.toNat ≤ a.toNat :=
    CappedFee.pre_le_iff.mpr (hpostVal ▸ hwholeLe)
  obtain ⟨sent, -, hsentVal⟩ := Word.exists_ofNat? (hpre.trans_lt a.isLt)
  have hsent : getPreFeeAmountLd env m whole = .ok sent := getPreFeeAmountLd_eq_ok.mpr hsentVal
  obtain ⟨received, fee, hfee, hsum, hreceived, hfeeDvd⟩ := exists_split hpos hbps hdvd
  -- what arrives of the amount sent are the whole units again
  have harrives : getPostFeeAmountLd env m sent = .ok whole := by
    obtain ⟨post', hpost', hval⟩ := getPostFeeAmountLd_eq env m sent
    have heq : post' = whole := by
      rw [← BitVec.toNat_inj, hval, hsentVal, CappedFee.post_pre]
    rw [hpost', heq]
  have hcompute : ∀ b post, getPostFeeAmountLd env m b = .ok post →
      s.removeDust post = .ok whole →
      computeFeeAndAdjustAmount env b s m feeBps = .ok (sent, received, fee) := by
    intro b post hb hdust
    exact (computeFeeAndAdjustAmount_eq_ok_of_adapter htype).mpr
      ⟨post, whole, hb, hdust, hsent, hfee, hsum⟩
  refine ⟨sent, received, fee, hcompute a post hpost hwhole, hsentVal ▸ hpre, hreceived, hfeeDvd,
    fun h => ?_, fun _ => ⟨whole, harrives, hsum.symm⟩,
    hcompute sent whole harrives (removeDust_of_dvd hpos hdvd)⟩
  cases htype.symm.trans h

/-- **Totality.** A store in order answers every amount. -/
theorem exists_adjusted (hs : s.InOrder) (hfee : ∀ bps ∈ feeBps, bps < maxFeeBasisPoints)
    (env : Env) (m : Mint) (a : U64) :
    ∃ sent received fee, computeFeeAndAdjustAmount env a s m feeBps =
      .ok (sent, received, fee) ∧ Adjusted env m s feeBps a sent received fee := by
  have hpos : 0 < s.ld2sdRate.toNat := hs.ld2sdRate_pos
  have hbps : feeBps.getD s.defaultFeeBps < maxFeeBasisPoints := hs.getD_lt hfee
  cases htype : s.oftType with
  | native => exact exists_adjusted_native hpos hbps htype a
  | adapter => exact exists_adjusted_adapter hpos hbps htype a

/-- What is received and the fee are part of the amount sent. -/
theorem Adjusted.received_add_fee_le {sent received fee : U64}
    (h : Adjusted env m s feeBps a sent received fee) :
    received.toNat + fee.toNat ≤ sent.toNat := by
  cases htype : s.oftType with
  | native => exact (h.native htype).1.ge
  | adapter =>
    obtain ⟨post, hpost, hsum⟩ := h.adapter htype
    obtain ⟨post', hpost', hval⟩ := getPostFeeAmountLd_eq env m sent
    obtain rfl : post = post' := Except.ok.inj (hpost.symm.trans hpost')
    rw [← hsum, hval]
    exact CappedFee.post_le _

end Amounts

/-! ### The quote -/

/-- The accounts of `quote_oft`. -/
structure QuoteOFT where
  oftStore : AccountInfo
  peer : AccountInfo
  tokenMint : AccountInfo

/-- The parameters of `quote_oft`. -/
structure QuoteOFTParams where
  dstEid : U32
  toAddress : ByteArr 32
  amountLd : U64
  minAmountLd : U64
  options : Bytes
  composeMsg : Option Bytes
  payInLzToken : Bool
deriving DecidableEq

/-- The amounts a transfer may have. -/
structure OFTLimits where
  minAmountLd : U64
  maxAmountLd : U64
deriving DecidableEq

/-- One part of the difference between what is sent and what is received. -/
structure OFTFeeDetail where
  feeAmountLd : U64
  description : String
deriving DecidableEq

/-- The answer of `quote_oft`. -/
structure QuoteOFTResult where
  oftLimits : OFTLimits
  oftFeeDetails : List OFTFeeDetail
  oftReceipt : OFTReceipt
deriving DecidableEq

namespace QuoteOFT

/-- The account constraints: the store, the peer and the mint. -/
def tryAccounts (P : Platform) (w : OFTWorld) (ctx : QuoteOFT) (params : QuoteOFTParams) :
    Result OFTError (OFTStore × PeerConfig × Mint) := do
  let store ← loadStore P w ctx.oftStore
  let peer ← loadPda P peerKind PeerConfig.bump w (peerSeeds ctx.oftStore.pubkey params.dstEid)
    ctx.peer
  let mint ← Except.ofOption (.anchor .accountNotInitialized) (w.mints ctx.tokenMint.pubkey)
  Except.require (mint.program = P.tokenProgram ∨ mint.program = P.token2022Program)
    (.anchor .accountOwnedByWrongProgram)
  Except.require (ctx.tokenMint.pubkey = store.tokenMint) (.anchor .constraintAddress)
  return (store, peer, mint)

/-- What the mint withholds of the amount sent, if anything. -/
def transferFeeDetails (amountSentLd amountReceivedLd oftFeeLd : U64) :
    Result OFTError (List OFTFeeDetail) := do
  let sum ← Except.ofOption .panic (Word.checkedAdd amountReceivedLd oftFeeLd)
  if sum < amountSentLd then
    let rest ← Except.ofOption .panic (Word.checkedSub amountSentLd oftFeeLd)
    let rest ← Except.ofOption .panic (Word.checkedSub rest amountReceivedLd)
    return [⟨rest, "Token2022 Transfer Fee"⟩]
  else
    return []

/-- The fees a quote lists: the one of the mint and the one of the OFT. -/
def feeDetails (amountSentLd amountReceivedLd oftFeeLd : U64) :
    Result OFTError (List OFTFeeDetail) := do
  let details ← transferFeeDetails amountSentLd amountReceivedLd oftFeeLd
  return details ++ if 0#64 < oftFeeLd then [⟨oftFeeLd, "Cross Chain Fee"⟩] else []

/-- The instruction: what a send of the amount would take, deliver and cost. -/
def apply (P : Platform) (env : Env) (w : OFTWorld) (ctx : QuoteOFT) (params : QuoteOFTParams) :
    Result OFTError QuoteOFTResult := do
  let (store, peer, mint) ← tryAccounts P w ctx params
  Except.require (store.paused = false) (.program .paused)
  let (amountSentLd, amountReceivedLd, oftFeeLd) ←
    computeFeeAndAdjustAmount env params.amountLd store mint peer.feeBps
  Except.require (params.minAmountLd ≤ amountReceivedLd) (.program .slippageExceeded)
  let oftFeeDetails ← feeDetails amountSentLd amountReceivedLd oftFeeLd
  return ⟨⟨0#64, BitVec.allOnes 64⟩, oftFeeDetails, ⟨amountSentLd, amountReceivedLd⟩⟩

variable {sent received fee : U64}

/-- The sum of the fees listed. -/
def total (ds : List OFTFeeDetail) : ℕ := (ds.map fun d => d.feeAmountLd.toNat).sum

/-- The mint withholds what is neither received nor kept as the fee. -/
theorem exists_transferFeeDetails (hle : received.toNat + fee.toNat ≤ sent.toNat) :
    ∃ ds, transferFeeDetails sent received fee = .ok ds ∧
      total ds = sent.toNat - (received.toNat + fee.toNat) := by
  obtain ⟨sum, hsum, hsumVal⟩ := Word.exists_ofNat? (hle.trans_lt sent.isLt)
  have hadd : Word.checkedAdd received fee = some sum := hsum
  have hsub : Word.checkedSub sent fee = some (sent - fee) :=
    if_pos (show fee.toNat ≤ sent.toNat by omega)
  have hval : (sent - fee).toNat + fee.toNat = sent.toNat := Word.checkedSub_eq_some.mp hsub
  have hsub' : Word.checkedSub (sent - fee) received = some (sent - fee - received) :=
    if_pos (show received.toNat ≤ (sent - fee).toNat by omega)
  have hval' : (sent - fee - received).toNat + received.toNat = (sent - fee).toNat :=
    Word.checkedSub_eq_some.mp hsub'
  simp only [transferFeeDetails, hadd, hsub, hsub', Except.ofOption_some, Except.ok_bind]
  split
  case isTrue =>
    refine ⟨_, rfl, ?_⟩
    show (sent - fee - received).toNat + 0 = _
    omega
  case isFalse hlt =>
    -- nothing is withheld, and no entry is made
    have hge : sent.toNat ≤ sum.toNat := Nat.le_of_not_lt hlt
    refine ⟨_, rfl, ?_⟩
    show 0 = _
    omega

/-- **Fee details** add up to the difference of what is sent and what is received. -/
theorem exists_feeDetails (hle : received.toNat + fee.toNat ≤ sent.toNat) :
    ∃ ds, feeDetails sent received fee = .ok ds ∧
      total ds = sent.toNat - received.toNat := by
  obtain ⟨ds, hds, htotal⟩ := exists_transferFeeDetails hle
  refine ⟨_, by rw [feeDetails, hds]; rfl, ?_⟩
  have hcross : total (if 0#64 < fee then [⟨fee, "Cross Chain Fee"⟩] else []) = fee.toNat := by
    split
    case isTrue => exact Nat.add_zero _
    case isFalse hzero => exact (Nat.eq_zero_of_not_pos hzero).symm
  have happend : ∀ ds', total (ds ++ ds') = total ds + total ds' := by
    intro ds'
    rw [total, List.map_append, List.sum_append]
    rfl
  rw [happend, htotal, hcross]
  omega

/-- **Quotes** of an account list in order go through unless the store is paused or the user asks
for more. -/
theorem exists_apply_iff {P : Platform} {env : Env} {w : OFTWorld} {ctx : QuoteOFT}
    {params : QuoteOFTParams} {store : OFTStore} {peer : PeerConfig} {mint : Mint}
    (haccounts : ctx.tryAccounts P w params = .ok (store, peer, mint))
    (hcompute : computeFeeAndAdjustAmount env params.amountLd store mint peer.feeBps =
      .ok (sent, received, fee))
    (hle : received.toNat + fee.toNat ≤ sent.toNat) :
    ((∃ result, ctx.apply P env w params = .ok result) ↔
      store.paused = false ∧ params.minAmountLd ≤ received) ∧
    ∀ result, ctx.apply P env w params = .ok result →
      result.oftReceipt = ⟨sent, received⟩ ∧
      total result.oftFeeDetails = sent.toNat - received.toNat := by
  obtain ⟨ds, hds, htotal⟩ := exists_feeDetails hle
  have happly : ∀ result, ctx.apply P env w params = .ok result ↔
      store.paused = false ∧ params.minAmountLd ≤ received ∧
        ⟨⟨0#64, BitVec.allOnes 64⟩, ds, ⟨sent, received⟩⟩ = result := by
    intro result
    simp only [apply, haccounts, hcompute, hds, Except.ok_bind, Except.bind_eq_ok,
      Except.require_eq_ok, Except.pure_eq_ok, exists_const]
  simp only [happly]
  refine ⟨⟨?_, ?_⟩, ?_⟩
  · rintro ⟨result, hpaused, hmin, -⟩
    exact ⟨hpaused, hmin⟩
  · rintro ⟨hpaused, hmin⟩
    exact ⟨_, hpaused, hmin, rfl⟩
  · rintro result ⟨-, -, rfl⟩
    exact ⟨rfl, htotal⟩

end QuoteOFT

/-! ### The amounts of a store -/

/-- **Amounts.** With the accounts of the program as they can be, every amount has its answer:
nothing more than the amount is sent, in whole shared units, with no more dust than there has to
be, and exactly what the answer says arrives. Asking for the amount sent gives the same answer,
and the fees a quote lists are the difference. -/
theorem amounts_exact {P : Platform} {s : OFTState P} {k k' : Pubkey} {store : OFTStore}
    {peer : PeerConfig} (hstore : s.world.data k = some (.oftStore store))
    (hpeer : s.world.data k' = some (.peerConfig peer)) (env : Env) (mint : Mint) (amountLd : U64) :
    ∃ sent received fee,
      computeFeeAndAdjustAmount env amountLd store mint peer.feeBps = .ok (sent, received, fee) ∧
      Adjusted env mint store peer.feeBps amountLd sent received fee ∧
      ∀ (ctx : QuoteOFT) params,
        ctx.tryAccounts P s.world params = .ok (store, peer, mint) → params.amountLd = amountLd →
        ((∃ result, ctx.apply P env s.world params = .ok result) ↔
          store.paused = false ∧ params.minAmountLd ≤ received) ∧
        ∀ result, ctx.apply P env s.world params = .ok result →
          result.oftReceipt = ⟨sent, received⟩ ∧ received.toNat ≤ sent.toNat ∧
          (result.oftFeeDetails.map fun d => d.feeAmountLd.toNat).sum =
            sent.toNat - received.toNat := by
  -- the states of the model hold accounts in order only
  have horder : store.InOrder := s.wellFormed.storeInOrder hstore
  have hfee : PeerInOrder peer := s.wellFormed.peerInOrder hpeer
  obtain ⟨sent, received, fee, hcompute, hadjusted⟩ := exists_adjusted horder hfee env mint amountLd
  have hle : received.toNat + fee.toNat ≤ sent.toNat := hadjusted.received_add_fee_le
  refine ⟨sent, received, fee, hcompute, hadjusted, ?_⟩
  rintro ctx params haccounts rfl
  obtain ⟨hiff, hdetails⟩ := QuoteOFT.exists_apply_iff haccounts hcompute hle
  refine ⟨hiff, fun result hresult => ?_⟩
  obtain ⟨hreceipt, htotal⟩ := hdetails result hresult
  exact ⟨hreceipt, by omega, htotal⟩

/-- The accounts of a quote of the sample deployment. -/
def sampleQuote : QuoteOFT :=
  ⟨sampleWritable (sampleKey 1), sampleWritable (sampleKey 5), sampleWritable sampleMint⟩

/-- In the sample deployment a quote lists what the mint and what the OFT keeps. -/
theorem amounts_exact_sample :
    ∃ result, sampleQuote.apply samplePlatform sampleEnv sampleLocked.world
        ⟨sampleEid, sampleKey 50, 123456789#64, 0#64, [], none, false⟩ = .ok result ∧
      result.oftReceipt.amountReceivedLd.toNat ≤ result.oftReceipt.amountSentLd.toNat ∧
      (result.oftFeeDetails.map fun d => d.feeAmountLd.toNat).sum =
        result.oftReceipt.amountSentLd.toNat - result.oftReceipt.amountReceivedLd.toNat := by
  have haccounts : (sampleQuote.tryAccounts samplePlatform sampleLocked.world
      ⟨sampleEid, sampleKey 50, 123456789#64, 0#64, [], none, false⟩).map
      (fun r => (sampleLocked.world.data (sampleKey 1) = some (.oftStore r.1) ∧
        sampleLocked.world.data (sampleKey 5) = some (.peerConfig r.2.1) : Bool)) =
      .ok true := by decide +kernel
  have happly : (sampleQuote.apply samplePlatform sampleEnv sampleLocked.world
      ⟨sampleEid, sampleKey 50, 123456789#64, 0#64, [], none, false⟩).isOk = true := by
    decide +kernel
  obtain ⟨⟨store, peer, mint⟩, hok, hdata⟩ := Except.map_eq_ok.mp haccounts
  obtain ⟨hstore, hpeer⟩ := of_decide_eq_true hdata
  obtain ⟨result, hresult⟩ := Except.exists_of_isOk happly
  obtain ⟨sent, received, fee, -, -, hquote⟩ :=
    amounts_exact hstore hpeer sampleEnv mint 123456789#64
  obtain ⟨-, hdetails⟩ := hquote _ _ hok rfl
  obtain ⟨hreceipt, hle, hsum⟩ := hdetails result hresult
  refine ⟨result, hresult, ?_⟩
  rw [hreceipt]
  exact ⟨hle, hsum⟩

end Oft
