import SolanaProxy.Oft.Store
import SolanaProxy.Solana.Endpoint

/-!
# Amounts and fees of the OFT

`computeFeeAndAdjustAmount` turns the amount a user wants to send into the amount taken from
the user, the amount the other side is told, and the fee that stays. An adapter has to see
through the transfer fee of the mint: it computes what arrives of the amount, drops the dust,
and computes back what has to be sent for the rest to arrive.

The inverse is a copy of library code in checked 128-bit arithmetic. `calculatePreFeeAmount_eq`
says that it computes `CappedFee.pre`, the lower adjoint of what a transfer leaves, whenever
that fits into 64 bits; so what arrives is exactly what was meant to
(`of_computeFeeAndAdjustAmount_adapter`).
-/

namespace Oft

open Solana

/-! ### Transfer fees -/

/-- `ceil_div`, checked. -/
def ceilDiv (numerator denominator : U128) : Option U128 := do
  let sum ← Word.checkedAdd numerator denominator
  let pred ← Word.checkedSub sum 1#128
  Word.checkedDiv pred denominator

/-- The amount that has to be sent for an amount to be left after the fee. -/
def calculatePreFeeAmount (fee : TransferFee) (postFeeAmount : U64) : Option U64 :=
  let maximumFee := fee.maximumFee
  let transferFeeBasisPoints : U128 := fee.transferFeeBasisPoints.setWidth 128
  -- no fee, the same amount
  if transferFeeBasisPoints = 0#128 then some postFeeAmount
  -- nothing for nothing
  else if postFeeAmount = 0#64 then some 0#64
  -- everything, up to the maximum fee
  else if transferFeeBasisPoints = BitVec.ofNat 128 oneInBasisPoints then
    Word.checkedAdd maximumFee postFeeAmount
  else do
    let numerator ←
      Word.checkedMul (postFeeAmount.setWidth 128) (BitVec.ofNat 128 oneInBasisPoints)
    let denominator ← Word.checkedSub (BitVec.ofNat 128 oneInBasisPoints) transferFeeBasisPoints
    let rawPreFeeAmount ← ceilDiv numerator denominator
    let rawFee ← Word.checkedSub rawPreFeeAmount (postFeeAmount.setWidth 128)
    if maximumFee.setWidth 128 ≤ rawFee then
      Word.checkedAdd postFeeAmount maximumFee
    else Word.tryCast 64 rawPreFeeAmount

/-- What is left of an amount after the transfer fee of the mint. -/
def getPostFeeAmountLd (env : Env) (tokenMint : Mint) (amountLd : U64) : Result OFTError U64 :=
  match tokenMint.transferFee env.epoch with
  | some fee => Except.ofOption .invalidArgument (fee.calculatePostFeeAmount amountLd)
  | none => return amountLd

/-- What has to be sent for an amount to be left after the transfer fee of the mint. -/
def getPreFeeAmountLd (env : Env) (tokenMint : Mint) (amountLd : U64) : Result OFTError U64 :=
  match tokenMint.transferFee env.epoch with
  | some fee => Except.ofOption .invalidArgument (calculatePreFeeAmount fee amountLd)
  | none => return amountLd

/-! ### The fee of the OFT -/

/-- The share of the amount the peer's fee takes, or the default fee if it has none. -/
def calculateFee (preFeeAmount : U64) (defaultFeeBps : U16) (feeBps : Option U16) : U64 :=
  let finalFeeBps : U128 := (feeBps.getD defaultFeeBps).setWidth 128
  if finalFeeBps = 0#128 ∨ preFeeAmount = 0#64 then 0#64
  else
    let fee := preFeeAmount.setWidth 128 * finalFeeBps
    (fee / BitVec.ofNat 128 oneInBasisPoints).setWidth 64

/-- The amount sent, the amount received and the fee for an amount. -/
def computeFeeAndAdjustAmount (env : Env) (amountLd : U64) (oftStore : OFTStore)
    (tokenMint : Mint) (feeBps : Option U16) : Result OFTError (U64 × U64 × U64) :=
  match oftStore.oftType with
  | .adapter => do
    let postFeeAmountLd ← getPostFeeAmountLd env tokenMint amountLd
    let amountReceivedLd ← oftStore.removeDust postFeeAmountLd
    let amountSentLd ← getPreFeeAmountLd env tokenMint amountReceivedLd
    let oftFeeLd ← oftStore.removeDust
      (calculateFee amountReceivedLd oftStore.defaultFeeBps feeBps)
    let amountReceivedLd ← Except.ofOption .panic (Word.checkedSub amountReceivedLd oftFeeLd)
    return (amountSentLd, amountReceivedLd, oftFeeLd)
  | .native => do
    let amountSentLd ← oftStore.removeDust amountLd
    let oftFeeLd ← oftStore.removeDust (calculateFee amountSentLd oftStore.defaultFeeBps feeBps)
    let amountReceivedLd ← Except.ofOption .panic (Word.checkedSub amountSentLd oftFeeLd)
    return (amountSentLd, amountReceivedLd, oftFeeLd)

/-! ### The inverse of the transfer fee -/

section Inverse

variable {fee : TransferFee}

theorem toNat_setWidth_of_le {w v : ℕ} (h : w ≤ v) (a : BitVec w) :
    (a.setWidth v).toNat = a.toNat := by
  rw [BitVec.toNat_setWidth,
    Nat.mod_eq_of_lt (a.isLt.trans_le (Nat.pow_le_pow_right Nat.two_pos h))]

/-- **No overflow.** Below rate one every checked operation of the inverse fits into 128 bits,
and its quotient is the smallest amount whose proportional fee leaves the given one. -/
theorem exists_uncapped (hlt : fee.transferFeeBasisPoints.toNat < oneInBasisPoints) (x : U64) :
    ∃ numerator denominator sum pred raw rawFee : U128,
      Word.checkedMul (x.setWidth 128) (BitVec.ofNat 128 oneInBasisPoints) = some numerator ∧
      Word.checkedSub (BitVec.ofNat 128 oneInBasisPoints)
        (fee.transferFeeBasisPoints.setWidth 128) = some denominator ∧
      Word.checkedAdd numerator denominator = some sum ∧
      Word.checkedSub sum 1#128 = some pred ∧ Word.checkedDiv pred denominator = some raw ∧
      Word.checkedSub raw (x.setWidth 128) = some rawFee ∧
      raw.toNat = fee.toCappedFee.raw x.toNat := by
  have hbps : (fee.transferFeeBasisPoints.setWidth 128).toNat =
      fee.transferFeeBasisPoints.toNat := toNat_setWidth_of_le (by decide) _
  have hx128 : (x.setWidth 128).toNat = x.toNat := toNat_setWidth_of_le (by decide) _
  have hone : (BitVec.ofNat 128 oneInBasisPoints).toNat = oneInBasisPoints := rfl
  have hone128 : (1#128).toNat = 1 := rfl
  have honeLt : oneInBasisPoints < 2 ^ 14 := by decide
  have hxlt : x.toNat < 2 ^ 64 := x.isLt
  have hprod : x.toNat * oneInBasisPoints < 2 ^ 78 := by
    calc x.toNat * oneInBasisPoints < 2 ^ 64 * 2 ^ 14 := Nat.mul_lt_mul'' hxlt honeLt
      _ = 2 ^ 78 := by norm_num
  have hraw : fee.toCappedFee.raw x.toNat ≤ x.toNat * oneInBasisPoints :=
    (CappedFee.raw_le_iff hlt).mpr (Nat.le_mul_of_pos_right _ (Nat.sub_pos_of_lt hlt))
  have hxraw : x.toNat ≤ fee.toCappedFee.raw x.toNat := CappedFee.le_raw hlt _
  -- every value is far below `2 ^ 128`
  obtain ⟨numerator, -, hnumerator⟩ :=
    Word.exists_ofNat? (w := 128) (n := x.toNat * oneInBasisPoints) (by omega)
  obtain ⟨denominator, -, hdenominator⟩ := Word.exists_ofNat? (w := 128)
    (n := oneInBasisPoints - fee.transferFeeBasisPoints.toNat) (by omega)
  obtain ⟨sum, -, hsum⟩ := Word.exists_ofNat? (w := 128)
    (n := numerator.toNat + denominator.toNat) (by omega)
  obtain ⟨pred, -, hpred⟩ := Word.exists_ofNat? (w := 128) (n := sum.toNat - 1) (by omega)
  obtain ⟨raw, -, hrawVal⟩ :=
    Word.exists_ofNat? (w := 128) (n := fee.toCappedFee.raw x.toNat) (by omega)
  obtain ⟨rawFee, -, hrawFee⟩ := Word.exists_ofNat? (w := 128)
    (n := fee.toCappedFee.raw x.toNat - x.toNat) (by omega)
  refine ⟨numerator, denominator, sum, pred, raw, rawFee, ?_, ?_, ?_, ?_, ?_, ?_, hrawVal⟩
  · rw [Word.checkedMul_eq_some, hx128, hone, hnumerator]
  · rw [Word.checkedSub_eq_some, hbps, hone, hdenominator]
    omega
  · rw [Word.checkedAdd_eq_some, hsum]
  · rw [Word.checkedSub_eq_some, hone128]
    omega
  · rw [Word.checkedDiv_eq_some, hrawVal, hpred, hsum, hnumerator, hdenominator,
      ← Nat.ceilDiv_eq_add_pred_div]
    exact ⟨Nat.sub_pos_of_lt hlt, rfl⟩
  · rw [Word.checkedSub_eq_some, hx128, hrawVal, hrawFee]
    omega

/-- The inverse below rate one, step by step in 128 bits. -/
private theorem calculatePreFeeAmount_of_lt {x : U64} (hx : 0 < x.toNat)
    (hpos : 0 < fee.transferFeeBasisPoints.toNat)
    (hlt : fee.transferFeeBasisPoints.toNat < oneInBasisPoints) :
    calculatePreFeeAmount fee x = Word.ofNat? 64 (fee.toCappedFee.pre x.toNat) := by
  have hbps : (fee.transferFeeBasisPoints.setWidth 128).toNat =
      fee.transferFeeBasisPoints.toNat := toNat_setWidth_of_le (by decide) _
  have hx128 : (x.setWidth 128).toNat = x.toNat := toNat_setWidth_of_le (by decide) _
  have hmax : (fee.maximumFee.setWidth 128).toNat = fee.maximumFee.toNat :=
    toNat_setWidth_of_le (by decide) _
  have hbpsNe : ¬fee.transferFeeBasisPoints.setWidth 128 = 0#128 := by
    rw [← BitVec.toNat_inj, hbps]
    exact hpos.ne'
  have hxNe : ¬x = 0#64 := by
    rw [← BitVec.toNat_inj]
    exact hx.ne'
  have honeNe : ¬fee.transferFeeBasisPoints.setWidth 128 = BitVec.ofNat 128 oneInBasisPoints := by
    rw [← BitVec.toNat_inj, hbps]
    exact hlt.ne
  obtain ⟨numerator, denominator, sum, pred, raw, rawFee, hmul, hsub, hsum, hpred, hdiv, hrawFee,
    hrawVal⟩ := exists_uncapped hlt x
  have hceil : ceilDiv numerator denominator = some raw := by
    simp only [ceilDiv, hsum, hpred, hdiv, Option.bind_eq_bind, Option.bind_some]
  -- the source compares with the maximum where the closed form does
  have hcap : fee.maximumFee.setWidth 128 ≤ rawFee ↔
      fee.toCappedFee.cap ≤ fee.toCappedFee.raw x.toNat - x.toNat := by
    have hval : rawFee.toNat + x.toNat = fee.toCappedFee.raw x.toNat := by
      rw [← hrawVal, ← hx128]
      exact Word.checkedSub_eq_some.mp hrawFee
    rw [BitVec.le_def, hmax, ← hval, Nat.add_sub_cancel]
    rfl
  have hpre := CappedFee.pre_eq_ite (F := fee.toCappedFee) hlt x.toNat hx
  simp only [calculatePreFeeAmount, if_neg hbpsNe, if_neg hxNe, if_neg honeNe, hmul, hsub, hceil,
    hrawFee, Option.bind_eq_bind, Option.bind_some, hcap, hpre, Word.checkedAdd, Word.tryCast,
    hrawVal]
  split <;> rfl

/-- **The inverse fee.** The copied code computes the smallest amount that leaves the given
one, and fails exactly when that does not fit. -/
theorem calculatePreFeeAmount_eq (x : U64) :
    calculatePreFeeAmount fee x = Word.ofNat? 64 (fee.toCappedFee.pre x.toNat) := by
  -- the cases of the source, in its order
  rcases Nat.eq_zero_or_pos fee.transferFeeBasisPoints.toNat with hzero | hpos
  · rw [CappedFee.pre_of_rate_eq_zero hzero, Word.ofNat?_toNat, calculatePreFeeAmount, if_pos]
    rw [← BitVec.toNat_inj, toNat_setWidth_of_le (by decide), hzero]
    rfl
  have hbpsNe : ¬fee.transferFeeBasisPoints.setWidth 128 = 0#128 := by
    rw [← BitVec.toNat_inj, toNat_setWidth_of_le (by decide)]
    exact hpos.ne'
  rcases Nat.eq_zero_or_pos x.toNat with hx | hx
  · obtain rfl : x = 0#64 := BitVec.eq_of_toNat_eq hx
    rw [calculatePreFeeAmount, if_neg hbpsNe, if_pos rfl]
    rfl
  rcases fee.basisPoints_le.eq_or_lt with heq | hlt
  · have honeEq : fee.transferFeeBasisPoints.setWidth 128 = BitVec.ofNat 128 oneInBasisPoints := by
      rw [← BitVec.toNat_inj, toNat_setWidth_of_le (by decide), heq]
      rfl
    have hxNe : ¬x = 0#64 := by
      rintro rfl
      exact hx.ne' rfl
    have hpre := CappedFee.pre_of_rate_eq_scale (F := fee.toCappedFee) heq hx
    rw [calculatePreFeeAmount, if_neg hbpsNe, if_neg hxNe, if_pos honeEq, hpre, Word.checkedAdd,
      Nat.add_comm]
    rfl
  · exact calculatePreFeeAmount_of_lt hx hpos hlt

end Inverse

/-- **The least inverse.** With `post a` what a transfer fee leaves of the amount `a`, the copied
code answers `x` exactly when some 64-bit amount leaves at least `x`; then it answers the smallest
such amount, and this one leaves `x` exactly. None of its 128-bit operations overflows; at rate
one it has none. -/
theorem calculatePreFeeAmount_least (fee : TransferFee) (x : U64) :
    let post (a : ℕ) : ℕ :=
      a - min fee.maximumFee.toNat (a * fee.transferFeeBasisPoints.toNat ⌈/⌉ oneInBasisPoints)
    ((∃ a, calculatePreFeeAmount fee x = some a) ↔ ∃ b : U64, x.toNat ≤ post b.toNat) ∧
    (∀ a, calculatePreFeeAmount fee x = some a →
      post a.toNat = x.toNat ∧ ∀ b : U64, x.toNat ≤ post b.toNat → a.toNat ≤ b.toNat) ∧
    (calculatePreFeeAmount fee x = none ↔ ∀ b : U64, post b.toNat < x.toNat) ∧
    (fee.transferFeeBasisPoints.toNat = oneInBasisPoints ∨
      ∃ numerator denominator sum pred raw rawFee : U128,
        Word.checkedMul (x.setWidth 128) (BitVec.ofNat 128 oneInBasisPoints) = some numerator ∧
        Word.checkedSub (BitVec.ofNat 128 oneInBasisPoints)
          (fee.transferFeeBasisPoints.setWidth 128) = some denominator ∧
        Word.checkedAdd numerator denominator = some sum ∧
        Word.checkedSub sum 1#128 = some pred ∧ Word.checkedDiv pred denominator = some raw ∧
        Word.checkedSub raw (x.setWidth 128) = some rawFee) := by
  intro post
  have hpost : ∀ a, post a = fee.toCappedFee.post a := fun a => rfl
  have hsome : ∀ a, calculatePreFeeAmount fee x = some a ↔
      a.toNat = fee.toCappedFee.pre x.toNat := by
    intro a
    rw [calculatePreFeeAmount_eq, Word.ofNat?_eq_some]
  have hexists : (∃ a, calculatePreFeeAmount fee x = some a) ↔
      ∃ b : U64, x.toNat ≤ post b.toNat := by
    constructor
    · rintro ⟨a, ha⟩
      exact ⟨a, CappedFee.pre_le_iff.mp ((hsome a).mp ha).ge⟩
    · rintro ⟨b, hb⟩
      -- the least amount is no larger, so it fits as well
      have hle : fee.toCappedFee.pre x.toNat ≤ b.toNat := CappedFee.pre_le_iff.mpr hb
      obtain ⟨a, -, ha⟩ := Word.exists_ofNat? (hle.trans_lt b.isLt)
      exact ⟨a, (hsome a).mpr ha⟩
  refine ⟨hexists, fun a ha => ⟨?_, fun b hb => ?_⟩, ?_, ?_⟩
  · rw [hpost, (hsome a).mp ha, CappedFee.post_pre]
  · rw [(hsome a).mp ha]
    exact CappedFee.pre_le_iff.mpr hb
  · rw [Option.eq_none_iff_forall_ne_some, ← not_exists, hexists, not_exists]
    exact forall_congr' fun b => Nat.not_le
  · refine fee.basisPoints_le.eq_or_lt.imp_right fun hlt => ?_
    obtain ⟨numerator, denominator, sum, pred, raw, rawFee, hmul, hsub, hsum, hpred, hdiv, hrawFee,
      -⟩ := exists_uncapped hlt x
    exact ⟨numerator, denominator, sum, pred, raw, rawFee, hmul, hsub, hsum, hpred, hdiv, hrawFee⟩

/-! ### What the amounts are -/

section Amounts

variable {env : Env} {m : Mint} {s : OFTStore} {feeBps : Option U16}
  {a b amountLd sent received fee : U64}

/-- What is left after the transfer fee always exists and is what the fee of the mint leaves. -/
theorem getPostFeeAmountLd_eq (env : Env) (m : Mint) (a : U64) :
    ∃ post, getPostFeeAmountLd env m a = .ok post ∧
      post.toNat = (m.cappedFee env.epoch).post a.toNat := by
  rw [getPostFeeAmountLd, Mint.cappedFee]
  cases m.transferFee env.epoch with
  | none => exact ⟨a, rfl, (CappedFee.post_free _).symm⟩
  | some f =>
    obtain ⟨post, hpost, hval⟩ := f.calculatePostFeeAmount_eq a
    exact ⟨post, Except.ofOption_eq_ok.mpr hpost, hval⟩

/-- What has to be sent for an amount to be left is the inverse of the fee of the mint. -/
theorem getPreFeeAmountLd_eq_ok :
    getPreFeeAmountLd env m a = .ok b ↔ b.toNat = (m.cappedFee env.epoch).pre a.toNat := by
  rw [getPreFeeAmountLd, Mint.cappedFee]
  cases m.transferFee env.epoch with
  | none =>
    rw [Option.elim_none, CappedFee.pre_of_rate_eq_zero rfl, BitVec.toNat_inj, eq_comm]
    exact Except.pure_eq_ok
  | some f =>
    rw [Option.elim_some]
    exact Except.ofOption_eq_ok.trans (by rw [calculatePreFeeAmount_eq, Word.ofNat?_eq_some])

/-- Something is always left after the transfer fee. -/
theorem exists_getPostFeeAmountLd (env : Env) (m : Mint) (a : U64) :
    ∃ post, getPostFeeAmountLd env m a = .ok post := by
  obtain ⟨post, hpost, -⟩ := getPostFeeAmountLd_eq env m a
  exact ⟨post, hpost⟩

/-- **What arrives** of the amount computed back is the amount it was computed from. -/
theorem of_getPreFeeAmountLd (h : getPreFeeAmountLd env m a = .ok b) :
    b.toNat - m.calculateFee env.epoch b.toNat = a.toNat := by
  have hpre : b.toNat = (m.cappedFee env.epoch).pre a.toNat := getPreFeeAmountLd_eq_ok.mp h
  rw [← Mint.fee_cappedFee, hpre]
  exact CappedFee.post_pre _

/-- The computation of a native OFT. -/
theorem computeFeeAndAdjustAmount_eq_ok_of_native (htype : s.oftType = .native) :
    computeFeeAndAdjustAmount env amountLd s m feeBps = .ok (sent, received, fee) ↔
      s.removeDust amountLd = .ok sent ∧
      s.removeDust (calculateFee sent s.defaultFeeBps feeBps) = .ok fee ∧
      received.toNat + fee.toNat = sent.toNat := by
  simp only [computeFeeAndAdjustAmount, htype, Except.bind_eq_ok, Except.ofOption_eq_ok,
    Word.checkedSub_eq_some, Except.pure_eq_ok, Prod.mk.injEq]
  constructor
  · rintro ⟨_, hsent, _, hfee, _, hsum, rfl, rfl, rfl⟩
    exact ⟨hsent, hfee, hsum⟩
  · rintro ⟨hsent, hfee, hsum⟩
    exact ⟨_, hsent, _, hfee, _, hsum, rfl, rfl, rfl⟩

/-- The computation of an adapter. -/
theorem computeFeeAndAdjustAmount_eq_ok_of_adapter (htype : s.oftType = .adapter) :
    computeFeeAndAdjustAmount env amountLd s m feeBps = .ok (sent, received, fee) ↔
      ∃ post whole, getPostFeeAmountLd env m amountLd = .ok post ∧
        s.removeDust post = .ok whole ∧ getPreFeeAmountLd env m whole = .ok sent ∧
        s.removeDust (calculateFee whole s.defaultFeeBps feeBps) = .ok fee ∧
        received.toNat + fee.toNat = whole.toNat := by
  simp only [computeFeeAndAdjustAmount, htype, Except.bind_eq_ok, Except.ofOption_eq_ok,
    Word.checkedSub_eq_some, Except.pure_eq_ok, Prod.mk.injEq]
  constructor
  · rintro ⟨post, hpost, whole, hwhole, _, hsent, _, hfee, _, hsum, rfl, rfl, rfl⟩
    exact ⟨post, whole, hpost, hwhole, hsent, hfee, hsum⟩
  · rintro ⟨post, whole, hpost, hwhole, hsent, hfee, hsum⟩
    exact ⟨post, hpost, whole, hwhole, _, hsent, _, hfee, _, hsum, rfl, rfl, rfl⟩

/-- Without dust on both sides, the rest has no dust. -/
private theorem dvd_of_removeDust {x y whole : U64} (hwhole : s.removeDust x = .ok whole)
    (hfee : s.removeDust y = .ok fee) (hsum : received.toNat + fee.toNat = whole.toNat) :
    s.ld2sdRate.toNat ∣ received.toNat := by
  obtain ⟨-, hwholeVal⟩ := OFTStore.removeDust_eq_ok.mp hwhole
  obtain ⟨-, hfeeVal⟩ := OFTStore.removeDust_eq_ok.mp hfee
  have hdvdFee : s.ld2sdRate.toNat ∣ fee.toNat := hfeeVal ▸ Nat.dvd_mul_left _ _
  have hdvd : s.ld2sdRate.toNat ∣ received.toNat + fee.toNat := by
    rw [hsum, hwholeVal]
    exact Nat.dvd_mul_left _ _
  exact (Nat.dvd_add_left hdvdFee).mp hdvd

/-- **Amounts of an adapter.** What arrives in the escrow is the amount received together with
the fee, both in whole shared units. -/
theorem of_computeFeeAndAdjustAmount_adapter (htype : s.oftType = .adapter)
    (h : computeFeeAndAdjustAmount env amountLd s m feeBps = .ok (sent, received, fee)) :
    sent.toNat - m.calculateFee env.epoch sent.toNat = received.toNat + fee.toNat ∧
      s.ld2sdRate.toNat ∣ received.toNat := by
  obtain ⟨post, whole, -, hwhole, hpre, hfee, hsum⟩ :=
    (computeFeeAndAdjustAmount_eq_ok_of_adapter htype).mp h
  exact ⟨by rw [of_getPreFeeAmountLd hpre, hsum], dvd_of_removeDust hwhole hfee hsum⟩

/-- **Amounts of a native OFT.** What is sent is what is received together with the fee. -/
theorem of_computeFeeAndAdjustAmount_native (htype : s.oftType = .native)
    (h : computeFeeAndAdjustAmount env amountLd s m feeBps = .ok (sent, received, fee)) :
    sent.toNat = received.toNat + fee.toNat ∧ s.ld2sdRate.toNat ∣ received.toNat := by
  obtain ⟨hsent, hfee, hsum⟩ := (computeFeeAndAdjustAmount_eq_ok_of_native htype).mp h
  exact ⟨hsum.symm, dvd_of_removeDust hsent hfee hsum⟩

/-- The amount received is in whole shared units. -/
theorem ld2sdRate_dvd_received
    (h : computeFeeAndAdjustAmount env amountLd s m feeBps = .ok (sent, received, fee)) :
    s.ld2sdRate.toNat ∣ received.toNat := by
  cases htype : s.oftType with
  | native => exact (of_computeFeeAndAdjustAmount_native htype h).2
  | adapter => exact (of_computeFeeAndAdjustAmount_adapter htype h).2

/-- One shared unit of a mint without transfer fee can be sent without a fee. -/
theorem computeFeeAndAdjustAmount_unit (env : Env) (hpos : 0 < s.ld2sdRate.toNat)
    (hm : m.transferFeeConfig = none) :
    computeFeeAndAdjustAmount env s.ld2sdRate s m (some 0#16) =
      .ok (s.ld2sdRate, s.ld2sdRate, 0#64) := by
  have hunit : s.removeDust s.ld2sdRate = .ok s.ld2sdRate :=
    OFTStore.removeDust_eq_ok.mpr ⟨hpos, by rw [Nat.div_self hpos, one_mul]⟩
  have hfee : s.removeDust (calculateFee s.ld2sdRate s.defaultFeeBps (some 0#16)) =
      .ok 0#64 := by
    rw [OFTStore.removeDust_eq_ok]
    simp [calculateFee, hpos]
  have hnone : m.transferFee env.epoch = none := by
    rw [Mint.transferFee, hm, Option.map_none]
  have hpost : getPostFeeAmountLd env m s.ld2sdRate = .ok s.ld2sdRate := by
    rw [getPostFeeAmountLd, hnone]
    rfl
  have hpre : getPreFeeAmountLd env m s.ld2sdRate = .ok s.ld2sdRate := by
    rw [getPreFeeAmountLd, hnone]
    rfl
  cases htype : s.oftType with
  | native =>
    exact (computeFeeAndAdjustAmount_eq_ok_of_native htype).mpr ⟨hunit, hfee, Nat.add_zero _⟩
  | adapter =>
    exact (computeFeeAndAdjustAmount_eq_ok_of_adapter htype).mpr
      ⟨_, _, hpost, hunit, hpre, hfee, Nat.add_zero _⟩

end Amounts

end Oft
