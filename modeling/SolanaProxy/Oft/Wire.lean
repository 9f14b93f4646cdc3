import SolanaProxy.General.Decimals
import SolanaProxy.Oft.Run

/-!
# The amount on the wire

What the amount field of a message means. The codec says that it holds the amount in 18
decimals. The program gets there by two scalings that know nothing of each other: the store's
rate, from the decimals of the mint to the shared decimals, and the codec's `10 ^ 8`, which is
the step from 10 to 18 decimals. Together they are exact for 10 shared decimals and for no
others (`wire_exact_iff`), though `init_oft` accepts any number up to the mint's.

On the way in the program reads 256 bits and keeps 64. A delivery releases what the field says
exactly when that fits (`released_exactly_iff`), and something else otherwise.
-/

namespace Oft

open Solana Decimals

/-! ### What a delivery releases -/

/-- A delivery releases the given amount, over the natural numbers: an adapter transfers it out
of its escrow, a native OFT mints it. -/
structure Releases (w w' : OFTWorld) (es : List OFTEffect) (ctx : LzReceive) (store : OFTStore)
    (amount : ℕ) : Prop where
  unlocked : store.oftType = .adapter →
    es.filterMap Effect.transferred? =
        [(ctx.tokenEscrow.pubkey, ctx.tokenDest.pubkey, amount)] ∧
      (ctx.tokenEscrow.pubkey ≠ ctx.tokenDest.pubkey →
        w'.balance ctx.tokenEscrow.pubkey + amount = w.balance ctx.tokenEscrow.pubkey)
  minted : store.oftType = .native →
    es.filterMap Effect.minted? = [(ctx.tokenMint.pubkey, ctx.tokenDest.pubkey, amount)] ∧
      w'.balance ctx.tokenDest.pubkey = w.balance ctx.tokenDest.pubkey + amount

/-- A delivery releases one amount. -/
theorem Releases.unique {w w' : OFTWorld} {es : List OFTEffect} {ctx : LzReceive}
    {store : OFTStore} {a b : ℕ} (ha : Releases w w' es ctx store a)
    (hb : Releases w w' es ctx store b) : a = b := by
  cases htype : store.oftType with
  | native => simpa using (ha.minted htype).1.symm.trans (hb.minted htype).1
  | adapter => simpa using (ha.unlocked htype).1.symm.trans (hb.unlocked htype).1

section Receive

variable {P : Platform} {env : Env} {w w' : OFTWorld} {es : List OFTEffect} {ctx : LzReceive}
  {params : LzReceiveParams}

/-- **The amount of a delivery** is the one read from the message, in local decimals. -/
theorem LzReceive.releases_of_apply (h : ctx.apply P env w params = .ok (w', es)) :
    ∃ store amountSd amountLd, w.data ctx.oftStore.pubkey = some (.oftStore store) ∧
      MsgCodec.amountSd params.message = some amountSd ∧ store.sd2ld amountSd = .ok amountLd ∧
      Releases w w' es ctx store amountLd.toNat := by
  obtain ⟨tr⟩ := nonempty_trace h
  have hcreated : ∀ k, tr.loaded.balance k = w.balance k :=
    balance_of_initAssociatedIfNeeded tr.accounts.dest_created
  have hbefore : ∀ k, World.balance { tr.loaded with lamports := tr.lamports } k = w.balance k :=
    hcreated
  have hafter : ∀ k, w'.balance k = tr.released.balance k := by
    intro k
    rw [World.balance, World.balance, tr.tokens_eq]
  -- neither clearing nor composing moves tokens
  have htransferred : es.filterMap Effect.transferred? = tr.moved.filterMap Effect.transferred? :=
    tr.filterMap_effects (fun _ _ _ _ => rfl) fun _ => rfl
  have hminted : es.filterMap Effect.minted? = tr.moved.filterMap Effect.minted? :=
    tr.filterMap_effects (fun _ _ _ _ => rfl) fun _ => rfl
  refine ⟨tr.store, tr.amountSd, tr.amountLd, tr.accounts.store_data, tr.shared, tr.local_eq,
    fun htype => ?_, fun htype => ?_⟩
  · obtain ⟨tvlLd, m, -, -, htransfer, hmoved⟩ := releaseTokens_adapter htype tr.tokens
    refine ⟨?_, fun hne => ?_⟩
    · rw [htransferred, hmoved]
      rfl
    · obtain ⟨hsrc, -⟩ := World.balance_of_transferTokens hne htransfer
      rw [hafter, hsrc, hbefore]
  · obtain ⟨-, hmint, hmoved⟩ := releaseTokens_native htype tr.tokens
    refine ⟨?_, ?_⟩
    · rw [hminted, hmoved]
      rfl
    · rw [hafter, World.balance_of_mintTokens hmint, hbefore]

/-- A successful delivery releases the low 64 bits of the quotient of the low half of the
field. -/
theorem LzReceive.releases_of_field {field : ℕ}
    (hfield : MsgCodec.amountField params.message = some field)
    (h : ctx.apply P env w params = .ok (w', es)) :
    ∃ store, w.data ctx.oftStore.pubkey = some (.oftStore store) ∧ Releases w w' es ctx store
      (field % 2 ^ 128 / 10 ^ 8 % 2 ^ 64 * store.ld2sdRate.toNat) := by
  obtain ⟨store, amountSd, amountLd, hstore, hsd, hld, hreleases⟩ := releases_of_apply h
  obtain ⟨field', hfield', hvalue⟩ := MsgCodec.amountSd_eq_some hsd
  obtain rfl : field = field' := Option.some.inj (hfield.symm.trans hfield')
  rw [OFTStore.sd2ld_eq_ok.mp hld, hvalue] at hreleases
  exact ⟨store, hstore, hreleases⟩

end Receive

/-- What is kept of a field is all of it exactly when the quotient fits into 64 bits. -/
theorem kept_eq_iff (field : ℕ) :
    field % 2 ^ 128 / 10 ^ 8 % 2 ^ 64 = field / 10 ^ 8 ↔ field / 10 ^ 8 < 2 ^ 64 := by
  constructor
  · intro h
    omega
  · intro h
    have hlt : field < 2 ^ 128 := by omega
    rw [Nat.mod_eq_of_lt hlt, Nat.mod_eq_of_lt h]

/-- **Amounts that come in.** Take a delivery that succeeds, of a message of 64 bytes or more,
and the number in its amount field. The delivery releases that number of shared units, dust
dropped, exactly when this fits into 64 bits. -/
theorem released_exactly_iff {P : Platform} (s : OFTState P) {env : Env} {ctx : LzReceive}
    {params : LzReceiveParams} {w' : OFTWorld} {es : List OFTEffect}
    (hlen : 64 ≤ params.message.length)
    (h : ctx.apply P env s.world params = .ok (w', es)) :
    ∃ field store, MsgCodec.amountField params.message = some field ∧
      s.world.data ctx.oftStore.pubkey = some (.oftStore store) ∧
      (Releases s.world w' es ctx store (field / 10 ^ 8 * store.ld2sdRate.toNat) ↔
        field / 10 ^ 8 < 2 ^ 64) := by
  obtain ⟨field, hfield⟩ := MsgCodec.exists_amountField hlen
  obtain ⟨store, hstore, hreleases⟩ := LzReceive.releases_of_field hfield h
  have horder : store.InOrder := s.wellFormed.storeInOrder hstore
  have hpos : 0 < store.ld2sdRate.toNat := horder.ld2sdRate_pos
  refine ⟨field, store, hfield, hstore, ?_⟩
  rw [← kept_eq_iff]
  constructor
  · intro hexact
    exact Nat.eq_of_mul_eq_mul_right hpos (hreleases.unique hexact)
  · intro heq
    rwa [heq] at hreleases

/-- A message for `2 ^ 128 + 300000000` is delivered, and releases three shared units. -/
theorem released_modulo :
    MsgCodec.amountField (sampleReceiveParams (BitVec.ofNat 256 (2 ^ 128 + 300000000))).message =
      some (2 ^ 128 + 300000000) ∧
    (sampleLzReceive.apply samplePlatform sampleEnv sampleLocked.world
        (sampleReceiveParams (BitVec.ofNat 256 (2 ^ 128 + 300000000)))).map
      (fun r => r.2.filterMap Effect.transferred?) =
        .ok [(sampleKey 9, sampleKey 10, 30000)] ∧
    (2 ^ 128 + 300000000) / 10 ^ 8 * 10000 ≠ 30000 := by
  decide +kernel

/-- A message for three shared units releases them. -/
theorem released_exactly_iff_three :
    ∃ w' es store, sampleLzReceive.apply samplePlatform sampleEnv sampleLocked.world
        (sampleReceiveParams 300000000#256) = .ok (w', es) ∧
      Releases sampleLocked.world w' es sampleLzReceive store (3 * store.ld2sdRate.toNat) := by
  obtain ⟨⟨w', es⟩, happly⟩ := Except.exists_of_isOk (x := sampleLzReceive.apply samplePlatform
    sampleEnv sampleLocked.world (sampleReceiveParams 300000000#256)) (by decide +kernel)
  obtain ⟨field, store, hfield, -, hiff⟩ :=
    released_exactly_iff sampleLocked (by decide +kernel) happly
  have hthree : MsgCodec.amountField (sampleReceiveParams 300000000#256).message =
      some 300000000 := by decide +kernel
  obtain rfl : field = 300000000 := Option.some.inj (hfield.symm.trans hthree)
  exact ⟨w', es, store, happly, hiff.mpr (by decide)⟩

/-! ### What the field means -/

/-- Whatever amount a send of tokens with `d` decimals computes, the field it writes is that
quantity in 18 decimals. -/
def OutboundExact (store : OFTStore) (d : ℕ) : Prop :=
  ∀ env (mint : Mint) feeBps amountLd sent received fee amountSd toAddress sender composeMsg field,
    mint.decimals.toNat = d →
    computeFeeAndAdjustAmount env amountLd store mint feeBps = .ok (sent, received, fee) →
    store.ld2sd received = .ok amountSd →
    MsgCodec.amountField (MsgCodec.encode toAddress amountSd sender composeMsg) = some field →
    SameQuantity field 18 received.toNat d

/-- Whatever field comes in, the amount credited is that quantity in 18 decimals, less than one
shared unit dropped. -/
def InboundExact (store : OFTStore) (d sd : ℕ) : Prop :=
  ∀ message field amountSd amountLd, MsgCodec.amountField message = some field →
    field ≤ 2 ^ 64 * 10 ^ 8 - 1 → MsgCodec.amountSd message = some amountSd →
    store.sd2ld amountSd = .ok amountLd →
    RoundedDown field 18 amountLd.toNat d (10 ^ (d - sd))

section Law

variable {store : OFTStore} {d sd : ℕ}

/-- The field a send writes for an amount it computed, and what it means. -/
theorem field_of_computeFeeAndAdjustAmount (hrate : store.ld2sdRate.toNat = 10 ^ (d - sd))
    (hle : sd ≤ d) {env : Env} {mint : Mint} {feeBps : Option U16}
    {amountLd sent received fee amountSd : U64}
    (hcompute : computeFeeAndAdjustAmount env amountLd store mint feeBps =
      .ok (sent, received, fee))
    (hsd : store.ld2sd received = .ok amountSd) :
    SameQuantity (amountSd.toNat * 10 ^ 8) 18 received.toNat d ↔ sd = 10 ∨ received.toNat = 0 := by
  obtain ⟨hpos, hquotient⟩ := OFTStore.ld2sd_eq_ok.mp hsd
  have hwhole : amountSd.toNat * 10 ^ (d - sd) = received.toNat := by
    rw [← hrate, hquotient]
    exact Nat.div_mul_cancel (ld2sdRate_dvd_received hcompute)
  have hzero : amountSd.toNat = 0 ↔ received.toNat = 0 := by
    rw [← hwhole, Nat.mul_eq_zero, ← hrate]
    omega
  rw [← hzero, ← hwhole, sameQuantity_scaled_iff]
  -- the exponents make up for the decimals at ten shared decimals
  exact or_congr_left ⟨fun h => by omega, fun h => by omega⟩

/-- The amount credited for a field, and what it means. -/
theorem amountLd_of_field (hrate : store.ld2sdRate.toNat = 10 ^ (d - sd)) {message : Bytes}
    {field : ℕ} {amountSd amountLd : U64} (hfield : MsgCodec.amountField message = some field)
    (hbound : field ≤ 2 ^ 64 * 10 ^ 8 - 1) (hsd : MsgCodec.amountSd message = some amountSd)
    (hld : store.sd2ld amountSd = .ok amountLd) :
    amountLd.toNat = field / 10 ^ 8 * 10 ^ (d - sd) := by
  obtain ⟨field', hfield', hvalue⟩ := MsgCodec.amountSd_eq_some hsd
  obtain rfl : field = field' := Option.some.inj (hfield.symm.trans hfield')
  rw [OFTStore.sd2ld_eq_ok.mp hld, hvalue, hrate, (kept_eq_iff field).mpr (by omega)]

/-- **Out.** The field is exact for ten shared decimals and for no others. -/
theorem outboundExact_iff (hrate : store.ld2sdRate.toNat = 10 ^ (d - sd)) {mint : Mint}
    (hmint : mint.decimals.toNat = d) (hle : sd ≤ d) : OutboundExact store d ↔ sd = 10 := by
  constructor
  · intro h
    have hpos : 0 < store.ld2sdRate.toNat := hrate ▸ Nat.pow_pos (by decide)
    -- without a transfer fee, one shared unit is an amount that a send computes
    have hcompute := computeFeeAndAdjustAmount_unit
      (m := { mint with transferFeeConfig := none }) sampleEnv hpos rfl
    have hsd : store.ld2sd store.ld2sdRate = .ok 1#64 :=
      OFTStore.ld2sd_eq_ok.mpr ⟨hpos, (Nat.div_self hpos).symm⟩
    have hsame := h _ { mint with transferFeeConfig := none } _ _ _ _ _ _ zero32 zero32 none _
      hmint hcompute hsd (MsgCodec.amountField_encode ..)
    rw [field_of_computeFeeAndAdjustAmount hrate hle hcompute hsd] at hsame
    exact hsame.resolve_right hpos.ne'
  · intro hten env mint feeBps amountLd sent received fee amountSd toAddress sender composeMsg
      field _ hcompute hsd hfield
    rw [MsgCodec.amountField_encode, Option.some.injEq] at hfield
    rw [← hfield, field_of_computeFeeAndAdjustAmount hrate hle hcompute hsd]
    exact Or.inl hten

/-- **In.** The amount credited is exact for ten shared decimals and for no others. -/
theorem inboundExact_iff (hrate : store.ld2sdRate.toNat = 10 ^ (d - sd)) (hle : sd ≤ d) :
    InboundExact store d sd ↔ sd = 10 := by
  constructor
  · intro h
    -- the field of one shared unit
    have hfield := MsgCodec.amountField_encode zero32 1#64 zero32 none
    obtain ⟨amountSd, hsd⟩ := MsgCodec.exists_amountSd hfield
    obtain ⟨field, hfield', hvalue⟩ := MsgCodec.amountSd_eq_some hsd
    obtain rfl := Option.some.inj (hfield.symm.trans hfield')
    have hone : amountSd.toNat = 1 := hvalue
    have hld : store.sd2ld amountSd = .ok store.ld2sdRate := by
      rw [OFTStore.sd2ld_eq_ok, hone, one_mul]
    have hrounded := h _ _ _ _ hfield (by decide) hsd hld
    rw [hrate] at hrounded
    have hexp : 8 + d = d - sd + 18 := eq_of_roundedDown hrounded
    omega
  · intro hten message field amountSd amountLd hfield hbound hsd hld
    rw [amountLd_of_field hrate hfield hbound hsd hld]
    exact roundedDown_of_eq (by omega) field

end Law

section Instructions

variable {P : Platform} {env : Env} {w w' : OFTWorld} {es : List OFTEffect} {store : OFTStore}
  {d sd : ℕ}

/-- **The message of a send** has a field that is exact for the amount received precisely for
ten shared decimals, or when nothing is received. -/
theorem Send.field_of_apply (hrate : store.ld2sdRate.toNat = 10 ^ (d - sd)) (hle : sd ≤ d)
    {ctx : Send} {params : SendParams} {receipt : MessagingReceipt} {oftReceipt : OFTReceipt}
    (hstore : w.data ctx.oftStore.pubkey = some (.oftStore store))
    (h : ctx.apply P env w params = .ok (w', es, receipt, oftReceipt)) :
    ∃ message field, es.filterMap Effect.sent? = [message] ∧
      MsgCodec.amountField message.message = some field ∧
      (SameQuantity field 18 oftReceipt.amountReceivedLd.toNat d ↔
        sd = 10 ∨ oftReceipt.amountReceivedLd.toNat = 0) := by
  obtain ⟨tr⟩ := nonempty_trace h
  obtain rfl : store = tr.store := oftStore_unique hstore tr.accounts.store_data
  obtain ⟨-, ⟨-, hrate', -⟩, -⟩ := frame_of_takeTokens tr.tokens
  -- taking the tokens does not change the rate
  have hsd : tr.store.ld2sd oftReceipt.amountReceivedLd = .ok tr.amountSd := by
    rw [OFTStore.ld2sd, ← hrate', ← OFTStore.ld2sd]
    exact tr.shared
  exact ⟨_, tr.amountSd.toNat * 10 ^ 8, tr.sent_eq, MsgCodec.amountField_encode ..,
    field_of_computeFeeAndAdjustAmount hrate hle tr.amounts hsd⟩

/-- **The amount of a delivery** is the quantity of the field for ten shared decimals. -/
theorem LzReceive.roundedDown_of_apply (hrate : store.ld2sdRate.toNat = 10 ^ (d - sd))
    (hle : sd ≤ d) (hten : sd = 10) {ctx : LzReceive} {params : LzReceiveParams} {field : ℕ}
    (hstore : w.data ctx.oftStore.pubkey = some (.oftStore store))
    (hfield : MsgCodec.amountField params.message = some field)
    (hbound : field ≤ 2 ^ 64 * 10 ^ 8 - 1) (h : ctx.apply P env w params = .ok (w', es)) :
    ∃ amount, Releases w w' es ctx store amount ∧
      RoundedDown field 18 amount d (10 ^ (d - sd)) := by
  obtain ⟨store₁, amountSd, amountLd, hstore₁, hsd, hld, hreleases⟩ := releases_of_apply h
  obtain rfl := oftStore_unique hstore hstore₁
  have hexact := (inboundExact_iff hrate hle).mpr hten
  exact ⟨amountLd.toNat, hreleases, hexact _ _ _ _ hfield hbound hsd hld⟩

end Instructions

/-- **The wire amount.** Take a store created for a mint with `d` decimals and `sd` shared
decimals, whatever is configured later. What it writes and what it reads is exact in 18 decimals
if `sd` is ten and not otherwise. In every run after its creation a send that goes through
writes an exact field only for `sd = 10` or for nothing received; and for `sd = 10` a delivery
that goes through releases the quantity in its field. -/
theorem wire_exact_iff {P : Platform} {s s₁ : OFTState P} {env : Env} {ctx : InitOFT}
    {params : InitOFTParams} {es : List OFTEffect}
    (h : step P s (.call env (.initOFT ctx params)) = .ok (s₁, es)) :
    ∃ (mint : Mint) (store : OFTStore) (d sd : ℕ),
      s.world.mints ctx.tokenMint.pubkey = some mint ∧ mint.decimals.toNat = d ∧
      params.sharedDecimals.toNat = sd ∧ sd ≤ d ∧
      s₁.world.data ctx.oftStore.pubkey = some (.oftStore store) ∧
      store.ld2sdRate.toNat = 10 ^ (d - sd) ∧
      (∀ store', store.SameSetup store' →
        (OutboundExact store' d ↔ sd = 10) ∧ (InboundExact store' d sd ↔ sd = 10)) ∧
      ∀ (is : List Input) (env : Env) (w' : OFTWorld) (es : List OFTEffect),
        (∀ (c : Send) (p : SendParams) receipt (oftReceipt : OFTReceipt),
          c.oftStore.pubkey = ctx.oftStore.pubkey →
          c.apply P env (worldAfter s₁ is) p = .ok (w', es, receipt, oftReceipt) →
          ∃ message field, es.filterMap Effect.sent? = [message] ∧
            MsgCodec.amountField message.message = some field ∧
            (SameQuantity field 18 oftReceipt.amountReceivedLd.toNat d ↔
              sd = 10 ∨ oftReceipt.amountReceivedLd.toNat = 0)) ∧
        (sd = 10 → ∀ (c : LzReceive) (p : LzReceiveParams) field,
          c.oftStore.pubkey = ctx.oftStore.pubkey →
          MsgCodec.amountField p.message = some field → field ≤ 2 ^ 64 * 10 ^ 8 - 1 →
          c.apply P env (worldAfter s₁ is) p = .ok (w', es) →
          ∃ store' amount, store.SameSetup store' ∧
            Releases (worldAfter s₁ is) w' es c store' amount ∧
            RoundedDown field 18 amount d (10 ^ (d - sd))) := by
  obtain ⟨-, hexec⟩ := Instruction.invoke_eq_ok.mp (step_call_eq_ok.mp h)
  obtain ⟨tr⟩ := InitOFT.nonempty_trace hexec
  have hle : params.sharedDecimals.toNat ≤ tr.mint.decimals.toNat := tr.decimals_le
  have hrate : tr.ld2sdRate.toNat = 10 ^ (tr.mint.decimals.toNat -
      params.sharedDecimals.toNat) := by
    rw [tr.rate_eq, UInt8.toNat_sub_of_le _ _ tr.decimals_le]
  refine ⟨tr.mint, _, _, _, tr.mint_data, rfl, rfl, hle, tr.store_written, hrate, ?_, ?_⟩
  · rintro store' ⟨-, hrate', -⟩
    rw [← show store'.ld2sdRate = tr.ld2sdRate from hrate'] at hrate
    exact ⟨outboundExact_iff hrate rfl hle, inboundExact_iff hrate hle⟩
  · intro is env' w' es'
    -- no step changes the rate the store was created with
    obtain ⟨store', hstore', hsetup⟩ := sameSetup_run tr.store_written is
    have hrate' : store'.ld2sdRate.toNat = 10 ^ (tr.mint.decimals.toNat -
        params.sharedDecimals.toNat) := by
      rw [hsetup.2.1]
      exact hrate
    constructor
    · intro c p receipt oftReceipt hkey happly
      exact Send.field_of_apply hrate' hle (hkey ▸ hstore') happly
    · intro hten c p field hkey hfield hbound happly
      obtain ⟨amount, hreleases, hrounded⟩ :=
        LzReceive.roundedDown_of_apply hrate' hle hten (hkey ▸ hstore') hfield hbound happly
      exact ⟨store', amount, hsetup, hreleases, hrounded⟩

/-- In the sample deployment a send of 990030000 with 10 decimals is told to the other side as
9900300000000 with 18 decimals. -/
theorem wire_amount_scaled :
    (sampleSend.apply samplePlatform sampleEnv (worldAfter sampleFresh sampleSetup)
        sampleSendParams).map (fun r =>
          ((r.2.1.filterMap Effect.sent?).map fun m => MsgCodec.amountField m.message,
            r.2.2.2.amountReceivedLd)) = .ok ([some 9900300000000], 990030000#64) ∧
      ¬SameQuantity 9900300000000 18 990030000 10 := by
  rw [SameQuantity]
  decide +kernel

/-- A store with ten shared decimals writes and reads exact amounts. -/
theorem wire_exact_iff_ten :
    ∃ s₁ es store, step samplePlatform sampleFresh (.call sampleEnv (.initOFT sampleInit
        { sampleInitParams with sharedDecimals := 10 })) = .ok (s₁, es) ∧
      s₁.world.data (sampleKey 1) = some (.oftStore store) ∧
      OutboundExact store 10 ∧ InboundExact store 10 10 := by
  obtain ⟨⟨s₁, es⟩, hstep⟩ := Except.exists_of_isOk (x := step samplePlatform sampleFresh
    (.call sampleEnv (.initOFT sampleInit { sampleInitParams with sharedDecimals := 10 })))
    (by decide +kernel)
  obtain ⟨mint, store, d, sd, hmint, rfl, rfl, -, hstore, -, hexact, -⟩ := wire_exact_iff hstep
  obtain rfl : sampleMintState = mint := Option.some.inj hmint
  obtain ⟨hout, hin⟩ := hexact store (.refl store)
  exact ⟨s₁, es, store, hstep, hstore, hout.mpr rfl, hin.mpr rfl⟩

end Oft
