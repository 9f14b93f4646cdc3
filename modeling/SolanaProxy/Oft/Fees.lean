import SolanaProxy.Oft.Charges
import Mathlib.Algebra.BigOperators.Ring.Finset

/-!
# The fees of an OFT

What the escrow of a store holds beyond the value locked is the margin of its custody. A send adds
its fee to the margin, and only a withdrawal takes something off (`Instruction.accrues`). Nothing
is kept of the fees collected but in the balance of the escrow, so what the admin can withdraw is
what this adds up to over a run: all that was collected, less what was withdrawn
(`fees_withdrawable`).
-/

namespace Oft

open Solana Machine

/-- What the escrow gets of the fee of a send. An adapter takes it in on top of the amount received,
a native OFT has it transferred, less what the token program keeps of that. -/
def Send.collected (P : Platform) (env : Env) (w : OFTWorld) (ctx : Send) (params : SendParams) :
    Result OFTError ℕ := do
  let (store, peer, mint) ← ctx.tryAccounts P w params
  let (_, _, oftFeeLd) ← computeFeeAndAdjustAmount env params.amountLd store mint peer.feeBps
  match store.oftType with
  | .adapter => return oftFeeLd.toNat
  | .native => return oftFeeLd.toNat - mint.calculateFee env.epoch oftFeeLd.toNat

/-- What a transition of a run collects as fee of the store at `k`. -/
def collectedLd {P : Platform} (k : Pubkey) : OFTState P × Input × List OFTEffect → ℕ
  | (s, .call env (.send ctx params), _) =>
    if ctx.oftStore.pubkey = k then ((ctx.collected P env s.world params).toOption).getD 0 else 0
  | _ => 0

/-- What an entry of a history withdraws from the store at `k`. -/
def withdrawnLd (k : Pubkey) : Input × List OFTEffect → ℕ
  | (.call _ (.withdrawFee ctx params), _) =>
    if ctx.oftStore.pubkey = k then params.feeLd.toNat else 0
  | _ => 0

/-- The instruction withdraws from the store at `k`. -/
def Instruction.Withdraws (k : Pubkey) : Instruction → Prop
  | .withdrawFee ctx _ => ctx.oftStore.pubkey = k
  | _ => False

/-- From one world to the next the margin of the store at `k` has grown by what was collected at
least, less what was withdrawn. -/
def Accrues (w w' : OFTWorld) (k : Pubkey) (collected withdrawn : ℕ) : Prop :=
  ∀ store t, Escrows w k store t → ∃ store' t', Escrows w' k store' t' ∧
    (store.custody t).margin + collected ≤ (store'.custody t').margin + withdrawn

section Accrues

variable {w w' : OFTWorld} {k : Pubkey} {store store' : OFTStore} {t : TokenAccount}

/-- A margin grows where the value locked stays the same and the escrow is not debited. -/
theorem Escrows.accrues_of_undebited (h : Escrows w k store t)
    (hdata : w'.data k = some (.oftStore store')) (htvl : store'.tvlLd = store.tvlLd)
    (hescrow : store'.tokenEscrow = store.tokenEscrow)
    (htokens : w.Undebited w' store.tokenEscrow) : ∃ store' t', Escrows w' k store' t' ∧
      (store.custody t).margin + (0 : ℕ) ≤ (store'.custody t').margin + (0 : ℕ) := by
  obtain ⟨amount, hle, hamount⟩ := htokens t h.tokens
  refine ⟨store', { t with amount := amount }, ⟨hdata, by rw [hescrow, hamount], h.owner⟩, ?_⟩
  simp only [Custody.margin, OFTStore.custody, htvl]
  omega

/-- Nothing outside debits an escrow. -/
theorem Escrows.undebited_outside (h : Escrows w k store t) (lamports : Pubkey → ℕ)
    (tokens : Pubkey → Option TokenAccount) (mints : Pubkey → Option Mint)
    (deposits : Pubkey → ℕ) :
    w.Undebited ⟨w.data, lamports, outsideTokens w tokens deposits, mints⟩ store.tokenEscrow := by
  intro t' ht'
  obtain rfl := Option.some.inj (h.tokens.symm.trans ht')
  -- the owner of the escrow is an account of the program
  have howned : ¬w.data t.owner = none := by
    rw [h.owner, h.data]
    exact Option.some_ne_none _
  refine ⟨t.amount + deposits store.tokenEscrow, Nat.le_add_right _ _, ?_⟩
  simp only [outsideTokens, h.tokens, if_neg howned]

end Accrues

/-! ### One instruction -/

section Instructions

variable {P : Platform} {env : Env} {w w' : OFTWorld} {es : List OFTEffect} {k : Pubkey}
  {i : Instruction}

/-- **The escrow** is debited by the transfers of its store, and by withdrawals. -/
theorem Instruction.undebited_escrow {store : OFTStore} {t : TokenAccount}
    (ht : Escrows w k store t) (hwithdraw : ¬i.Withdraws k) (hother : ¬i.OfStore k)
    (h : i.invoke P env w = .ok (w', es)) : w.Undebited w' store.tokenEscrow := by
  obtain ⟨hsigners, hexec⟩ := Instruction.invoke_eq_ok.mp h
  refine Instruction.undebited ht.tokens ?_ hexec
  rw [ht.owner]
  cases i with
  | send ctx params =>
    obtain ⟨receipt, oftReceipt, happly⟩ := Instruction.execute_send hexec
    obtain ⟨tr⟩ := Send.nonempty_trace happly
    rintro ⟨rfl, -⟩
    -- nobody signs for an account of the program
    cases (hsigners ctx.signer List.mem_cons_self tr.accounts.signer_signed).symm.trans ht.data
  | lzReceive ctx params => exact hother
  | withdrawFee ctx params => exact hwithdraw
  | _ => exact not_false

/-- What neither transfers tokens of the store nor withdraws takes nothing off the margin. -/
theorem Instruction.accrues_of_other (hwithdraw : ¬i.Withdraws k) (hother : ¬i.OfStore k)
    (h : i.invoke P env w = .ok (w', es)) : Accrues w w' k 0 0 := by
  intro store t ht
  obtain ⟨-, hexec⟩ := Instruction.invoke_eq_ok.mp h
  obtain ⟨store', hstore', -, -, -, hescrow, -⟩ := (i.writes hexec).sameSetup ht.data
  have hchange := i.storeChange hexec k
  rw [World.load_eq_some.mpr ht.data, World.load_eq_some.mpr hstore'] at hchange
  exact ht.accrues_of_undebited hstore' (hchange.tvlLd_eq hother) hescrow
    (Instruction.undebited_escrow ht hwithdraw hother h)

/-- A send reports what it collects. -/
theorem Send.Trace.collected_eq {ctx : Send} {params : SendParams} {receipt : OFTReceipt}
    (tr : Trace P env w ctx params w' es receipt) :
    ctx.collected P env w params = .ok (match tr.store.oftType with
      | .adapter => tr.fee.toNat
      | .native => tr.fee.toNat - tr.mint.calculateFee env.epoch tr.fee.toNat) := by
  simp only [collected, tryAccounts_eq_ok.mpr tr.accounts, tr.amounts, Except.ok_bind]
  cases tr.store.oftType <;> rfl

/-- The fee of a native OFT arrives in the escrow, less what the token program keeps of it. -/
theorem Send.tokens_escrow_of_native {ctx : Send} {store store' : OFTStore} {mint : Mint}
    {sent received fee : U64} (htype : store.oftType = .native)
    (hmint : w.mints ctx.tokenMint.pubkey = some mint)
    (hne : ctx.tokenSource.pubkey ≠ ctx.tokenEscrow.pubkey) {t : TokenAccount}
    (ht : w.tokens ctx.tokenEscrow.pubkey = some t)
    (h : takeTokens env w ctx store mint sent received fee = .ok (w', store', es)) :
    w'.tokens ctx.tokenEscrow.pubkey =
      some { t with amount := t.amount + (fee.toNat - mint.calculateFee env.epoch fee.toNat) } := by
  obtain ⟨burnt, w₁, -, hburn, hrest⟩ := takeTokens_native_cases htype h
  obtain ⟨s, -, hs, -⟩ := World.burnTokens_eq_some.mp hburn
  obtain ⟨-, htokens, hmint₁⟩ := World.tokens_of_burnTokens hs hburn
  have hescrow : w₁.tokens ctx.tokenEscrow.pubkey = some t := by
    rw [htokens, Function.update_of_ne hne.symm, ht]
  rcases hrest with ⟨hzero, rfl⟩ | ⟨m, hm, htransfer⟩
  · rw [hzero, Nat.zero_sub, Nat.add_zero]
    exact hescrow
  -- burning changes the supply of the mint and not its fee
  · obtain rfl := Option.some.inj ((hmint₁ mint hmint).symm.trans hm)
    exact World.tokens_dst_of_transferTokens hne hescrow htransfer

/-- **A send** adds to the margin what it collects. -/
theorem Send.accrues_of_trace {ctx : Send} {params : SendParams} {receipt : OFTReceipt}
    (hsigner : w.data ctx.signer.pubkey = none) (tr : Trace P env w ctx params w' es receipt) :
    Accrues w w' ctx.oftStore.pubkey ((ctx.collected P env w params).toOption.getD 0) 0 := by
  intro store t ht
  obtain rfl : store = tr.store := oftStore_unique ht.data tr.accounts.store_data
  obtain ⟨escrow, hescrow⟩ := tr.accounts.escrow_loaded
  obtain ⟨-, -, -, -, -, haddress⟩ := loadEscrow_eq_ok.mp hescrow
  obtain ⟨hmint, -⟩ := loadStoreMint_eq_ok.mp tr.accounts.mint_loaded
  have hne := source_ne_escrow hsigner tr
  have htoken := ht.tokens
  have hdata := tr.store_written
  rw [← haddress] at htoken
  rw [tr.collected_eq]
  cases htype : tr.store.oftType with
  | adapter =>
    obtain ⟨tvlLd, m, htvl, hstore, hm, htransfer, -⟩ := takeTokens_adapter htype tr.tokens
    obtain rfl : m = tr.mint := Option.some.inj (hm.symm.trans hmint)
    -- what arrives of the amount sent is the amount received and the fee
    obtain ⟨hsent, -⟩ := of_computeFeeAndAdjustAmount_adapter htype tr.amounts
    have hdst := World.tokens_dst_of_transferTokens hne htoken htransfer
    rw [hsent, haddress, ← tr.tokens_eq] at hdst
    rw [hstore] at hdata
    refine ⟨_, _, ⟨hdata, hdst, ht.owner⟩, ?_⟩
    simp only [Custody.margin, OFTStore.custody, htvl, Except.toOption, Option.getD_some]
    omega
  | native =>
    have hdst := tokens_escrow_of_native htype hmint hne htoken tr.tokens
    rw [haddress, ← tr.tokens_eq] at hdst
    rw [(takeTokens_native htype tr.tokens).1] at hdata
    refine ⟨_, _, ⟨hdata, hdst, ht.owner⟩, ?_⟩
    simp only [Custody.margin, OFTStore.custody, Except.toOption, Option.getD_some]
    omega

/-- **A delivery** takes off the escrow what it takes off the value locked, unless the escrow pays
itself. -/
theorem LzReceive.accrues_of_trace {ctx : LzReceive} {params : LzReceiveParams}
    (tr : Trace P env w ctx params w' es) : Accrues w w' ctx.oftStore.pubkey 0 0 := by
  intro store t ht
  obtain rfl : store = tr.store := oftStore_unique ht.data tr.accounts.store_data
  have hdata := tr.store_written
  cases htype : tr.store.oftType with
  | adapter =>
    obtain ⟨escrow, hescrow⟩ := tr.accounts.escrow_loaded
    obtain ⟨-, -, -, -, -, haddress⟩ := loadEscrow_eq_ok.mp hescrow
    obtain ⟨tvlLd, m, htvl, hstore, htransfer, -⟩ := releaseTokens_adapter htype tr.tokens
    have htoken := (escrows_loaded tr ht).tokens
    rw [← haddress] at htoken
    obtain ⟨hle, hsrc⟩ := World.tokens_src_of_transferTokens
      (w := { tr.loaded with lamports := tr.lamports }) htoken htransfer
    rw [haddress, ← tr.tokens_eq] at hsrc
    rw [hstore] at hdata
    refine ⟨_, _, ⟨hdata, hsrc, ht.owner⟩, ?_⟩
    simp only [Custody.margin, OFTStore.custody]
    split <;> omega
  | native =>
    rw [(releaseTokens_native htype tr.tokens).1] at hdata
    exact ht.accrues_of_undebited hdata rfl rfl (undebited_of_trace tr ht (.inr htype))

/-- **A withdrawal** takes off the margin what it asks for. -/
theorem WithdrawFee.accrues {ctx : WithdrawFee} {params : WithdrawFeeParams}
    (h : ctx.apply P env w params = .ok (w', es)) :
    Accrues w w' ctx.oftStore.pubkey 0 params.feeLd.toNat := by
  intro store t ht
  obtain ⟨store', mint, escrow, haccounts, -, -, m, htransfer⟩ := of_apply_eq_ok h
  obtain rfl : store = store' := oftStore_unique ht.data haccounts.store_data
  obtain ⟨-, -, -, -, -, haddress⟩ := loadEscrow_eq_ok.mp haccounts.escrow_loaded
  have htoken := ht.tokens
  rw [← haddress] at htoken
  obtain ⟨hle, hsrc⟩ := World.tokens_src_of_transferTokens htoken htransfer
  rw [haddress] at hsrc
  have hdata : w'.data = w.data := (World.frame_of_transferTokens htransfer).1
  refine ⟨store, _, ⟨by rw [hdata, ht.data], hsrc, ht.owner⟩, ?_⟩
  simp only [Custody.margin, OFTStore.custody]
  split <;> omega

end Instructions

/-! ### Runs -/

section Runs

variable {P : Platform} {s s' : OFTState P} {k : Pubkey}

/-- **One step** adds to the margin what it collects, less what it withdraws. -/
theorem accrues_of_step {i : Input} {es : List OFTEffect} (h : step P s i = .ok (s', es)) :
    Accrues s.world s'.world k (collectedLd k (s, i, es)) (withdrawnLd k (i, es)) := by
  cases i with
  | outside lamports tokens mints deposits =>
    obtain ⟨rfl, -⟩ := Prod.mk.inj (Except.ok.inj h)
    exact fun store t ht => ht.accrues_of_undebited ht.data rfl rfl
      (ht.undebited_outside lamports tokens mints deposits)
  | call env i =>
    have hcall := step_call_eq_ok.mp h
    obtain ⟨hsigners, hexec⟩ := Instruction.invoke_eq_ok.mp hcall
    cases i with
    | send ctx params =>
      rw [collectedLd]
      split
      case isTrue hk =>
        obtain rfl := hk
        obtain ⟨receipt, oftReceipt, happly⟩ := Instruction.execute_send hexec
        obtain ⟨tr⟩ := Send.nonempty_trace happly
        -- nobody signs for an account of the program
        have hkey : s.world.data ctx.signer.pubkey = none :=
          hsigners ctx.signer List.mem_cons_self tr.accounts.signer_signed
        exact Send.accrues_of_trace hkey tr
      case isFalse hother =>
        exact Instruction.accrues_of_other (i := .send ctx params) not_false hother hcall
    | lzReceive ctx params =>
      by_cases hk : ctx.oftStore.pubkey = k
      · obtain rfl := hk
        obtain ⟨tr⟩ := LzReceive.nonempty_trace hexec
        exact LzReceive.accrues_of_trace tr
      · exact Instruction.accrues_of_other (i := .lzReceive ctx params) not_false hk hcall
    | withdrawFee ctx params =>
      rw [withdrawnLd]
      split
      case isTrue hk =>
        obtain rfl := hk
        exact WithdrawFee.accrues hexec
      case isFalse hother =>
        exact Instruction.accrues_of_other (i := .withdrawFee ctx params) hother not_false hcall
    | initOFT ctx params =>
      exact Instruction.accrues_of_other (i := .initOFT ctx params) not_false not_false hcall
    | setOFTConfig ctx params =>
      exact Instruction.accrues_of_other (i := .setOFTConfig ctx params) not_false not_false hcall
    | setPause ctx params =>
      exact Instruction.accrues_of_other (i := .setPause ctx params) not_false not_false hcall
    | setPeerConfig ctx params =>
      exact Instruction.accrues_of_other (i := .setPeerConfig ctx params) not_false not_false hcall

/-- The margin of the store at `k`. -/
def marginAt (k : Pubkey) (w : OFTWorld) : ℤ :=
  (w.load OFTStore.kind k).elim 0 fun store =>
    (w.tokens store.tokenEscrow).elim 0 fun t => (store.custody t).margin

theorem Escrows.marginAt_eq {w : OFTWorld} {store : OFTStore} {t : TokenAccount}
    (h : Escrows w k store t) : marginAt k w = (store.custody t).margin := by
  rw [marginAt, World.load_eq_some.mpr h.data, Option.elim_some, h.tokens, Option.elim_some]

/-- A store keeps an escrow. -/
theorem exists_escrows_run {store : OFTStore} {t : TokenAccount} (ht : Escrows s.world k store t)
    (is : List Input) : ∃ store' t', Escrows (worldAfter s is) k store' t' := by
  refine run_invariant (P := fun s : OFTState P => ∃ store t, Escrows s.world k store t) ?_
    ⟨store, t, ht⟩ is
  rintro s i s' es ⟨store₁, t₁, ht₁⟩ hstep
  obtain ⟨store₂, t₂, ht₂, -⟩ := accrues_of_step hstep store₁ t₁ ht₁
  exact ⟨store₂, t₂, ht₂⟩

/-- **Run.** The margin has grown by at least all that was collected, less all that was
withdrawn. -/
theorem margin_run {store : OFTStore} {t : TokenAccount} (ht : Escrows s.world k store t)
    (is : List Input) :
    marginAt k s.world + ((transitions (step P) s is).map (collectedLd k)).sum ≤
      marginAt k (worldAfter s is) + ((history (step P) s is).map (withdrawnLd k)).sum := by
  have hbooks : marginAt k s.world +
      ((transitions (step P) s is).map fun x => (collectedLd k x : ℤ)).sum ≤
        marginAt k (worldAfter s is) +
          ((transitions (step P) s is).map fun x => (withdrawnLd k x.2 : ℤ)).sum := by
    refine run_books_le (f := fun s : OFTState P => marginAt k s.world) fun x hx s' hstep => ?_
    obtain ⟨is₁, is₂, -, -, hs₁, -⟩ := exists_of_mem_transitions hx
    obtain ⟨store₁, t₁, ht₁⟩ := exists_escrows_run ht is₁
    rw [worldAfter, ← hs₁] at ht₁
    obtain ⟨store₂, t₂, ht₂, hle⟩ := accrues_of_step hstep store₁ t₁ ht₁
    rw [ht₁.marginAt_eq, ht₂.marginAt_eq]
    exact hle
  rw [← map_transitions, List.map_map, Nat.cast_list_sum, Nat.cast_list_sum, List.map_map,
    List.map_map]
  exact hbooks

/-- **Fees.** Take the deployed program, a set-up of a store, and any run from there. What was
collected as fees of the store is in its escrow, beyond the value locked, but for what was
withdrawn. So as long as no more was withdrawn than was collected, a withdrawal of what is left
goes through, if its accounts are in order. -/
theorem fees_withdrawable {s₀ s₁ : OFTState P} (hs₀ : s₀.Fresh) (is₀ : List Input) {env : Env}
    {ctx : InitOFT} {params : InitOFTParams} {es : List OFTEffect}
    (hinit : step P (run (step P) s₀ is₀) (.call env (.initOFT ctx params)) = .ok (s₁, es))
    (is : List Input) :
    let k := ctx.oftStore.pubkey
    let w := worldAfter s₁ is
    let collected := ((transitions (step P) s₁ is).map (collectedLd k)).sum
    let withdrawn := ((history (step P) s₁ is).map (withdrawnLd k)).sum
    (∃ store t, Escrows w k store t ∧ store.tvlLd.toNat + collected ≤ t.amount + withdrawn) ∧
    ∀ (ctx' : WithdrawFee) params' r, ctx'.oftStore.pubkey = k →
      ctx'.tryAccounts P w = .ok r → params'.feeLd.toNat + withdrawn ≤ collected →
      ∀ env', ∃ w' es', ctx'.apply P env' w params' = .ok (w', es') := by
  intro k w collected withdrawn
  obtain ⟨-, hexec⟩ := Instruction.invoke_eq_ok.mp (step_call_eq_ok.mp hinit)
  obtain ⟨tr⟩ := InitOFT.nonempty_trace hexec
  -- the escrow is empty at the start, and nothing is locked
  have hempty : Escrows s₁.world k (ctx.store P params tr.ld2sdRate tr.bump)
      ⟨ctx.tokenProgram.pubkey, ctx.tokenMint.pubkey, k, 0⟩ := by
    refine ⟨tr.store_written, ?_, rfl⟩
    rw [tr.tokens_eq]
    exact Function.update_self ..
  have hstart : marginAt k s₁.world = 0 := hempty.marginAt_eq
  obtain ⟨store, t, ht⟩ := exists_escrows_run hempty is
  have hmargin : (collected : ℤ) ≤ (store.custody t).margin + withdrawn := by
    have hrun := margin_run hempty is
    rwa [hstart, ht.marginAt_eq, zero_add] at hrun
  refine ⟨⟨store, t, ht, ?_⟩, fun ctx' params' r hk haccounts hle env' => ?_⟩
  · simp only [Custody.margin, OFTStore.custody] at hmargin
    omega
  · obtain ⟨store', mint, escrow⟩ := r
    have hvalid := WithdrawFee.tryAccounts_eq_ok.mp haccounts
    obtain ⟨-, htoken, -, -, -, haddress⟩ := loadEscrow_eq_ok.mp hvalid.escrow_loaded
    obtain rfl : store' = store := oftStore_unique hvalid.store_data (hk ▸ ht.data)
    rw [haddress, ht.tokens] at htoken
    obtain rfl := Option.some.inj htoken
    have hsolvent : Solvent w := by
      have hrun := solvent_run hs₀ (is₀ ++ .call env (.initOFT ctx params) :: is)
      rwa [run_append, run_cons, next_of_ok hinit] at hrun
    have hsurplus : params'.feeLd.toNat ≤ (store'.custody t).surplus :=
      Custody.le_surplus (by omega)
    exact (WithdrawFee.exists_apply_iff hsolvent haccounts).mpr hsurplus

end Runs

/-- The sample store without any tokens. -/
def sampleEmpty : OFTState samplePlatform :=
  next (step samplePlatform) sampleFresh (.call sampleEnv (.initOFT sampleInit sampleInitParams))

/-- The rest of the sample's set-up, its send, and a withdrawal. -/
def sampleWithdrawn : List Input :=
  sampleSetup.tail ++ [.call sampleEnv (.send sampleSend sampleSendParams),
    .call sampleEnv (.withdrawFee sampleWithdraw ⟨970000#64⟩)]

/-- A part of the fee was withdrawn, and the rest can be. -/
theorem fees_withdrawable_sample :
    ((history (step samplePlatform) sampleEmpty sampleWithdrawn).map
      (withdrawnLd (sampleKey 1))).sum = 970000 ∧
    ∃ w' es, sampleWithdraw.apply samplePlatform sampleEnv (worldAfter sampleEmpty sampleWithdrawn)
      ⟨4000000#64⟩ = .ok (w', es) := by
  have hcollected : ((transitions (step samplePlatform) sampleEmpty sampleWithdrawn).map
      (collectedLd (sampleKey 1))).sum = 4970000 := by
    decide +kernel
  have hwithdrawn : ((history (step samplePlatform) sampleEmpty sampleWithdrawn).map
      (withdrawnLd (sampleKey 1))).sum = 970000 := by
    decide +kernel
  obtain ⟨r, haccounts⟩ := Except.exists_of_isOk
    (x := sampleWithdraw.tryAccounts samplePlatform (worldAfter sampleEmpty sampleWithdrawn))
    (by decide +kernel)
  obtain ⟨⟨s₁, es⟩, hinit⟩ := Except.exists_of_isOk
    (x := step samplePlatform sampleFresh
      (.call sampleEnv (.initOFT sampleInit sampleInitParams))) (by decide +kernel)
  obtain rfl : sampleEmpty = s₁ := next_of_ok hinit
  obtain ⟨-, hwithdraw⟩ := fees_withdrawable (show sampleFresh.Fresh from fun _ => rfl) [] hinit
    sampleWithdrawn
  have hleft : (4000000#64 : U64).toNat + ((history (step samplePlatform) sampleEmpty
      sampleWithdrawn).map (withdrawnLd (sampleKey 1))).sum ≤ ((transitions (step samplePlatform)
        sampleEmpty sampleWithdrawn).map (collectedLd (sampleKey 1))).sum := by
    rw [hcollected, hwithdrawn]
    decide
  exact ⟨hwithdrawn, hwithdraw sampleWithdraw _ r rfl haccounts hleft sampleEnv⟩

end Oft
