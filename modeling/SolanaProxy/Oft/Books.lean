import SolanaProxy.Oft.Changes
import SolanaProxy.Solana.TokenInterface

/-!
# The books and the wire

What the messages of a store say, in local decimals, against what its books say. The amounts of
a transfer go through two divisions and two multiplications on their way: dust is dropped, the
rest is divided by the rate and scaled into the field of the message, and the other side undoes
both. All of it is exact, since what is received is made of whole shared units
(`Send.Trace.messageLd_eq`).

So a send puts on the books of its store what its message says and a delivery takes off what its
message says (`Instruction.booked`), and both add up over a run: an adapter has locked what went
out less what came in, and the supply of the mint of a native OFT has moved by it
(`books_balance`).
-/

namespace Oft

open Solana

/-- The amount a message names, in the local decimals of a store. -/
def messageLd (store : OFTStore) (message : Bytes) : Option U64 := do
  let amountSd ← MsgCodec.amountSd message
  (store.sd2ld amountSd).toOption

/-- The amount of a message as a number, zero if it names none. -/
def wireLd (store : OFTStore) (message : Bytes) : ℕ := (messageLd store message).elim 0 (·.toNat)

/-- What the messages dispatched by an entry of a history name, if it is a send of the store at
`k`. -/
def dispatchedLd (k : Pubkey) (store : OFTStore) : Input × List OFTEffect → ℕ
  | (.call _ (.send ctx _), es) =>
    if ctx.oftStore.pubkey = k then
      ((es.filterMap Effect.sent?).map fun m => wireLd store m.message).sum
    else 0
  | _ => 0

/-- What the message processed by an entry names, if it is a delivery to the store at `k`. -/
def processedLd (k : Pubkey) (store : OFTStore) : Input × List OFTEffect → ℕ
  | (.call _ (.lzReceive ctx params), _) =>
    if ctx.oftStore.pubkey = k then wireLd store params.message else 0
  | _ => 0

/-- What a history dispatches for the store at `k` in all. -/
def outLd (k : Pubkey) (store : OFTStore) (h : List (Input × List OFTEffect)) : ℕ :=
  (h.map (dispatchedLd k store)).sum

/-- What a history processes for the store at `k` in all. -/
def inLd (k : Pubkey) (store : OFTStore) (h : List (Input × List OFTEffect)) : ℕ :=
  (h.map (processedLd k store)).sum

/-- The input is a transfer of the store at `k`. -/
def Input.OfStore (k : Pubkey) : Input → Prop
  | .call _ i => i.OfStore k
  | .outside .. => False

instance (k : Pubkey) : DecidablePred (Input.OfStore k)
  | .call _ (.send ctx _) => inferInstanceAs (Decidable (ctx.oftStore.pubkey = k))
  | .call _ (.lzReceive ctx _) => inferInstanceAs (Decidable (ctx.oftStore.pubkey = k))
  | .call _ (.initOFT ..) => inferInstanceAs (Decidable False)
  | .call _ (.setOFTConfig ..) => inferInstanceAs (Decidable False)
  | .call _ (.setPause ..) => inferInstanceAs (Decidable False)
  | .call _ (.setPeerConfig ..) => inferInstanceAs (Decidable False)
  | .call _ (.withdrawFee ..) => inferInstanceAs (Decidable False)
  | .outside .. => inferInstanceAs (Decidable False)

/-- Nobody else mints or burns in a run: what is no transfer of the store at `k` leaves the
supply of the mint alone. -/
def SoleIssuer {P : Platform} (k mint : Pubkey) (s : OFTState P) (is : List Input) : Prop :=
  ∀ t ∈ Machine.transitions (step P) s is, ¬t.2.1.OfStore k →
    (Machine.next (step P) t.1 t.2.1).world.supply mint = t.1.world.supply mint

/-! ### Messages -/

section Messages

variable {P : Platform} {env : Env} {w w' : OFTWorld} {es : List OFTEffect}
  {store store' : OFTStore} {message : Bytes}

theorem messageLd_eq_some {a : U64} :
    messageLd store message = some a ↔
      ∃ amountSd, MsgCodec.amountSd message = some amountSd ∧ store.sd2ld amountSd = .ok a := by
  simp only [messageLd, Option.bind_eq_bind, Option.bind_eq_some_iff, Except.toOption_eq_some]

/-- Only the rate of a store matters to what a message names. -/
theorem messageLd_of_sameSetup (h : store.SameSetup store') (message : Bytes) :
    messageLd store' message = messageLd store message := by
  obtain ⟨-, hrate, -⟩ := h
  simp only [messageLd, OFTStore.sd2ld, hrate]

theorem wireLd_eq {a : U64} (h : messageLd store message = some a) :
    wireLd store message = a.toNat := by
  rw [wireLd, h, Option.elim_some]

/-- **Out.** The message of a send names the amount received, and there is no dust in it. -/
theorem Send.Trace.messageLd_eq {ctx : Send} {params : SendParams} {receipt : OFTReceipt}
    (t : Trace P env w ctx params w' es receipt) :
    messageLd t.store (ctx.sendParams params t.limited t.amountSd t.options).message =
      some receipt.amountReceivedLd := by
  obtain ⟨-, ⟨-, hrate, -⟩, -⟩ := frame_of_takeTokens t.tokens
  obtain ⟨-, hshared⟩ := OFTStore.ld2sd_eq_ok.mp t.shared
  rw [hrate] at hshared
  have hwhole : t.store.sd2ld t.amountSd = .ok receipt.amountReceivedLd := by
    rw [OFTStore.sd2ld_eq_ok, hshared]
    exact (Nat.div_mul_cancel (ld2sdRate_dvd_received t.amounts)).symm
  exact messageLd_eq_some.mpr ⟨t.amountSd, MsgCodec.amountSd_encode .., hwhole⟩

/-- **In.** The message of a delivery names the amount released. -/
theorem LzReceive.Trace.messageLd_eq {ctx : LzReceive} {params : LzReceiveParams}
    (t : Trace P env w ctx params w' es) :
    messageLd t.store params.message = some t.amountLd :=
  messageLd_eq_some.mpr ⟨t.amountSd, t.shared, t.local_eq⟩

end Messages

/-! ### One instruction -/

/-- The books of a store and the supply of its mint after an amount went out and an amount came
in. -/
structure Booked (w w' : OFTWorld) (store store' : OFTStore) (out in' : ℕ) : Prop where
  adapter : store.oftType = .adapter →
    store'.tvlLd.toNat + in' = store.tvlLd.toNat + out
  native : store.oftType = .native →
    w'.supply store.tokenMint + out = w.supply store.tokenMint + in'

section Instructions

variable {P : Platform} {env : Env} {w w' : OFTWorld} {es : List OFTEffect}
  {store store' : OFTStore} {k : Pubkey} {i : Instruction}

/-- A send puts the amount received on the books, or takes it out of the supply. -/
theorem Send.Trace.booked {ctx : Send} {params : SendParams} {receipt : OFTReceipt}
    (t : Trace P env w ctx params w' es receipt) :
    Booked w w' t.store t.store' receipt.amountReceivedLd.toNat 0 := by
  refine ⟨fun htype => ?_, fun htype => ?_⟩
  · obtain ⟨tvlLd, m, htvl, hstore, -⟩ := takeTokens_adapter htype t.tokens
    rw [hstore]
    exact htvl
  -- of a native token the fee stays in circulation, and the rest of what was sent is burnt
  · obtain ⟨-, burnt, hburnt, w₁, hburn, hrest⟩ := takeTokens_native htype t.tokens
    obtain ⟨hsum, -⟩ := of_computeFeeAndAdjustAmount_native htype t.amounts
    obtain ⟨-, -, hmint⟩ := loadStoreMint_eq_ok.mp t.accounts.mint_loaded
    have hmints : w'.mints = w₁.mints := by
      rcases hrest with ⟨htaken, -⟩ | ⟨⟨m, htransfer⟩, -⟩
      · rw [t.mints_eq, htaken]
      · rw [t.mints_eq, (World.frame_of_transferTokens htransfer).2.2]
    have hsupply : w₁.supply ctx.tokenMint.pubkey + burnt.toNat =
        w.supply ctx.tokenMint.pubkey := World.supply_of_burnTokens hburn
    rw [← hmint, World.supply_of_mints_eq hmints]
    omega

/-- A delivery takes the amount off the books, or puts it into the supply. -/
theorem LzReceive.Trace.booked {ctx : LzReceive} {params : LzReceiveParams}
    (t : Trace P env w ctx params w' es) : Booked w w' t.store t.store' 0 t.amountLd.toNat := by
  refine ⟨fun htype => ?_, fun htype => ?_⟩
  · obtain ⟨tvlLd, m, htvl, hstore, -⟩ := releaseTokens_adapter htype t.tokens
    rw [hstore]
    exact htvl
  · obtain ⟨-, hminted, -⟩ := releaseTokens_native htype t.tokens
    obtain ⟨-, -, hmint⟩ := loadStoreMint_eq_ok.mp t.accounts.mint_loaded
    obtain ⟨-, hloaded⟩ := exists_token_of_initAssociatedIfNeeded t.accounts.dest_created
    have hsupply := World.supply_of_mintTokens hminted
    have hbefore : World.supply { t.loaded with lamports := t.lamports } ctx.tokenMint.pubkey =
        w.supply ctx.tokenMint.pubkey := World.supply_of_mints_eq hloaded _
    rw [← hmint, World.supply_of_mints_eq t.mints_eq, hsupply, hbefore]
    rfl

/-- What is no transfer of a store leaves its value locked alone. -/
theorem StoreChange.tvlLd_eq (h : StoreChange P env w k i (some store) (some store'))
    (hother : ¬i.OfStore k) : store'.tvlLd = store.tvlLd := by
  cases h with
  | same => rfl
  | pause => rfl
  | transfer hof => exact (hother hof).elim
  | @config ctx params _ _ w₁ es₁ _ _ _ hset =>
    obtain ⟨-, htvl, -⟩ := SetOFTConfig.of_set_eq_ok hset
    exact htvl

/-- What is no transfer of a store dispatches and processes nothing for it. -/
theorem wire_of_other (env : Env) (es : List OFTEffect) (store : OFTStore)
    (hother : ¬i.OfStore k) :
    dispatchedLd k store (.call env i, es) = 0 ∧ processedLd k store (.call env i, es) = 0 := by
  cases i with
  | send ctx params => exact ⟨if_neg hother, rfl⟩
  | lzReceive ctx params => exact ⟨rfl, if_neg hother⟩
  | _ => exact ⟨rfl, rfl⟩

/-- **One instruction** books what its messages say, provided that nothing but the transfers of
the store moves the supply of its mint. -/
theorem Instruction.booked (h : i.execute P env w = .ok (w', es))
    (hstore : w.data k = some (.oftStore store)) (hstore' : w'.data k = some (.oftStore store'))
    (hsupply : store.oftType = .native → ¬i.OfStore k →
      w'.supply store.tokenMint = w.supply store.tokenMint) :
    Booked w w' store store' (dispatchedLd k store (.call env i, es))
      (processedLd k store (.call env i, es)) := by
  by_cases hof : i.OfStore k
  · cases i with
    | send ctx params =>
      obtain rfl : ctx.oftStore.pubkey = k := hof
      obtain ⟨receipt, oftReceipt, hc⟩ := execute_send h
      obtain ⟨t⟩ := Send.nonempty_trace hc
      obtain rfl := oftStore_unique hstore t.accounts.store_data
      obtain rfl := oftStore_unique hstore' t.store_written
      have hsent : dispatchedLd ctx.oftStore.pubkey t.store (.call env (.send ctx params), es) =
          oftReceipt.amountReceivedLd.toNat := by
        rw [dispatchedLd, if_pos rfl, t.sent_eq, List.map_singleton, List.sum_singleton,
          wireLd_eq t.messageLd_eq]
      rw [hsent]
      exact t.booked
    | lzReceive ctx params =>
      obtain rfl : ctx.oftStore.pubkey = k := hof
      obtain ⟨t⟩ := LzReceive.nonempty_trace h
      obtain rfl := oftStore_unique hstore t.accounts.store_data
      obtain rfl := oftStore_unique hstore' t.store_written
      have hreceived : processedLd ctx.oftStore.pubkey t.store
          (.call env (.lzReceive ctx params), es) = t.amountLd.toNat := by
        rw [processedLd, if_pos rfl, wireLd_eq t.messageLd_eq]
      rw [hreceived]
      exact t.booked
    | _ => exact hof.elim
  -- no transfer of this store: nothing is on the wire, and nothing moves
  · have hchange := i.storeChange h k
    rw [World.load_eq_some.mpr hstore, World.load_eq_some.mpr hstore'] at hchange
    obtain ⟨hout, hin⟩ := wire_of_other env es store hof
    rw [hout, hin]
    refine ⟨fun _ => by rw [hchange.tvlLd_eq hof], fun htype => by rw [hsupply htype hof]⟩

end Instructions

/-! ### Runs -/

section Runs

variable {P : Platform} {s : OFTState P} {k : Pubkey} {store : OFTStore}

/-- What messages name depends on the setup of the store only. -/
theorem wire_of_sameSetup {store' : OFTStore} (h : store.SameSetup store') (k : Pubkey) :
    dispatchedLd k store' = dispatchedLd k store ∧ processedLd k store' = processedLd k store := by
  have hwire : wireLd store' = wireLd store := by
    funext message
    rw [wireLd, wireLd, messageLd_of_sameSetup h]
  constructor
  · funext e
    simp only [dispatchedLd, hwire]
  · funext e
    simp only [processedLd, hwire]

/-- The value locked that the store at `k` counts. -/
def tvlLdAt (k : Pubkey) (w : OFTWorld) : ℕ :=
  (w.load OFTStore.kind k).elim 0 fun store => store.tvlLd.toNat

theorem tvlLdAt_eq {w : OFTWorld} (h : w.data k = some (.oftStore store)) :
    tvlLdAt k w = store.tvlLd.toNat := by
  rw [tvlLdAt, World.load_eq_some.mpr h, Option.elim_some]

/-- A step of a run books what its messages say, in the decimals of the store at the start. -/
private theorem booked_of_transition (hstore : s.world.data k = some (.oftStore store))
    {is : List Input} {t : OFTState P × Input × List OFTEffect}
    (ht : t ∈ Machine.transitions (step P) s is) {s' : OFTState P}
    (hstep : step P t.1 t.2.1 = .ok (s', t.2.2))
    (hsupply : store.oftType = .native → ¬t.2.1.OfStore k →
      s'.world.supply store.tokenMint = t.1.world.supply store.tokenMint) :
    (store.oftType = .adapter →
      tvlLdAt k s'.world + processedLd k store t.2 =
        tvlLdAt k t.1.world + dispatchedLd k store t.2) ∧
    (store.oftType = .native →
      s'.world.supply store.tokenMint + dispatchedLd k store t.2 =
        t.1.world.supply store.tokenMint + processedLd k store t.2) := by
  -- the store is there before the step, with the setup it had at the start
  obtain ⟨is₁, is₂, -, -, hs₁, -⟩ := Machine.exists_of_mem_transitions ht
  obtain ⟨store₁, hstore₁, hsetup⟩ := sameSetup_run hstore is₁
  obtain ⟨htype, -, hmint, -⟩ := id hsetup
  rw [worldAfter, ← hs₁] at hstore₁
  obtain ⟨s₁, i, es⟩ := t
  cases i with
  | outside lamports tokens mints deposits =>
    obtain ⟨rfl, rfl⟩ := Prod.mk.inj (Except.ok.inj hstep)
    exact ⟨fun _ => rfl, fun hnative => hsupply hnative not_false⟩
  | call env i =>
    obtain ⟨-, hexec⟩ := Instruction.invoke_eq_ok.mp (step_call_eq_ok.mp hstep)
    obtain ⟨store₂, hstore₂, -⟩ := (i.writes hexec).sameSetup hstore₁
    have hbooked := i.booked hexec hstore₁ hstore₂ (by rw [htype, hmint]; exact hsupply)
    obtain ⟨hout, hin⟩ := wire_of_sameSetup hsetup k
    rw [hout, hin] at hbooked
    rw [tvlLdAt_eq hstore₁, tvlLdAt_eq hstore₂, ← htype, ← hmint]
    exact ⟨hbooked.adapter, hbooked.native⟩

/-- **Books and wire.** Take a run from a set-up of the store at `k`, and what its sends
dispatched and its deliveries processed in it, in local decimals.

* An adapter has locked what was dispatched less what was processed.
* A native OFT has nothing locked, and if nobody else mints or burns, the supply of its mint is
  the one at the start less what was dispatched and with what was processed.
* The message of a send names exactly the amount received, and the message of a delivery exactly
  the amount released.
-/
theorem books_balance {s s₁ : OFTState P} {env : Env} {ctx : InitOFT} {params : InitOFTParams}
    {es : List OFTEffect} (hinit : step P s (.call env (.initOFT ctx params)) = .ok (s₁, es))
    (is : List Input) :
    let k := ctx.oftStore.pubkey
    let mint := ctx.tokenMint.pubkey
    let w := worldAfter s₁ is
    let h := Machine.history (step P) s₁ is
    ∃ store, w.data k = some (.oftStore store) ∧
      (params.oftType = .adapter → store.tvlLd.toNat + inLd k store h = outLd k store h) ∧
      (params.oftType = .native → store.tvlLd = 0#64 ∧ (SoleIssuer k mint s₁ is →
        w.supply mint + outLd k store h = s₁.world.supply mint + inLd k store h)) ∧
      (∀ env' (ctx' : Send) params' w' es' receipt oftReceipt, ctx'.oftStore.pubkey = k →
        ctx'.apply P env' w params' = .ok (w', es', receipt, oftReceipt) →
        ∃ m, es'.filterMap Effect.sent? = [m] ∧
          messageLd store m.message = some oftReceipt.amountReceivedLd) ∧
      (∀ env' (ctx' : LzReceive) params' w' es', ctx'.oftStore.pubkey = k →
        ctx'.apply P env' w params' = .ok (w', es') →
        ∃ a, messageLd store params'.message = some a ∧ releasedLd es' = a.toNat) := by
  obtain ⟨-, hexec⟩ := Instruction.invoke_eq_ok.mp (step_call_eq_ok.mp hinit)
  obtain ⟨tr⟩ := InitOFT.nonempty_trace hexec
  obtain ⟨store, hstore, hsetup⟩ := sameSetup_run tr.store_written is
  obtain ⟨htype, -⟩ := id hsetup
  obtain ⟨hout, hin⟩ := wire_of_sameSetup hsetup ctx.oftStore.pubkey
  refine ⟨store, hstore, fun hadapter => ?_, fun hnative => ⟨?_, fun hsole => ?_⟩, ?_, ?_⟩
  -- the books of an adapter start at nothing locked
  · have hbooks : tvlLdAt ctx.oftStore.pubkey (worldAfter s₁ is) + _ = _ + _ :=
      Machine.history_books fun t ht s' hstep =>
        (booked_of_transition tr.store_written ht hstep
          fun h => nomatch h.symm.trans hadapter).1 hadapter
    rw [tvlLdAt_eq hstore, tvlLdAt_eq tr.store_written] at hbooks
    rw [outLd, inLd, hout, hin, hbooks]
    exact Nat.zero_add _
  · obtain ⟨-, -, hlocked⟩ := (Machine.run (step P) s₁ is).wellFormed.storeInOrder hstore
    exact hlocked (htype.trans hnative)
  · rw [outLd, inLd, hout, hin]
    refine Machine.history_books (f := fun s => s.world.supply ctx.tokenMint.pubkey)
      fun t ht s' hstep =>
        (booked_of_transition tr.store_written ht hstep fun _ hother => ?_).2 hnative
    have hnext := hsole t ht hother
    rwa [Machine.next_of_ok hstep] at hnext
  · intro env' ctx' params' w' es' receipt oftReceipt hk happly
    obtain ⟨t⟩ := Send.nonempty_trace happly
    obtain rfl := oftStore_unique (hk ▸ hstore) t.accounts.store_data
    exact ⟨_, t.sent_eq, t.messageLd_eq⟩
  · intro env' ctx' params' w' es' hk happly
    obtain ⟨t⟩ := LzReceive.nonempty_trace happly
    obtain rfl := oftStore_unique (hk ▸ hstore) t.accounts.store_data
    exact ⟨_, t.messageLd_eq, t.releasedLd_eq⟩

end Runs

/-- The sample before anything was called, with a mint that leaves the minting to the store. -/
def sampleUnissued : OFTState samplePlatform :=
  .fresh samplePlatform sampleFresh.world.lamports sampleFresh.world.tokens fun k =>
    if k = sampleMint then some { sampleMintState with mintAuthority := some (sampleKey 1) }
    else none

/-- The initialization of a native OFT. -/
def sampleNativeInit : Input :=
  .call sampleEnv (.initOFT sampleInit { sampleInitParams with oftType := .native })

/-- The deployment as a native OFT. -/
def sampleNative : OFTState samplePlatform :=
  Machine.next (step samplePlatform) sampleUnissued sampleNativeInit

/-- The rest of its set-up, a send of one tenth of a token, and a delivery of three shared units. -/
def sampleIssues : List Input :=
  sampleSetup.tail ++ [.call sampleEnv (.send sampleSend sampleSendParams),
    .call sampleEnv (.lzReceive
      { sampleLzReceive with mintAuthority := some ⟨sampleKey 1, false, false⟩ }
      (sampleReceiveParams 300000000#256))]

/-- As an adapter, the sample store has locked what the message of the sample send names. As a
native OFT, it has burnt what that message names and minted what the delivered one does: 995000000
and 30000 units. -/
theorem books_balance_sample :
    (∃ store, sampleLocked.world.data (sampleKey 1) = some (.oftStore store) ∧
      store.tvlLd.toNat + inLd (sampleKey 1) store (Machine.history (step samplePlatform)
        sampleFresh (sampleSetup ++ [.call sampleEnv (.send sampleSend sampleSendParams)])) =
      outLd (sampleKey 1) store (Machine.history (step samplePlatform) sampleFresh
        (sampleSetup ++ [.call sampleEnv (.send sampleSend sampleSendParams)]))) ∧
    ∃ store, (worldAfter sampleNative sampleIssues).data (sampleKey 1) = some (.oftStore store) ∧
      store.tvlLd = 0#64 ∧
      outLd (sampleKey 1) store (Machine.history (step samplePlatform) sampleNative sampleIssues) +
          30000 =
        inLd (sampleKey 1) store (Machine.history (step samplePlatform) sampleNative sampleIssues) +
          995000000 := by
  constructor
  · have hinit : (step samplePlatform sampleFresh
        (.call sampleEnv (.initOFT sampleInit sampleInitParams))).isOk = true := by decide +kernel
    obtain ⟨⟨s₁, es⟩, hstep⟩ := Except.exists_of_isOk hinit
    obtain ⟨store, hstore, hadapter, -⟩ := books_balance hstep
      (sampleSetup.tail ++ [.call sampleEnv (.send sampleSend sampleSendParams)])
    have hrun : sampleLocked = Machine.run (step samplePlatform) s₁
        (sampleSetup.tail ++ [.call sampleEnv (.send sampleSend sampleSendParams)]) := by
      rw [sampleLocked, sampleSetup, List.cons_append, Machine.run_cons, Machine.next_of_ok hstep]
      rfl
    refine ⟨store, hrun ▸ hstore, ?_⟩
    have hbooks := hadapter rfl
    rw [sampleSetup, List.cons_append, Machine.history_cons_of_ok hstep, outLd, inLd,
      List.map_cons, List.map_cons, List.sum_cons, List.sum_cons]
    exact (congrArg _ (Nat.zero_add _)).trans (hbooks.trans (Nat.zero_add _).symm)
  · have hinit : (step samplePlatform sampleUnissued sampleNativeInit).isOk = true := by
      decide +kernel
    obtain ⟨⟨s₁, es⟩, hstep⟩ := Except.exists_of_isOk hinit
    have hnext : sampleNative = s₁ := Machine.next_of_ok hstep
    have hsole : SoleIssuer (sampleKey 1) sampleMint sampleNative sampleIssues := by
      rw [SoleIssuer]
      decide +kernel
    have hsupply : sampleNative.world.supply sampleMint = 10 ^ 15 ∧
        (worldAfter sampleNative sampleIssues).supply sampleMint =
          10 ^ 15 - 995000000 + 30000 := by
      decide +kernel
    rw [hnext] at hsole hsupply ⊢
    obtain ⟨store, hstore, -, hnative, -⟩ := books_balance hstep sampleIssues
    obtain ⟨hlocked, hissued⟩ := hnative rfl
    refine ⟨store, hstore, hlocked, ?_⟩
    have hbooks : (worldAfter s₁ sampleIssues).supply sampleMint + outLd (sampleKey 1) store _ =
        s₁.world.supply sampleMint + inLd (sampleKey 1) store _ := hissued hsole
    rw [hsupply.1, hsupply.2] at hbooks
    omega

end Oft
