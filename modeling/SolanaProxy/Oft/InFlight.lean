import SolanaProxy.Oft.Backing
import SolanaProxy.Oft.Escrow

/-!
# What is in flight can be paid

A token with one adapter: the tokens are locked on its chain, and minted on all others. What native
OFTs have sent they had received before (`sent_le_received`), so what is in flight between the
stores is locked by the adapter (`in_flight_le_locked`), and a delivery to the adapter finds what it
releases (`in_flight_payable`).
-/

namespace Oft

open Solana Machine

variable {ι : Type} {S : Sites ι} {setup : ι → OFTStore}

/-- The rate of a store is positive. -/
theorem Mesh.SetUp.rate_pos {m : Mesh S} (hm : m.SetUp setup) (c : ι) :
    0 < (setup c).ld2sdRate.toNat := by
  obtain ⟨store, hstore, -, hrate, -⟩ := hm c
  rw [← hrate]
  exact ((m.oft c).wellFormed.storeInOrder hstore).ld2sdRate_pos

/-- The share of one message. -/
theorem le_inFlight {c : ι} {message : ClearParams} {l : List (ι × ClearParams)}
    (hmem : (c, message) ∈ l) (hstores : S.FromStore message ∧ message.receiver = S.store c)
    {recipient : ByteArr 32} (hrecipient : MsgCodec.sendTo message.message = some recipient)
    {amountSd : U64} (hamount : MsgCodec.amountSd message.message = some amountSd) :
    amountSd.toNat * (setup c).ld2sdRate.toNat ≤
      (setup c).ld2sdRate.toNat * inFlightSd S setup l := by
  have hread : transfer? S setup (c, message) =
      some (c, recipient, amountSd.toNat * (setup c).ld2sdRate.toNat) :=
    transfer?_eq_some hstores hrecipient hamount
  have hshare : amountSd.toNat * (setup c).ld2sdRate.toNat / (setup c).ld2sdRate.toNat ≤
      inFlightSd S setup l :=
    List.single_le_sum (fun _ _ => Nat.zero_le _) _
      (List.mem_map.mpr ⟨_, List.mem_filterMap.mpr ⟨_, hmem, hread⟩, rfl⟩)
  calc amountSd.toNat * (setup c).ld2sdRate.toNat
      = (setup c).ld2sdRate.toNat *
          (amountSd.toNat * (setup c).ld2sdRate.toNat / (setup c).ld2sdRate.toNat) :=
        (Nat.mul_div_cancel' (Nat.dvd_mul_left _ _)).symm
    _ ≤ (setup c).ld2sdRate.toNat * inFlightSd S setup l := Nat.mul_le_mul_left _ hshare

section Runs

variable [DecidableEq ι]

/-- A message that was sent from a store has an amount. -/
theorem exists_transfer_of_sent {oft : (c : ι) → OFTState (S.platform c)} {is : List (MeshInput ι)}
    {c : ι} {message : ClearParams}
    (hsent : (c, message) ∈ (run (Mesh.step S) (.start oft) is).wire.sent)
    (hfrom : S.FromStore message) :
    ∃ amountSd, MsgCodec.amountSd message.message = some amountSd := by
  rw [← (Mesh.agrees_run oft is).sent_eq, List.filterMap_flatMap, ← map_transitions,
    List.flatMap_map] at hsent
  obtain ⟨t, ht, hmem⟩ := List.mem_flatMap.mp hsent
  obtain ⟨_, _, m', -, -, hstep⟩ := exists_of_mem_transitions ht
  obtain hother | ⟨d, env, ctx, params, stamp, receipt, d', w', -, -, -, tr, heq⟩ :=
    Mesh.sent_cases hstep
  · exact (hother _ hmem hfrom).elim
  · have hmessage := heq ▸ hmem
    obtain ⟨-, rfl⟩ := Prod.mk.inj (List.mem_singleton.mp hmessage)
    exact ⟨tr.amountSd, MsgCodec.amountSd_encode ..⟩

/-- **A native OFT** sends what it has received, if it starts without supply. -/
theorem sent_le_received {oft : (c : ι) → OFTState (S.platform c)}
    (hset : (Mesh.start oft).SetUp setup) {is : List (MeshInput ι)}
    (hsole : SoleIssuers S setup oft is) {c : ι} (hnative : (setup c).oftType = .native)
    (hnone : (oft c).world.supply (setup c).tokenMint = 0) :
    ((history (Mesh.step S) (.start oft) is).map (sentSd S setup c)).sum ≤
      ((history (Mesh.step S) (.start oft) is).map (receivedSd S setup c)).sum := by
  have hbooks := (books_run hset hsole c).1 hnative
  rw [hnone, Nat.zero_add] at hbooks
  exact Nat.le_of_mul_le_mul_left (hbooks ▸ Nat.le_add_left _ _) (hset.rate_pos c)

/-- **What is in flight** is locked by the only adapter. -/
theorem in_flight_le_locked [Fintype ι] {oft : (c : ι) → OFTState (S.platform c)}
    (hset : (Mesh.start oft).SetUp setup) {is : List (MeshInput ι)}
    (hcollision : ¬Merkle.Collision S.hash (Mesh.payloads oft is))
    (hsole : SoleIssuers S setup oft is) {home : ι} (hadapter : (setup home).oftType = .adapter)
    (hnative : ∀ c, c ≠ home → (setup c).oftType = .native ∧
      (oft c).world.supply (setup c).tokenMint = 0)
    {l : List (ι × ClearParams)} (hl : l.Nodup)
    (hopen : ∀ x ∈ l, (run (Mesh.step S) (.start oft) is).wire.Open S.labels x) :
    (setup home).ld2sdRate.toNat * inFlightSd S setup l ≤
      tvlLdAt (S.store home) ((run (Mesh.step S) (.start oft) is).oft home).world +
        (setup home).ld2sdRate.toNat *
          ((history (Mesh.step S) (.start oft) is).map (foreignSd S setup)).sum := by
  have hsum := sum_received_le hset hcollision hl hopen
  rw [← Finset.add_sum_erase _ _ (Finset.mem_univ home),
    ← Finset.add_sum_erase _ _ (Finset.mem_univ home)] at hsum
  have hothers := Finset.sum_le_sum (s := Finset.univ.erase home) fun c hc =>
    sent_le_received hset hsole (hnative c (Finset.ne_of_mem_erase hc)).1
      (hnative c (Finset.ne_of_mem_erase hc)).2
  have hbooks := (books_run hset hsole home).2 hadapter
  have hhome : ((history (Mesh.step S) (.start oft) is).map (receivedSd S setup home)).sum +
      inFlightSd S setup l ≤
        ((history (Mesh.step S) (.start oft) is).map (sentSd S setup home)).sum +
          ((history (Mesh.step S) (.start oft) is).map (foreignSd S setup)).sum := by
    omega
  have hlocal := Nat.mul_le_mul_left (setup home).ld2sdRate.toNat hhome
  rw [Nat.mul_add, Nat.mul_add] at hlocal
  omega

/-- **What is in flight can be paid.** Take the stores of a token with one adapter, whose program
was deployed on an empty chain, and native OFTs without supply. Take any run of all programs and the
wire between them in which no two of the payloads of messages to a chain have one hash, nobody else
mints or burns the tokens of the native OFTs, and nothing is received for messages from elsewhere.
Then:

* what is in flight between the stores, over all chains, is locked by the adapter;
* a delivery to the adapter of a message in flight finds what it releases: its amount does not
  overflow, the value locked covers it, and the escrow pays it. -/
theorem in_flight_payable [Fintype ι] (S : Sites ι) (setup : ι → OFTStore)
    (oft : (c : ι) → OFTState (S.platform c)) (hset : (Mesh.start oft).SetUp setup)
    (is : List (MeshInput ι)) (hcollision : ¬Merkle.Collision S.hash (Mesh.payloads oft is))
    (hsole : SoleIssuers S setup oft is) (home : ι) (hadapter : (setup home).oftType = .adapter)
    (hnative : ∀ c, c ≠ home → (setup c).oftType = .native ∧
      (oft c).world.supply (setup c).tokenMint = 0)
    (hforeign : ∀ e ∈ history (Mesh.step S) (.start oft) is, foreignSd S setup e = 0)
    {s₀ : OFTState (S.platform home)} (hs₀ : s₀.Fresh) {is₀ : List Input}
    (hreached : oft home = run (Oft.step (S.platform home)) s₀ is₀)
    {l : List (ι × ClearParams)} (hl : l.Nodup)
    (hopen : ∀ x ∈ l, (run (Mesh.step S) (.start oft) is).wire.Open S.labels x) :
    let w := ((run (Mesh.step S) (.start oft) is).oft home).world
    (setup home).ld2sdRate.toNat * inFlightSd S setup l ≤ tvlLdAt (S.store home) w ∧
      ∀ (ctx : LzReceive) params, (home, ctx.clearParams params) ∈ l →
        S.FromStore (ctx.clearParams params) → ctx.oftStore.pubkey = S.store home →
        ∀ w' store peer mint,
          ctx.tryAccounts (S.platform home) w params = .ok (w', store, peer, mint) →
          ∃ amountSd amountLd, MsgCodec.amountSd params.message = some amountSd ∧
            store.sd2ld amountSd = .ok amountLd ∧ ∀ env lamports, ∃ r,
              ctx.releaseTokens env { w' with lamports := lamports } store mint amountLd =
                .ok r := by
  intro w
  have hnone : ((history (Mesh.step S) (.start oft) is).map (foreignSd S setup)).sum = 0 := by
    rw [List.sum_eq_zero_iff]
    intro a ha
    obtain ⟨e, he, rfl⟩ := List.mem_map.mp ha
    exact hforeign e he
  have hlocked := in_flight_le_locked hset hcollision hsole hadapter hnative hl hopen
  rw [hnone, Nat.mul_zero, Nat.add_zero] at hlocked
  refine ⟨hlocked, fun ctx params hmem hfrom hk w' store peer mint haccounts => ?_⟩
  have hvalid := LzReceive.tryAccounts_eq_ok.mp haccounts
  obtain ⟨amountSd, hamount⟩ := exists_transfer_of_sent (hopen _ hmem).1 hfrom
  -- the amount is part of what is in flight, and so of the value locked
  have hshare : amountSd.toNat * (setup home).ld2sdRate.toNat ≤ tvlLdAt (S.store home) w :=
    (le_inFlight hmem ⟨hfrom, hk⟩ hvalid.to_address hamount).trans hlocked
  obtain ⟨store', hstore, hsame⟩ := Mesh.SetUp.run oft is hset home
  obtain rfl : store' = store := oftStore_unique (hk ▸ hstore) hvalid.store_data
  obtain ⟨htype, hrate, -⟩ := hsame
  rw [tvlLdAt_eq hstore, ← hrate] at hshare
  have hlt : amountSd.toNat * store'.ld2sdRate.toNat < 2 ^ 64 :=
    hshare.trans_lt store'.tvlLd.isLt
  refine ⟨amountSd, BitVec.ofNat 64 (amountSd.toNat * store'.ld2sdRate.toNat), hamount,
    OFTStore.sd2ld_eq_ok.mpr (by rw [BitVec.toNat_ofNat, Nat.mod_eq_of_lt hlt]),
    fun env lamports => ?_⟩
  obtain ⟨js, hjs, -⟩ := Mesh.exists_chain_run oft is home
  have hsolvent : Solvent w := by
    have hrun := solvent_run hs₀ (is₀ ++ js)
    rwa [run_append, ← hreached, hjs] at hrun
  refine LzReceive.exists_releaseTokens hsolvent lamports haccounts (htype.trans hadapter) ?_
  rwa [BitVec.toNat_ofNat, Nat.mod_eq_of_lt hlt]

end Runs

/-- The receiver on the other chain sends some of the tokens back. -/
def sampleReturn : Send :=
  { sampleSend with
    signer := sampleSigner sampleReceiver, peer := sampleWritable (sampleKey 6),
    tokenSource := sampleWritable (sampleKey 10) }

/-- About half of what it received. -/
def sampleReturnParams : SendParams :=
  ⟨sampleHomeEid, sampleReceiver, 5000000#64, 0#64, [0, 3], none, 1000#64, 0#64⟩

/-- The message that is in flight to the adapter then. -/
def sampleReturnedParams : LzReceiveParams :=
  ⟨sampleEid, sampleKey 1, 1#64, sampleKey 61,
    MsgCodec.encode sampleReceiver 50000#64 sampleReceiver none, []⟩

/-- There, and a part of it back. -/
def sampleRoundTrip : List (MeshInput SampleChain) :=
  sampleTransfer ++
    [.oft .away (.call sampleEnv (.send sampleReturn sampleReturnParams)) ⟨1#64, sampleKey 61⟩]

/-- What was sent back is locked, and its delivery can be paid. -/
theorem in_flight_payable_sample :
    10000 * 50000 ≤ tvlLdAt (sampleKey 1) ((run (Mesh.step sampleSites) (.start sampleOft)
      sampleRoundTrip).oft .home).world ∧
    ∃ w' store peer mint amountLd r, sampleLzReceive.tryAccounts samplePlatform
        ((run (Mesh.step sampleSites) (.start sampleOft) sampleRoundTrip).oft .home).world
        sampleReturnedParams = .ok (w', store, peer, mint) ∧
      store.sd2ld 50000#64 = .ok amountLd ∧
      sampleLzReceive.releaseTokens sampleEnv { w' with lamports := fun _ => 0 } store mint
        amountLd = .ok r := by
  have hpayloads : ∀ x ∈ Mesh.payloads sampleOft sampleRoundTrip,
      x = (.away, (sampleArrival.clearParams sampleArrivalParams).payload) ∨
        x = (.home, (sampleLzReceive.clearParams sampleReturnedParams).payload) := by
    decide +kernel
  have hsole : SoleIssuers sampleSites sampleStores sampleOft sampleRoundTrip := by
    rw [SoleIssuers]
    decide +kernel
  have hnative : ∀ c, c ≠ SampleChain.home → (sampleStores c).oftType = .native ∧
      (sampleOft c).world.supply (sampleStores c).tokenMint = 0 := by
    decide +kernel
  have hforeign : ∀ e ∈ history (Mesh.step sampleSites) (.start sampleOft) sampleRoundTrip,
      foreignSd sampleSites sampleStores e = 0 := by
    decide +kernel
  have hopen : ∀ x ∈ [(SampleChain.home, sampleLzReceive.clearParams sampleReturnedParams)],
      (run (Mesh.step sampleSites) (.start sampleOft) sampleRoundTrip).wire.Open
        sampleSites.labels x := by
    simp only [Channel.Open]
    decide +kernel
  have hamounts : (sampleStores .home).ld2sdRate.toNat = 10000 ∧ inFlightSd sampleSites
      sampleStores [(.home, sampleLzReceive.clearParams sampleReturnedParams)] = 50000 := by
    decide +kernel
  obtain ⟨⟨w', store, peer, mint⟩, haccounts⟩ := Except.exists_of_isOk
    (x := sampleLzReceive.tryAccounts samplePlatform ((run (Mesh.step sampleSites)
      (.start sampleOft) sampleRoundTrip).oft .home).world sampleReturnedParams)
    (by decide +kernel)
  obtain ⟨hlocked, hpaid⟩ := in_flight_payable sampleSites sampleStores sampleOft
    sampleMesh_setUp sampleRoundTrip (fun ⟨x, hx, y, hy, hne, heq⟩ => by
      rcases hpayloads x hx with rfl | rfl <;> rcases hpayloads y hy with rfl | rfl
      all_goals first | exact hne rfl | cases (Prod.mk.inj heq).1) hsole .home
    (by decide +kernel) hnative hforeign (show sampleFresh.Fresh from fun _ => rfl) rfl
    (List.nodup_singleton _) hopen
  rw [hamounts.1, hamounts.2] at hlocked
  obtain ⟨amountSd, amountLd, hamount, hlocal, hreleases⟩ := hpaid sampleLzReceive
    sampleReturnedParams (List.mem_singleton_self _) (by decide) rfl w' store peer mint haccounts
  have hwritten : MsgCodec.amountSd sampleReturnedParams.message = some 50000#64 := by
    decide +kernel
  obtain rfl := Option.some.inj (hwritten.symm.trans hamount)
  obtain ⟨r, hr⟩ := hreleases sampleEnv fun _ => 0
  exact ⟨hlocked, w', store, peer, mint, amountLd, r, haccounts, hlocal, hr⟩

end Oft
