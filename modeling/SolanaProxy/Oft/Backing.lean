import SolanaProxy.Oft.Transfers
import Mathlib.Algebra.BigOperators.Ring.Finset
import Mathlib.Algebra.BigOperators.Ring.List
import Mathlib.Algebra.Order.BigOperators.Group.Finset
import Mathlib.Data.Fintype.Basic

/-!
# What backs the tokens of a mesh

The books of all stores of a mesh at once, in shared decimals. On each chain a run moves the supply
of a native OFT, or the value that an adapter has locked, by what its store has sent and received
(`books_run`). What was received for messages of the stores was sent, and so was what is in flight,
so over all chains no more comes into circulation than is locked: what a native OFT has minted is
backed by an adapter (`supply_backed`).
-/

namespace Oft

open Solana Machine

variable {ι : Type}

/-- The input is a transfer of the store at `k` on a chain. -/
def MeshInput.OfStore (c : ι) (k : Pubkey) : MeshInput ι → Prop
  | .oft d i _ => d = c ∧ i.OfStore k
  | _ => False

instance [DecidableEq ι] (c : ι) (k : Pubkey) : DecidablePred (MeshInput.OfStore c k)
  | .oft d i _ => inferInstanceAs (Decidable (d = c ∧ i.OfStore k))
  | .verify .. => inferInstanceAs (Decidable False)
  | .stranger .. => inferInstanceAs (Decidable False)

section Amounts

variable [DecidableEq ι] (S : Sites ι) (setup : ι → OFTStore)

/-- What an entry of a history sends from the store of a chain, in shared decimals. -/
def sentSd (c : ι) : MeshInput ι × List OFTEffect → ℕ
  | (.oft d (.call _ (.send ctx _)) _, es) =>
    if d = c ∧ ctx.oftStore.pubkey = S.store c then sentLd es / (setup c).ld2sdRate.toNat else 0
  | _ => 0

/-- What an entry of a history releases by the store of a chain, in shared decimals. -/
def receivedSd (c : ι) : MeshInput ι × List OFTEffect → ℕ
  | (.oft d (.call _ (.lzReceive ctx _)) _, es) =>
    if d = c ∧ ctx.oftStore.pubkey = S.store c then
      releasedLd es / (setup c).ld2sdRate.toNat
    else 0
  | _ => 0

/-- What an entry of a history releases for messages that come from no store of the mesh. -/
def foreignSd : MeshInput ι × List OFTEffect → ℕ
  | (.oft c (.call _ (.lzReceive ctx params)) _, es) =>
    if ctx.oftStore.pubkey = S.store c ∧ ¬S.FromStore (ctx.clearParams params) then
      releasedLd es / (setup c).ld2sdRate.toNat
    else 0
  | _ => 0

/-- Nobody else mints or burns: what is no transfer of the store of a native OFT leaves the supply
of its mint alone. -/
def SoleIssuers (oft : (c : ι) → OFTState (S.platform c)) (is : List (MeshInput ι)) : Prop :=
  ∀ t ∈ transitions (Mesh.step S) (.start oft) is, ∀ c, (setup c).oftType = .native →
    ¬t.2.1.OfStore c (S.store c) →
      ((next (Mesh.step S) t.1 t.2.1).oft c).world.supply (setup c).tokenMint =
        (t.1.oft c).world.supply (setup c).tokenMint

end Amounts

/-! ### One chain -/

section Books

variable {P : Platform} {env : Env} {w w' : OFTWorld} {es : List OFTEffect} {store : OFTStore}

/-- What a send puts on the books is made of whole shared units. -/
theorem Send.Trace.dispatchedLd_eq {ctx : Send} {params : SendParams} {receipt : OFTReceipt}
    (t : Trace P env w ctx params w' es receipt) :
    dispatchedLd ctx.oftStore.pubkey t.store (.call env (.send ctx params), es) =
      t.store.ld2sdRate.toNat * (sentLd es / t.store.ld2sdRate.toNat) := by
  obtain ⟨amountSd, hshared, hlocal⟩ := messageLd_eq_some.mp t.messageLd_eq
  rw [dispatchedLd, if_pos rfl, t.sent_eq, List.map_singleton, List.sum_singleton,
    wireLd_eq t.messageLd_eq, t.sentLd_eq, Nat.mul_div_cancel']
  exact ⟨amountSd.toNat, by rw [OFTStore.sd2ld_eq_ok.mp hlocal, mul_comm]⟩

theorem LzReceive.Trace.processedLd_eq {ctx : LzReceive} {params : LzReceiveParams}
    (t : Trace P env w ctx params w' es) :
    processedLd ctx.oftStore.pubkey t.store (.call env (.lzReceive ctx params), es) =
      t.store.ld2sdRate.toNat * (releasedLd es / t.store.ld2sdRate.toNat) := by
  rw [processedLd, if_pos rfl, wireLd_eq t.messageLd_eq, t.releasedLd_eq, Nat.mul_div_cancel']
  exact ⟨t.amountSd.toNat, by rw [OFTStore.sd2ld_eq_ok.mp t.local_eq, mul_comm]⟩

end Books

section Chain

variable [DecidableEq ι] {S : Sites ι} {setup : ι → OFTStore} {m m' : Mesh S} {i : MeshInput ι}
  {es : List OFTEffect}

/-- A call on a chain books what it sends and releases there. -/
theorem wire_eq_mul {c : ι} {env : Env} {i : Instruction} {w w' : OFTWorld}
    {store : OFTStore} (stamp : Stamp) (hstore : w.data (S.store c) = some (.oftStore store))
    (hrate : store.ld2sdRate = (setup c).ld2sdRate)
    (h : i.execute (S.platform c) env w = .ok (w', es)) :
    dispatchedLd (S.store c) store (.call env i, es) =
        (setup c).ld2sdRate.toNat * sentSd S setup c (.oft c (.call env i) stamp, es) ∧
      processedLd (S.store c) store (.call env i, es) =
        (setup c).ld2sdRate.toNat * receivedSd S setup c (.oft c (.call env i) stamp, es) := by
  rw [← hrate]
  cases i with
  | send ctx params =>
    refine ⟨?_, rfl⟩
    by_cases hk : ctx.oftStore.pubkey = S.store c
    · obtain ⟨receipt, oftReceipt, hc⟩ := Instruction.execute_send h
      obtain ⟨t⟩ := Send.nonempty_trace hc
      rw [← hk] at hstore
      obtain rfl := oftStore_unique hstore t.accounts.store_data
      rw [sentSd, if_pos ⟨rfl, hk⟩, ← hrate, ← hk, t.dispatchedLd_eq]
    · rw [sentSd, if_neg fun h => hk h.2]
      exact if_neg hk
  | lzReceive ctx params =>
    refine ⟨rfl, ?_⟩
    by_cases hk : ctx.oftStore.pubkey = S.store c
    · obtain ⟨t⟩ := LzReceive.nonempty_trace h
      rw [← hk] at hstore
      obtain rfl := oftStore_unique hstore t.accounts.store_data
      rw [receivedSd, if_pos ⟨rfl, hk⟩, ← hrate, ← hk, t.processedLd_eq]
    · rw [receivedSd, if_neg fun h => hk h.2]
      exact if_neg hk
  | _ => exact ⟨rfl, rfl⟩

/-- **One step** of the mesh books on each chain what the chain has sent and released. -/
theorem books_of_step (hm : m.SetUp setup) (h : m.step S i = .ok (m', es)) (c : ι)
    (hsupply : (setup c).oftType = .native → ¬i.OfStore c (S.store c) →
      (m'.oft c).world.supply (setup c).tokenMint = (m.oft c).world.supply (setup c).tokenMint) :
    ((setup c).oftType = .native →
      (m'.oft c).world.supply (setup c).tokenMint +
          (setup c).ld2sdRate.toNat * sentSd S setup c (i, es) =
        (m.oft c).world.supply (setup c).tokenMint +
          (setup c).ld2sdRate.toNat * receivedSd S setup c (i, es)) ∧
    ((setup c).oftType = .adapter →
      tvlLdAt (S.store c) (m'.oft c).world +
          (setup c).ld2sdRate.toNat * receivedSd S setup c (i, es) =
        tvlLdAt (S.store c) (m.oft c).world +
          (setup c).ld2sdRate.toNat * sentSd S setup c (i, es)) := by
  obtain ⟨hprograms, -⟩ := Mesh.step_eq_ok.mp h
  cases i with
  | verify d message =>
    obtain ⟨hoft, -⟩ := Prod.mk.inj (Except.ok.inj hprograms)
    rw [← hoft]
    exact ⟨fun _ => rfl, fun _ => rfl⟩
  | stranger d message =>
    obtain ⟨-, hoft⟩ := Mesh.programs_stranger hprograms
    rw [hoft]
    exact ⟨fun _ => rfl, fun _ => rfl⟩
  | oft d i stamp =>
    obtain ⟨s, hstep, hupdate⟩ := Mesh.programs_oft_eq_ok.mp hprograms
    by_cases hd : d = c
    · subst hd
      rw [hupdate, Function.update_self] at hsupply ⊢
      cases i with
      | outside lamports tokens mints deposits =>
        obtain ⟨rfl, -⟩ := Prod.mk.inj (Except.ok.inj hstep)
        exact ⟨fun htype => congrArg (· + _) (hsupply htype fun hof => hof.2), fun _ => rfl⟩
      | call env i =>
        obtain ⟨-, hexec⟩ := Instruction.invoke_eq_ok.mp (step_call_eq_ok.mp hstep)
        obtain ⟨store, hstore, htype, hrate, hmint, -⟩ := hm d
        obtain ⟨store', hstore', -⟩ := (i.writes hexec).sameSetup hstore
        have hbooked := i.booked hexec hstore hstore' fun hnative hof => by
          rw [hmint]
          exact hsupply (htype ▸ hnative) fun h => hof h.2
        obtain ⟨hout, hin⟩ := wire_eq_mul stamp hstore hrate hexec
        rw [hout, hin] at hbooked
        rw [tvlLdAt_eq hstore, tvlLdAt_eq hstore', ← htype, ← hmint]
        exact ⟨hbooked.native, hbooked.adapter⟩
    · -- nothing happens on the other chains
      have hzero : sentSd S setup c (.oft d i stamp, es) = 0 ∧
          receivedSd S setup c (.oft d i stamp, es) = 0 := by
        cases i with
        | outside lamports tokens mints deposits => exact ⟨rfl, rfl⟩
        | call env i => cases i <;> simp [sentSd, receivedSd, hd]
      rw [hupdate, Function.update_of_ne (Ne.symm hd), hzero.1, hzero.2]
      exact ⟨fun _ => rfl, fun _ => rfl⟩

/-- Over a run each chain books what it has sent and received. -/
theorem books_run {oft : (c : ι) → OFTState (S.platform c)}
    (hset : (Mesh.start oft).SetUp setup) {is : List (MeshInput ι)}
    (hsole : SoleIssuers S setup oft is) (c : ι) :
    let m := run (Mesh.step S) (.start oft) is
    let h := history (Mesh.step S) (.start oft) is
    ((setup c).oftType = .native →
      (m.oft c).world.supply (setup c).tokenMint +
          (setup c).ld2sdRate.toNat * (h.map (sentSd S setup c)).sum =
        (oft c).world.supply (setup c).tokenMint +
          (setup c).ld2sdRate.toNat * (h.map (receivedSd S setup c)).sum) ∧
    ((setup c).oftType = .adapter →
      tvlLdAt (S.store c) (m.oft c).world +
          (setup c).ld2sdRate.toNat * (h.map (receivedSd S setup c)).sum =
        tvlLdAt (S.store c) (oft c).world +
          (setup c).ld2sdRate.toNat * (h.map (sentSd S setup c)).sum) := by
  have hbooked := fun t (ht : t ∈ transitions (Mesh.step S) (.start oft) is) m'
      (hstep : t.1.step S t.2.1 = .ok (m', t.2.2)) =>
    books_of_step (Mesh.SetUp.of_mem hset ht) hstep c fun hnative hother =>
      (congrArg (fun m : Mesh S => (m.oft c).world.supply (setup c).tokenMint)
        (next_of_ok hstep)).symm.trans (hsole t ht c hnative hother)
  simp only [← List.sum_map_mul_left]
  constructor
  · intro hnative
    exact history_books (f := fun m : Mesh S => (m.oft c).world.supply (setup c).tokenMint)
      fun t ht m' hstep => (hbooked t ht m' hstep).1 hnative
  · intro hadapter
    exact history_books (f := fun m : Mesh S => tvlLdAt (S.store c) (m.oft c).world)
      fun t ht m' hstep => (hbooked t ht m' hstep).2 hadapter

end Chain

/-! ### All chains -/

section Sums

variable {α β : Type*}

/-- Amounts that are booked per chain, and per entry of a history. -/
theorem sum_map_sum [Fintype ι] (f : ι → α → ℕ) (l : List α) :
    (l.map fun e => ∑ c, f c e).sum = ∑ c, (l.map (f c)).sum := by
  induction l with
  | nil => simp
  | cons e l ih => simp only [List.map_cons, List.sum_cons, ih, Finset.sum_add_distrib]

theorem sum_map_flatMap (f : α → List β) (g : β → ℕ) (l : List α) :
    ((l.flatMap f).map g).sum = (l.map fun e => ((f e).map g).sum).sum := by
  induction l with
  | nil => rfl
  | cons e l ih =>
    rw [List.flatMap_cons, List.map_append, List.sum_append, ih, List.map_cons, List.sum_cons]

end Sums

section Mesh

variable [DecidableEq ι] [Fintype ι] {S : Sites ι} {setup : ι → OFTStore} {m m' : Mesh S}
  {i : MeshInput ι} {es : List OFTEffect}

/-- An amount on a chain, in shared decimals. -/
def inSd (setup : ι → OFTStore) (x : ι × Pubkey × ℕ) : ℕ := x.2.2 / (setup x.1).ld2sdRate.toNat

/-- The shared units that messages between the stores carry. -/
def inFlightSd (S : Sites ι) (setup : ι → OFTStore) (l : List (ι × ClearParams)) : ℕ :=
  ((l.filterMap (transfer? S setup)).map (inSd setup)).sum

/-- What the stores receive comes from each other or from elsewhere. -/
theorem sum_receivedSd (h : m.step S i = .ok (m', es)) :
    ∑ c, receivedSd S setup c (i, es) =
      ((released S (i, es)).map (inSd setup)).sum + foreignSd S setup (i, es) := by
  obtain ⟨hprograms, -⟩ := Mesh.step_eq_ok.mp h
  cases i with
  | oft c i stamp =>
    obtain ⟨s, hstep, -⟩ := Mesh.programs_oft_eq_ok.mp hprograms
    cases i with
    | outside lamports tokens mints deposits => simp [receivedSd, released, foreignSd]
    | call env i =>
      cases i with
      | lzReceive ctx params =>
        obtain ⟨-, hexec⟩ := Instruction.invoke_eq_ok.mp (step_call_eq_ok.mp hstep)
        obtain ⟨t⟩ := LzReceive.nonempty_trace hexec
        have hamount : releasedLd es = t.amountLd.toNat := by
          rw [releasedLd, t.filterMap_releasedLd, List.sum_singleton]
        -- only the chain of the call counts
        have hsum : ∑ d, receivedSd S setup d
            (.oft c (.call env (.lzReceive ctx params)) stamp, es) =
              if ctx.oftStore.pubkey = S.store c then
                t.amountLd.toNat / (setup c).ld2sdRate.toNat else 0 := by
          have hother : ∀ d ∈ Finset.univ, d ≠ c → receivedSd S setup d
              (.oft c (.call env (.lzReceive ctx params)) stamp, es) = 0 :=
            fun d _ hd => if_neg fun h => hd h.1.symm
          rw [Finset.sum_eq_single c hother fun hc => absurd (Finset.mem_univ c) hc, receivedSd,
            hamount]
          simp only [true_and]
        rw [hsum, released, foreignSd, t.filterMap_releasedLd, hamount]
        by_cases hk : ctx.oftStore.pubkey = S.store c
        · by_cases hfrom : S.FromStore (ctx.clearParams params)
          · simp [hk, hfrom, inSd]
          · simp [hk, hfrom]
        · simp [hk]
      | _ => simp [receivedSd, released, foreignSd]
  | _ => simp [receivedSd, released, foreignSd]

/-- What the stores send to each other is part of what they send. -/
theorem sum_ordered_le (e : MeshInput ι × List OFTEffect) :
    (((ordered? S setup e).toList).map (inSd setup)).sum ≤ ∑ c, sentSd S setup c e := by
  obtain ⟨i, es⟩ := e
  cases i with
  | oft c i stamp =>
    cases i with
    | outside lamports tokens mints deposits => exact Nat.zero_le _
    | call env i =>
      cases i with
      | send ctx params =>
        by_cases hk : ctx.oftStore.pubkey = S.store c
        · refine le_trans ?_ (Finset.single_le_sum (fun d _ => Nat.zero_le _) (Finset.mem_univ c))
          rw [ordered?, if_pos hk, sentSd, if_pos ⟨rfl, hk⟩]
          cases S.chainOf params.dstEid with
          | none => exact Nat.zero_le _
          | some d =>
            rw [Option.map_some, Option.toList_some, List.map_singleton, List.sum_singleton, inSd]
            exact Nat.div_le_of_le_mul (Nat.mul_comm _ _).le
        · rw [ordered?, if_neg hk]
          exact Nat.zero_le _
      | _ => exact Nat.zero_le _
  | _ => exact Nat.zero_le _

/-- **Conservation over all chains.** No more shared units are received or in flight than sent, but
for what is received for messages from elsewhere. -/
theorem sum_received_le {oft : (c : ι) → OFTState (S.platform c)}
    (hset : (Mesh.start oft).SetUp setup) {is : List (MeshInput ι)}
    (hcollision : ¬Merkle.Collision S.hash (Mesh.payloads oft is)) {l : List (ι × ClearParams)}
    (hl : l.Nodup) (hopen : ∀ x ∈ l, (run (Mesh.step S) (.start oft) is).wire.Open S.labels x) :
    ∑ c, ((history (Mesh.step S) (.start oft) is).map (receivedSd S setup c)).sum +
        inFlightSd S setup l ≤
      ∑ c, ((history (Mesh.step S) (.start oft) is).map (sentSd S setup c)).sum +
        ((history (Mesh.step S) (.start oft) is).map (foreignSd S setup)).sum := by
  have hreceived : (history (Mesh.step S) (.start oft) is).map
      (fun e => ∑ c, receivedSd S setup c e) = (history (Mesh.step S) (.start oft) is).map
        fun e => ((released S e).map (inSd setup)).sum + foreignSd S setup e := by
    rw [← map_transitions, List.map_map, List.map_map]
    refine List.map_congr_left fun t ht => ?_
    obtain ⟨_, _, m', -, -, hstep⟩ := exists_of_mem_transitions ht
    exact sum_receivedSd hstep
  have hcrossed := (open_released_subperm_ordered hset hcollision hl hopen).sum_map_le (inSd setup)
  rw [List.filterMap_eq_flatMap_toList (ordered? S setup), List.map_append, List.sum_append,
    sum_map_flatMap, sum_map_flatMap] at hcrossed
  have hsent : _ ≤ _ := hcrossed.trans (List.sum_le_sum fun e _ => sum_ordered_le e)
  rw [← sum_map_sum, ← sum_map_sum, hreceived, List.sum_map_add, inFlightSd]
  omega

/-- **What circulates is backed.** Take the stores of a token on several chains and any run of all
programs and the wire between them, in which no two of the payloads of messages to a chain have one
hash, and where nobody else mints or burns the tokens of a native OFT. On each chain the run has
issued a number of shared units: the supply of a native OFT has grown by them, or the value that an
adapter has locked has shrunk by them. Over all chains, what is issued or in flight is no more than
was received for messages from elsewhere. -/
theorem supply_backed (S : Sites ι) (setup : ι → OFTStore)
    (oft : (c : ι) → OFTState (S.platform c)) (hset : (Mesh.start oft).SetUp setup)
    (is : List (MeshInput ι)) (hcollision : ¬Merkle.Collision S.hash (Mesh.payloads oft is))
    (hsole : SoleIssuers S setup oft is) :
    ∃ issued : ι → ℤ,
      (∀ c, (setup c).oftType = .native →
        (((run (Mesh.step S) (.start oft) is).oft c).world.supply (setup c).tokenMint : ℤ) =
          (oft c).world.supply (setup c).tokenMint + (setup c).ld2sdRate.toNat * issued c) ∧
      (∀ c, (setup c).oftType = .adapter →
        (tvlLdAt (S.store c) ((run (Mesh.step S) (.start oft) is).oft c).world : ℤ) =
          tvlLdAt (S.store c) (oft c).world - (setup c).ld2sdRate.toNat * issued c) ∧
      ∀ l : List (ι × ClearParams), l.Nodup →
        (∀ x ∈ l, (run (Mesh.step S) (.start oft) is).wire.Open S.labels x) →
        ∑ c, issued c + inFlightSd S setup l ≤
          ((history (Mesh.step S) (.start oft) is).map (foreignSd S setup)).sum := by
  refine ⟨fun c => ((history (Mesh.step S) (.start oft) is).map (receivedSd S setup c)).sum -
    ((history (Mesh.step S) (.start oft) is).map (sentSd S setup c)).sum,
      fun c hnative => ?_, fun c hadapter => ?_, fun l hl hopen => ?_⟩
  · have hbooks := (books_run hset hsole c).1 hnative
    rw [mul_sub]
    omega
  · have hbooks := (books_run hset hsole c).2 hadapter
    rw [mul_sub]
    omega
  · have hsum := sum_received_le hset hcollision hl hopen
    rw [Finset.sum_sub_distrib, ← Nat.cast_sum, ← Nat.cast_sum]
    omega

end Mesh

instance : Fintype SampleChain := ⟨{.home, .away}, by rintro (_ | _) <;> decide⟩

/-- What was minted on one chain is locked on the other. -/
theorem supply_backed_sample : ∃ issued : SampleChain → ℤ,
    (9900300 : ℤ) = 100 * issued .away ∧ (990030000 : ℤ) = -(10000 * issued .home) ∧
      issued .home + issued .away ≤ 0 := by
  have hsole : SoleIssuers sampleSites sampleStores sampleOft sampleTransfer := by
    rw [SoleIssuers]
    decide +kernel
  obtain ⟨issued, hnative, hadapter, hsum⟩ := supply_backed sampleSites sampleStores sampleOft
    sampleMesh_setUp sampleTransfer (fun ⟨x, hx, y, hy, hne, _⟩ =>
      hne ((sampleMesh_payloads x hx).trans (sampleMesh_payloads y hy).symm)) hsole
  have haway := hnative .away (by decide +kernel)
  have hhome := hadapter .home (by decide +kernel)
  have hforeign : ((history (Mesh.step sampleSites) (.start sampleOft) sampleTransfer).map
      (foreignSd sampleSites sampleStores)).sum = 0 := by
    decide +kernel
  have hrates : (sampleStores .away).ld2sdRate.toNat = 100 ∧
      (sampleStores .home).ld2sdRate.toNat = 10000 := by
    decide +kernel
  have hminted : ((run (Mesh.step sampleSites) (.start sampleOft) sampleTransfer).oft
      .away).world.supply (sampleStores .away).tokenMint = 9900300 ∧
        (sampleOft .away).world.supply (sampleStores .away).tokenMint = 0 := by
    decide +kernel
  have hlocked : tvlLdAt (sampleSites.store .home) ((run (Mesh.step sampleSites)
      (.start sampleOft) sampleTransfer).oft .home).world = 990030000 ∧
        tvlLdAt (sampleSites.store .home) (sampleOft .home).world = 0 := by
    decide +kernel
  rw [hminted.1, hminted.2, hrates.1] at haway
  rw [hlocked.1, hlocked.2, hrates.2] at hhome
  have htotal := hsum [] List.nodup_nil fun _ hx => (List.not_mem_nil hx).elim
  rw [hforeign] at htotal
  refine ⟨issued, by omega, by omega, ?_⟩
  simpa [Finset.univ, Fintype.elems, inFlightSd] using htotal

end Oft
