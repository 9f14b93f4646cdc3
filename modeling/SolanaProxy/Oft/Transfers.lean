import SolanaProxy.Oft.Mesh
import SolanaProxy.Oft.Wire

/-!
# Transfers over runs of the mesh

What the stores of a mesh release for the messages of each other, over whole runs of all programs
and the wire between them. Every message that enters the wire in the name of a store is one of its
sends (`sent_sublist_ordered`), and what is released is what the messages taken from the wire say
(`released_eq`); so a transfer arrives once, with the recipient and the amount it was sent with
(`transfers_cross_once`).
-/

namespace Oft

open Solana Machine

variable {ι : Type}

/-- Each chain has its store, with this setup. -/
def Mesh.SetUp {S : Sites ι} (setup : ι → OFTStore) (m : Mesh S) : Prop :=
  ∀ c, ∃ store, (m.oft c).world.data (S.store c) = some (.oftStore store) ∧
    (setup c).SameSetup store

/-- A chain, a recipient, and an amount in the local decimals of the chain, as a message from a
store to a store says. -/
def transfer? (S : Sites ι) (setup : ι → OFTStore) (x : ι × ClearParams) :
    Option (ι × Pubkey × ℕ) :=
  if S.FromStore x.2 ∧ x.2.receiver = S.store x.1 then do
    let recipient ← MsgCodec.sendTo x.2.message
    let amountSd ← MsgCodec.amountSd x.2.message
    return (x.1, recipient, amountSd.toNat * (setup x.1).ld2sdRate.toNat)
  else none

/-- What an entry of a history releases for the messages of the stores. -/
def released (S : Sites ι) : MeshInput ι × List OFTEffect → List (ι × Pubkey × ℕ)
  | (.oft c (.call _ (.lzReceive ctx params)) _, es) =>
    if S.FromStore (ctx.clearParams params) ∧ ctx.oftStore.pubkey = S.store c then
      (es.filterMap releasedLd?).map fun amount => (c, ctx.toAddress.pubkey, amount)
    else []
  | _ => []

/-- What an entry of a history sends from a store to a chain of the mesh: the amount on record, from
the local decimals of one chain to those of the other. -/
def ordered? (S : Sites ι) (setup : ι → OFTStore) :
    MeshInput ι × List OFTEffect → Option (ι × Pubkey × ℕ)
  | (.oft c (.call _ (.send ctx params)) _, es) =>
    if ctx.oftStore.pubkey = S.store c then
      (S.chainOf params.dstEid).map fun d =>
        (d, params.toAddress,
          sentLd es / (setup c).ld2sdRate.toNat * (setup d).ld2sdRate.toNat)
    else none
  | _ => none

section Transfers

variable {S : Sites ι} {setup : ι → OFTStore}

theorem transfer?_eq_some {c : ι} {message : ClearParams} {recipient : ByteArr 32} {amountSd : U64}
    (hstores : S.FromStore message ∧ message.receiver = S.store c)
    (hrecipient : MsgCodec.sendTo message.message = some recipient)
    (hamount : MsgCodec.amountSd message.message = some amountSd) :
    transfer? S setup (c, message) =
      some (c, recipient, amountSd.toNat * (setup c).ld2sdRate.toNat) := by
  rw [transfer?, if_pos hstores, hrecipient, hamount]
  rfl

theorem transfer?_eq_none {c : ι} {message : ClearParams}
    (hother : ¬(S.FromStore message ∧ message.receiver = S.store c)) :
    transfer? S setup (c, message) = none := if_neg hother

/-- Nothing but a delivery releases. -/
theorem released_eq_nil {i : MeshInput ι} {es : List OFTEffect}
    (hother : ∀ c env ctx params stamp, i ≠ .oft c (.call env (.lzReceive ctx params)) stamp) :
    released S (i, es) = [] := by
  unfold released
  split
  case h_1 c env ctx params stamp es' heq =>
    exact absurd (Prod.mk.inj heq).1 (hother c env ctx params stamp)
  case h_2 => rfl

section Trace

variable {P : Platform} {env : Env} {w w' : OFTWorld} {es : List OFTEffect}

/-- A delivery releases the amount that its message names. -/
theorem LzReceive.Trace.filterMap_releasedLd {ctx : LzReceive} {params : LzReceiveParams}
    (t : Trace P env w ctx params w' es) : es.filterMap releasedLd? = [t.amountLd.toNat] := by
  rw [t.filterMap_effects (fun _ _ _ _ => rfl) fun _ => rfl]
  rcases t.store.adapter_or_native with htype | htype
  · obtain ⟨_, _, -, -, -, hmoved⟩ := releaseTokens_adapter htype t.tokens
    rw [hmoved]
    rfl
  · obtain ⟨-, -, hmoved⟩ := releaseTokens_native htype t.tokens
    rw [hmoved]
    rfl

/-- The message of a send names the amount on record, in shared decimals. -/
theorem Send.Trace.amountSd_eq {ctx : Send} {params : SendParams} {receipt : OFTReceipt}
    (t : Trace P env w ctx params w' es receipt) :
    t.amountSd.toNat = sentLd es / t.store.ld2sdRate.toNat := by
  obtain ⟨-, ⟨-, hrate, -⟩, -⟩ := frame_of_takeTokens t.tokens
  obtain ⟨-, hshared⟩ := OFTStore.ld2sd_eq_ok.mp t.shared
  rw [t.sentLd_eq, hshared, hrate]

end Trace

variable [DecidableEq ι] {m m' : Mesh S} {i : MeshInput ι} {es : List OFTEffect}

/-- The stores keep their setup. -/
theorem Mesh.SetUp.run (oft : (c : ι) → OFTState (S.platform c)) (is : List (MeshInput ι))
    (hset : (Mesh.start oft).SetUp setup) : (run (Mesh.step S) (.start oft) is).SetUp setup := by
  intro c
  obtain ⟨store, hstore, hsame⟩ := hset c
  obtain ⟨js, hrun, -⟩ := Mesh.exists_chain_run oft is c
  obtain ⟨store', hstore', hsame'⟩ := sameSetup_run hstore js
  have hworld : worldAfter (oft c) js = ((Machine.run (Mesh.step S) (.start oft) is).oft c).world :=
    congrArg OFTState.world hrun
  rw [← hworld]
  exact ⟨store', hstore', hsame.trans hsame'⟩

theorem Mesh.SetUp.of_mem {oft : (c : ι) → OFTState (S.platform c)}
    (hset : (Mesh.start oft).SetUp setup) {is : List (MeshInput ι)}
    {t : Mesh S × MeshInput ι × List OFTEffect}
    (ht : t ∈ transitions (Mesh.step S) (.start oft) is) : t.1.SetUp setup := by
  obtain ⟨is₁, _, _, -, hrun, -⟩ := exists_of_mem_transitions ht
  rw [hrun]
  exact Mesh.SetUp.run oft is₁ hset

/-- **What is released** is what is taken from the wire. -/
theorem released_eq (hm : m.SetUp setup) (h : m.step S i = .ok (m', es)) :
    released S (i, es) =
      ((wireEvents S (i, es)).filterMap Channel.Event.taken?).filterMap (transfer? S setup) := by
  obtain ⟨htaken, hother⟩ | ⟨c, env, ctx, params, stamp, w', rfl, htaken, ⟨t⟩⟩ :=
    Mesh.taken_cases h
  · rw [htaken, released_eq_nil hother, List.filterMap_nil]
  · rw [htaken, released, t.filterMap_releasedLd, List.map_singleton]
    by_cases hof : S.FromStore (ctx.clearParams params) ∧ ctx.oftStore.pubkey = S.store c
    · obtain ⟨store, hstore, -, hrate, -⟩ := hm c
      rw [← hof.2] at hstore
      obtain rfl := oftStore_unique hstore t.accounts.store_data
      have hlocal := OFTStore.sd2ld_eq_ok.mp t.local_eq
      rw [if_pos hof, List.filterMap_cons_some
        (transfer?_eq_some hof t.accounts.to_address t.shared), hlocal, hrate]
      rfl
    · rw [if_neg hof, List.filterMap_cons_none (transfer?_eq_none hof), List.filterMap_nil]

/-- **What is sent** in the name of a store is a send of it. -/
theorem sent_sublist_ordered (hm : m.SetUp setup) (h : m.step S i = .ok (m', es)) :
    (((wireEvents S (i, es)).filterMap Channel.Event.sent?).filterMap (transfer? S setup)).Sublist
      (ordered? S setup (i, es)).toList := by
  obtain hother | ⟨c, env, ctx, params, stamp, receipt, d, w', rfl, hk, hd, t, hsent⟩ :=
    Mesh.sent_cases h
  · have hnone : ((wireEvents S (i, es)).filterMap Channel.Event.sent?).filterMap
        (transfer? S setup) = [] :=
      List.filterMap_eq_nil_iff.mpr fun x hx => transfer?_eq_none fun hof => hother x hx hof.1
    rw [hnone]
    exact List.nil_sublist _
  · rw [hsent, ordered?, if_pos hk, hd]
    by_cases hof : S.FromStore (t.message (S.eid c) stamp) ∧
        (t.message (S.eid c) stamp).receiver = S.store d
    · obtain ⟨store, hstore, -, hrate, -⟩ := hm c
      rw [← hk] at hstore
      obtain rfl := oftStore_unique hstore t.accounts.store_data
      rw [List.filterMap_cons_some (transfer?_eq_some hof (MsgCodec.sendTo_encode ..)
        (MsgCodec.amountSd_encode ..)), t.amountSd_eq, hrate]
      exact List.Sublist.refl _
    · rw [List.filterMap_cons_none (transfer?_eq_none hof)]
      exact List.nil_sublist _

/-- **What is in flight or released** for messages of the stores is part of what was sent. -/
theorem open_released_subperm_ordered {oft : (c : ι) → OFTState (S.platform c)}
    (hset : (Mesh.start oft).SetUp setup) {is : List (MeshInput ι)}
    (hcollision : ¬Merkle.Collision S.hash (Mesh.payloads oft is)) {l : List (ι × ClearParams)}
    (hl : l.Nodup) (hopen : ∀ x ∈ l, (run (Mesh.step S) (.start oft) is).wire.Open S.labels x) :
    (l.filterMap (transfer? S setup) ++
        (history (Mesh.step S) (.start oft) is).flatMap (released S)).Subperm
      ((history (Mesh.step S) (.start oft) is).filterMap (ordered? S setup)) := by
  have hordered : (history (Mesh.step S) (.start oft) is).filterMap (ordered? S setup) =
      (transitions (Mesh.step S) (.start oft) is).filterMap fun t => ordered? S setup t.2 := by
    rw [← map_transitions, List.filterMap_map]
    rfl
  rw [hordered]
  refine Channel.open_crosses_once Mesh.wire (transfer? S setup) (Mesh.agrees_run oft is)
    (Mesh.eq_of_labels hcollision) (fun t ht => ?_) (fun t ht => ?_) hl hopen
  · obtain ⟨_, _, m', -, -, hstep⟩ := exists_of_mem_transitions ht
    exact released_eq (Mesh.SetUp.of_mem hset ht) hstep
  · obtain ⟨_, _, m', -, -, hstep⟩ := exists_of_mem_transitions ht
    exact sent_sublist_ordered (Mesh.SetUp.of_mem hset ht) hstep

/-- What is released goes to the token account of the recipient. -/
theorem LzReceive.Trace.destination {P : Platform} {env : Env} {w w' : OFTWorld} {ctx : LzReceive}
    {params : LzReceiveParams} (t : Trace P env w ctx params w' es) :
    P.associatedTokenAddress ctx.toAddress.pubkey t.store.tokenMint ctx.tokenProgram.pubkey =
        some ctx.tokenDest.pubkey ∧
      (es.filterMap Effect.transferred? = [(ctx.tokenEscrow.pubkey, ctx.tokenDest.pubkey,
          t.amountLd.toNat)] ∨
        es.filterMap Effect.minted? = [(t.store.tokenMint, ctx.tokenDest.pubkey,
          t.amountLd.toNat)]) := by
  obtain ⟨-, -, hmint⟩ := loadStoreMint_eq_ok.mp t.accounts.mint_loaded
  obtain ⟨-, haddress, -⟩ := initAssociatedIfNeeded_eq_ok.mp t.accounts.dest_created
  rw [← hmint]
  refine ⟨haddress, ?_⟩
  rcases t.store.adapter_or_native with htype | htype
  · obtain ⟨_, _, -, -, -, hmoved⟩ := releaseTokens_adapter htype t.tokens
    refine .inl ?_
    rw [t.filterMap_effects (fun _ _ _ _ => rfl) fun _ => rfl, hmoved]
    rfl
  · obtain ⟨-, -, hmoved⟩ := releaseTokens_native htype t.tokens
    refine .inr ?_
    rw [t.filterMap_effects (fun _ _ _ _ => rfl) fun _ => rfl, hmoved]
    rfl

/-- **Transfers cross once.** Take the stores of a token on several chains and any run of all
programs and the wire between them, in which no two of the payloads of messages to a chain have one
hash. Then:

* what the stores release for messages of each other is, with multiplicities, part of what they have
  sent: the chain, the recipient, and the amount, converted from one chain's decimals to the
  other's;
* it is transferred from the escrow or minted to the recipient's token account for the mint of the
  store;
* a message that was verified is stored until it is cleared. -/
theorem transfers_cross_once (S : Sites ι) (setup : ι → OFTStore)
    (oft : (c : ι) → OFTState (S.platform c)) (hset : (Mesh.start oft).SetUp setup)
    (is : List (MeshInput ι))
    (hcollision : ¬Merkle.Collision S.hash (Mesh.payloads oft is)) :
    ((history (Mesh.step S) (.start oft) is).flatMap (released S)).Subperm
      ((history (Mesh.step S) (.start oft) is).filterMap (ordered? S setup)) ∧
    (∀ c env ctx params stamp es,
      (.oft c (.call env (.lzReceive ctx params)) stamp, es) ∈
          history (Mesh.step S) (.start oft) is → ctx.oftStore.pubkey = S.store c →
        (S.platform c).associatedTokenAddress ctx.toAddress.pubkey (setup c).tokenMint
            ctx.tokenProgram.pubkey = some ctx.tokenDest.pubkey ∧
          ∃ amount, es.filterMap releasedLd? = [amount] ∧
            (es.filterMap Effect.transferred? =
                [((setup c).tokenEscrow, ctx.tokenDest.pubkey, amount)] ∨
              es.filterMap Effect.minted? =
                [((setup c).tokenMint, ctx.tokenDest.pubkey, amount)])) ∧
    ∀ c message es, (.verify c message, es) ∈ history (Mesh.step S) (.start oft) is →
      (run (Mesh.step S) (.start oft) is).wire.inbox (c, message.slot) =
          .holds (S.hash (c, message.payload)) ∨
        ∃ i stamp es', (.oft c i stamp, es') ∈ history (Mesh.step S) (.start oft) is ∧
          message ∈ es'.filterMap cleared? := by
  have hagrees := Mesh.agrees_run oft is
  have hinj := Mesh.eq_of_labels hcollision
  refine ⟨?_, fun c env ctx params stamp es hentry hk => ?_,
    fun c message es hverified => ?_⟩
  · exact open_released_subperm_ordered hset hcollision List.nodup_nil
      fun _ hx => (List.not_mem_nil hx).elim
  · rw [← map_transitions] at hentry
    obtain ⟨t, ht, hentry⟩ := List.mem_map.mp hentry
    obtain ⟨_, _, m', -, -, hstep⟩ := exists_of_mem_transitions ht
    obtain ⟨store, hstore, -, -, hmint, hescrow, -⟩ := Mesh.SetUp.of_mem hset ht c
    rw [hentry] at hstep
    obtain ⟨hprograms, -⟩ := Mesh.step_eq_ok.mp hstep
    obtain ⟨s, hcall, -⟩ := Mesh.programs_oft_eq_ok.mp hprograms
    obtain ⟨-, hexec⟩ := Instruction.invoke_eq_ok.mp (step_call_eq_ok.mp hcall)
    obtain ⟨tr⟩ := LzReceive.nonempty_trace hexec
    rw [← hk] at hstore
    obtain rfl := oftStore_unique hstore tr.accounts.store_data
    obtain ⟨escrow, hloaded⟩ := tr.accounts.escrow_loaded
    obtain ⟨-, -, -, -, -, haddress⟩ := loadEscrow_eq_ok.mp hloaded
    obtain ⟨hdest, heffects⟩ := tr.destination
    rw [hmint, haddress, hescrow] at heffects
    rw [hmint] at hdest
    exact ⟨hdest, _, tr.filterMap_releasedLd, heffects⟩
  · have hverify : .verify (c, message) ∈
        (history (Mesh.step S) (.start oft) is).flatMap (wireEvents S) :=
      List.mem_flatMap.mpr ⟨_, hverified, List.mem_singleton_self _⟩
    refine (hagrees.holds_or_mem_taken hverify hinj).imp_right fun htaken => ?_
    rw [Channel.Event.mem_filterMap_taken] at htaken
    obtain ⟨⟨i, es'⟩, hentry, htake⟩ := List.mem_flatMap.mp htaken
    cases i with
    | oft d i stamp =>
      rcases List.mem_append.mp htake with hsend | htake
      · obtain ⟨_, -, heq⟩ := List.mem_map.mp hsend
        cases heq
      · obtain ⟨message', hmem, heq⟩ := List.mem_map.mp htake
        obtain ⟨rfl, rfl⟩ := Prod.mk.inj (Channel.Event.take.inj heq)
        exact ⟨i, stamp, es', hentry, hmem⟩
    | verify d message' => cases List.mem_singleton.mp htake
    | stranger d message' => cases List.mem_singleton.mp htake

end Transfers

/-! ### A sample mesh -/

/-- The chain where the tokens are locked, and the one where they are minted. -/
inductive SampleChain where
  | home
  | away
deriving DecidableEq

/-- The endpoint id of the adapter. -/
def sampleHomeEid : U32 := 30168#32

/-- The other chain has its peer at an address of its own. -/
def sampleAway : Platform :=
  { samplePlatform with
    derive := tableDerive (((peerSeeds (sampleKey 1) sampleHomeEid ++ [255], sampleKey 110),
      sampleKey 6) :: sampleTable) }

/-- The two deployments, with their stores at one address. -/
def sampleSites : Sites SampleChain where
  platform
    | .home => samplePlatform
    | .away => sampleAway
  eid
    | .home => sampleHomeEid
    | .away => sampleEid
  store _ := sampleKey 1
  chainOf e := if e = sampleHomeEid then some .home else if e = sampleEid then some .away else none
  chainOf_eq_some e c := by
    have hne : sampleHomeEid ≠ sampleEid := by decide
    cases c <;> grind

/-- The mint of the other chain, with the store as its authority. -/
def sampleMinted : Mint := ⟨sampleKey 102, 8, some (sampleKey 1), 0, none⟩

/-- The other chain before anything was called. -/
def sampleAwayFresh : OFTState sampleAway :=
  .fresh sampleAway (fun _ => 10 ^ 12) (fun _ => none)
    fun k => if k = sampleMint then some sampleMinted else none

/-- Its set-up: a native store, with the adapter as its peer. -/
def sampleAwayInputs : List Input :=
  [.call sampleEnv (.initOFT sampleInit { sampleInitParams with oftType := .native }),
    .call sampleEnv (.setPeerConfig ⟨sampleSigner sampleAdmin, sampleWritable (sampleKey 6),
      ⟨sampleKey 1, false, false⟩, ⟨zero32, false, false⟩⟩
      ⟨sampleHomeEid, .peerAddress (sampleKey 1)⟩)]

/-- The adapter takes the native store as its peer. -/
def sampleHomePeer : Input :=
  .call sampleEnv (.setPeerConfig ⟨sampleSigner sampleAdmin, sampleWritable (sampleKey 5),
    ⟨sampleKey 1, false, false⟩, ⟨zero32, false, false⟩⟩ ⟨sampleEid, .peerAddress (sampleKey 1)⟩)

/-- Both deployments, each with the other as its peer. -/
def sampleOft : (c : SampleChain) → OFTState (sampleSites.platform c)
  | .home => run (step samplePlatform) sampleFresh (sampleSetup ++ [sampleHomePeer])
  | .away => run (step sampleAway) sampleAwayFresh sampleAwayInputs

/-- The stores of the two chains. -/
def sampleStores (c : SampleChain) : OFTStore :=
  ((sampleOft c).world.load OFTStore.kind (sampleKey 1)).getD OFTStore.zero

/-- A send to the receiver on the other chain. -/
def sampleTransferParams : SendParams := { sampleSendParams with toAddress := sampleReceiver }

/-- The message for what arrives of it. -/
def sampleArrivalParams : LzReceiveParams :=
  ⟨sampleHomeEid, sampleKey 1, 1#64, sampleKey 60,
    MsgCodec.encode sampleReceiver 99003#64 sampleUser none, []⟩

/-- The accounts of a delivery on the other chain. -/
def sampleArrival : LzReceive :=
  { sampleLzReceive with
    peer := sampleWritable (sampleKey 6), mintAuthority := some ⟨sampleKey 1, false, false⟩ }

/-- The tokens are sent, and the message is verified and delivered. -/
def sampleTransfer : List (MeshInput SampleChain) :=
  [.oft .home (.call sampleEnv (.send sampleSend sampleTransferParams)) ⟨1#64, sampleKey 60⟩,
    .verify .away (sampleArrival.clearParams sampleArrivalParams),
    .oft .away (.call sampleEnv (.lzReceive sampleArrival sampleArrivalParams)) ⟨0#64, zero32⟩]

theorem sampleMesh_setUp : (Mesh.start sampleOft).SetUp sampleStores := by
  have hload : ∀ c : SampleChain,
      ((sampleOft c).world.load OFTStore.kind (sampleKey 1)).isSome = true := by
    rintro (_ | _) <;> decide +kernel
  intro c
  obtain ⟨store, hstore⟩ := Option.isSome_iff_exists.mp (hload c)
  refine ⟨store, World.load_eq_some.mp hstore, ?_⟩
  rw [sampleStores, hstore]
  exact .refl _

theorem sampleMesh_payloads : ∀ x ∈ Mesh.payloads sampleOft sampleTransfer,
    x = (.away, (sampleArrival.clearParams sampleArrivalParams).payload) := by
  decide +kernel

/-- What was sent is minted for the receiver. -/
theorem transfers_cross_once_sample :
    (history (Mesh.step sampleSites) (.start sampleOft) sampleTransfer).flatMap
        (released sampleSites) = [(.away, sampleReceiver, 9900300)] ∧
      [(.away, sampleReceiver, 9900300)].Subperm
        ((history (Mesh.step sampleSites) (.start sampleOft) sampleTransfer).filterMap
          (ordered? sampleSites sampleStores)) := by
  have hreleased : (history (Mesh.step sampleSites) (.start sampleOft) sampleTransfer).flatMap
      (released sampleSites) = [(.away, sampleReceiver, 9900300)] := by
    decide +kernel
  obtain ⟨hsubperm, -⟩ := transfers_cross_once sampleSites sampleStores sampleOft
    sampleMesh_setUp sampleTransfer fun ⟨x, hx, y, hy, hne, _⟩ =>
      hne ((sampleMesh_payloads x hx).trans (sampleMesh_payloads y hy).symm)
  rw [hreleased] at hsubperm
  exact ⟨hreleased, hsubperm⟩

end Oft
