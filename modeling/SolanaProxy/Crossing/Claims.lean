import SolanaProxy.Crossing.Requests
import SolanaProxy.Proxy.HonestProof

/-!
# Claims over runs of the bridge

What a claim of the proxy is worth that reaches the OCC manager, over whole runs from a proxy
without accounts. It carries what its user has last submitted (`read_of_signed`), and the root in it
is what the proof of that submission led to; so a root that was published for a tree of entitlements
comes with an entitlement of the tree, and a submission is used for one claim (`claims_entitled`).
-/

namespace Crossing

open Solana Proxy Ledger Machine

/-- What an entry of a history is for the proxy, if it is one of the proxy. -/
def proxyPart? : BridgeInput × BridgeOutput → Option (Proxy.Input × List ProxyEffect)
  | (.proxy i _, out) => some (i, out.1)
  | _ => none

/-- The strings that an entry of a history hashes if it submits a proof. -/
def hashedBy (P : Platform) : BridgeInput × BridgeOutput → List Bytes
  | (.proxy (.call _ (.submitProof ctx params)) _, _) =>
    let evmAddress := solanaToEvmAddress P.keccak ctx.user.pubkey
    hashedForLeaf P.keccak evmAddress params.cumulativeAmount ++
      hashedInProof P.keccak (calculateLeaf P.keccak evmAddress params.cumulativeAmount)
        params.merkleProof
  | _ => []

/-- The entry of a history submits a proof of a user. -/
def submittedBy (u : Pubkey) : BridgeInput × BridgeOutput → Bool
  | (.proxy (.call _ (.submitProof ctx _)) _, _) => ctx.user.pubkey = u
  | _ => false

/-- What is handed over is a claim of a user. -/
def claimedBy (u : Pubkey) (x : Pubkey × U8 × Bytes) : Bool := x.1 = u ∧ x.2.1 = 16

section Claims

variable {P : Platform} {D : Deployment} {X : ExecutorOptions} {u : Pubkey}

/-- A run of the bridge is a run of the proxy. -/
theorem Bridge.exists_proxy_run (D : Deployment) (X : ExecutorOptions) (proxy : ProxyState P)
    (ledger : LedgerOApp) (is : List BridgeInput) :
    ∃ js, run (Proxy.step P) proxy js = (run (Bridge.step D X) (.start proxy ledger) is).proxy ∧
      history (Proxy.step P) proxy js =
        (history (Bridge.step D X) (.start proxy ledger) is).filterMap proxyPart? := by
  refine exists_component_run (f := Bridge.proxy) (fun s i s' out h hnone => ?_)
    (fun s i s' out e h hsome => ?_) (.start proxy ledger) is
  · cases Bridge.acts_of_step h with
    | proxy => cases hnone
    | ledger _ _ _ _ hproxy => exact hproxy
    | deliver _ _ _ hproxy => exact hproxy
    | channel _ hproxy => exact hproxy
  · cases Bridge.acts_of_step h with
    | proxy j stamp hstep =>
      obtain rfl := Option.some.inj hsome
      exact hstep
    | ledger | deliver => cases hsome
    | channel i _ _ hi =>
      cases i with
      | proxy j stamp => exact absurd rfl (hi j stamp)
      | _ => cases hsome

/-- What writes a claim is a submission of its user. -/
theorem submitProof_of_claimWrite {e : BridgeInput × BridgeOutput}
    {e' : Proxy.Input × List ProxyEffect} (he : proxyPart? e = some e')
    {params : SubmitProofParams} (h : claimWrite u e' = some (some params)) :
    ∃ env ctx stamp, e.1 = .proxy (.call env (.submitProof ctx params)) stamp ∧
      ctx.user.pubkey = u := by
  obtain ⟨i, out⟩ := e
  cases i with
  | proxy i stamp =>
    obtain rfl := Option.some.inj he
    cases i with
    | outside lamports tokens mints => cases h
    | call env i =>
      cases i with
      | submitProof ctx params' =>
        rw [claimWrite, Option.ite_none_right_eq_some] at h
        obtain ⟨huser, hparams⟩ := h
        obtain rfl := Option.some.inj (Option.some.inj hparams)
        exact ⟨env, ctx, stamp, rfl, huser⟩
      | sendClaim ctx fee =>
        rw [claimWrite, Option.ite_none_right_eq_some] at h
        cases h.2
      | _ => cases h
  | _ => cases he

/-- A claim that is signed is sent by `send_claim`. -/
theorem sendClaim_of_signed {t : Bridge P × BridgeInput × BridgeOutput} {s' : Bridge P}
    (h : t.1.step D X t.2.1 = .ok (s', t.2.2)) {payload : Bytes}
    (hx : signed? t = some (u, 16, payload)) :
    (∃ e', proxyPart? t.2 = some e' ∧ claimWrite u e' = some none) ∧
      ∃ claim, claimOf P t.1.proxy.world u = some claim ∧ payload = claim.encodeClaimPayload := by
  obtain ⟨s, i, out⟩ := t
  obtain ⟨hprograms, -⟩ := Bridge.step_eq_ok.mp h
  cases i with
  | proxy i stamp =>
    obtain ⟨hstep, -⟩ := Bridge.programs_proxy_eq_ok.mp hprograms
    cases i with
    | outside lamports tokens mints => cases hx
    | call env i =>
      cases i with
      | sendRequest ctx params fee =>
        -- a request is never of the claim type
        obtain ⟨-, htype, -⟩ : ctx.user.pubkey = u ∧ params.payloadType = 16 ∧ _ := by
          simpa only [signed?, Option.some.injEq, Prod.mk.injEq] using hx
        obtain ⟨receipt, hc⟩ := Instruction.execute_sendRequest (step_call_eq_ok.mp hstep)
        obtain ⟨_, _, _, hprep, -⟩ := SendRequest.of_apply_eq_ok hc
        obtain ⟨peer, fees, hprepared⟩ := SendRequest.prepare_eq_ok.mp hprep
        have hallowed := hprepared.payload_type
        rw [htype] at hallowed
        exact absurd hallowed (by decide)
      | sendClaim ctx fee =>
        obtain ⟨claim, hclaim, heq⟩ := Option.map_eq_some_iff.mp hx
        obtain ⟨rfl, -, rfl⟩ : ctx.user.pubkey = u ∧ _ ∧ claim.encodeClaimPayload = payload := by
          simpa only [Prod.mk.injEq] using heq
        exact ⟨⟨_, rfl, if_pos rfl⟩, claim, hclaim, rfl⟩
      | _ => cases hx
  | _ => cases hx

/-- **A claim carries what was submitted.** A claim that is signed carries the parameters that its
user has submitted last. -/
theorem read_of_signed (hP : P.DeriveInjective) {proxy : ProxyState P} (h₀ : proxy.Fresh)
    {ledger : LedgerOApp} {is : List BridgeInput} {t : Bridge P × BridgeInput × BridgeOutput}
    (ht : t ∈ transitions (Bridge.step D X) (.start proxy ledger) is) {payload : Bytes}
    (hx : signed? t = some (u, 16, payload)) :
    ∃ pre post params,
      history (Bridge.step D X) (.start proxy ledger) is = pre ++ t.2 :: post ∧
      Register.read (claimWrite u) (pre.filterMap proxyPart?) = some params ∧
      payload = claimPayload P u params := by
  obtain ⟨is₁, is₂, s', rfl, hrun, hstep⟩ := exists_of_mem_transitions ht
  obtain ⟨js, hproxy, hhistory⟩ := Bridge.exists_proxy_run D X proxy ledger is₁
  obtain ⟨-, claim, hclaim, rfl⟩ := sendClaim_of_signed hstep hx
  rw [hrun, ← hproxy, claimOf_run hP h₀, hhistory, Option.bind_eq_some_iff] at hclaim
  obtain ⟨params, hread, hpending⟩ := hclaim
  obtain ⟨a, -, rfl⟩ := Option.map_eq_some_iff.mp hpending
  rw [hrun] at hstep
  refine ⟨_, history (Bridge.step D X) s' is₂, params, ?_, hread, rfl⟩
  rw [history_append, history_cons_of_ok hstep]

/-- A claim that is sent was pending. -/
theorem isSome_read_of_clear (hP : P.DeriveInjective) {proxy : ProxyState P} (h₀ : proxy.Fresh)
    {js : List Proxy.Input} {pre post : List (Proxy.Input × List ProxyEffect)}
    {e : Proxy.Input × List ProxyEffect}
    (hsplit : history (Proxy.step P) proxy js = pre ++ e :: post)
    (he : claimWrite u e = some none) : (Register.read (claimWrite u) pre).isSome := by
  obtain ⟨is₁, is₂, s', -, hpre, hstep⟩ := exists_of_history_eq hsplit
  obtain ⟨i, es⟩ := e
  cases i with
  | outside lamports tokens mints => cases he
  | call env i =>
    cases i with
    | submitProof ctx params =>
      rw [claimWrite, Option.ite_none_right_eq_some] at he
      cases he.2
    | sendClaim ctx fee =>
      rw [claimWrite, Option.ite_none_right_eq_some] at he
      obtain ⟨rfl, -⟩ := he
      obtain ⟨receipt, hc⟩ := Instruction.execute_sendClaim (step_call_eq_ok.mp hstep)
      obtain ⟨_, _, _, claim, _, _, hprep, -⟩ := SendClaim.of_apply_eq_ok hc
      obtain ⟨peer, fees, hprepared⟩ := SendClaim.of_prepare_eq_ok hprep
      have hclaim := claimOf_of_load hP hprepared.claim_loaded
      rw [claimOf_run hP h₀, hpre, Option.bind_eq_some_iff] at hclaim
      obtain ⟨params, hread, -⟩ := hclaim
      exact Option.isSome_of_eq_some hread
    | _ => cases he

/-- **A submission is used once.** No more claims of a user are signed than proofs submitted. -/
theorem countP_signed_le (hP : P.DeriveInjective) {proxy : ProxyState P} (h₀ : proxy.Fresh)
    (ledger : LedgerOApp) (is : List BridgeInput) (u : Pubkey) :
    ((transitions (Bridge.step D X) (.start proxy ledger) is).filterMap signed?).countP
        (claimedBy u) ≤
      (history (Bridge.step D X) (.start proxy ledger) is).countP (submittedBy u) := by
  obtain ⟨js, -, hhistory⟩ := Bridge.exists_proxy_run D X proxy ledger is
  have hused := Register.countP_clear_le (f := claimWrite u) fun pre e post hsplit he =>
    isSome_read_of_clear hP h₀ (hhistory.trans hsplit) he
  rw [List.filterMap_filterMap, List.countP_filterMap, List.countP_filterMap] at hused
  have hsigned : ((transitions (Bridge.step D X) (.start proxy ledger) is).filterMap
      signed?).countP (claimedBy u) ≤
        (history (Bridge.step D X) (.start proxy ledger) is).countP fun e =>
          (((proxyPart? e).bind (claimWrite u)).map Option.isNone).getD false := by
    rw [List.countP_filterMap, ← map_transitions, List.countP_map]
    refine List.countP_mono_left fun t ht hclaimed => ?_
    obtain ⟨_, _, s', -, -, hstep⟩ := exists_of_mem_transitions ht
    rcases hx : signed? t with _ | ⟨v, payloadType, payload⟩
    · rw [hx] at hclaimed
      cases hclaimed
    · obtain ⟨rfl, rfl⟩ : v = u ∧ payloadType = 16 := by
        simpa [hx, claimedBy] using hclaimed
      obtain ⟨⟨e', he', hclear⟩, -⟩ := sendClaim_of_signed hstep hx
      simp [he', hclear]
  have hsubmitted : ((history (Bridge.step D X) (.start proxy ledger) is).countP fun e =>
      (((proxyPart? e).bind (claimWrite u)).map Option.isSome).getD false) ≤
        (history (Bridge.step D X) (.start proxy ledger) is).countP (submittedBy u) := by
    refine List.countP_mono_left fun e he hwritten => ?_
    rcases hparams : (proxyPart? e).bind (claimWrite u) with _ | _ | params
    · simp [hparams] at hwritten
    · simp [hparams] at hwritten
    · obtain ⟨e', he', hwrite⟩ := Option.bind_eq_some_iff.mp hparams
      obtain ⟨env, ctx, stamp, hinput, huser⟩ := submitProof_of_claimWrite he' hwrite
      obtain ⟨i, out⟩ := e
      obtain rfl : i = _ := hinput
      simp [submittedBy, huser]
  omega

/-- **Claims are entitled.** Take any run of both programs and the channels between them from a
proxy without accounts, and any tree of entitlements, where no two of the payloads of messages to
the ledger have one hash, and no two of the strings that the tree and the submitted proofs are made
of have one hash. Then:

* of the messages of the proxy, a claim that the OCC manager is handed with the root of the tree
  comes from a user whose address is in the tree with the amount of the claim, and this user has
  submitted a proof for the amount;
* of the messages of the proxy, no more claims of a user are handed over than this user has
  submitted proofs. -/
theorem claims_entitled (hP : P.DeriveInjective) (D : Deployment) (X : ExecutorOptions)
    {proxy : ProxyState P} (h₀ : proxy.Fresh) (ledger : LedgerOApp) (is : List BridgeInput)
    (hcollision : ¬Merkle.Collision P.keccak
      (((history (Bridge.step D X) (.start proxy ledger) is).flatMap (orderlyEvents D)).map
        (Packet.payload ∘ Channel.Event.message)))
    (T : Merkle.Tree (ByteArr 20 × ByteArr 32))
    (htree : ¬Merkle.Collision P.keccak
      ((history (Bridge.step D X) (.start proxy ledger) is).flatMap (hashedBy P) ++
        hashedInTree P.keccak T)) :
    (∀ u (distributionId amount : ByteArr 32),
      (u, 16, distributionId.toList ++ amount.toList ++ (merkleRoot P.keccak T).toList) ∈
          (history (Bridge.step D X) (.start proxy ledger) is).flatMap (handed D) →
        (solanaToEvmAddress P.keccak u, amount) ∈ T.leaves ∧
          ∃ env ctx params stamp out,
            (.proxy (.call env (.submitProof ctx params)) stamp, out) ∈
              history (Bridge.step D X) (.start proxy ledger) is ∧ ctx.user.pubkey = u ∧
            params.cumulativeAmount = amount ∧
            toBytes32 (n := 4) params.distributionId.toBeArr = distributionId) ∧
    ∀ u, ((history (Bridge.step D X) (.start proxy ledger) is).flatMap (handed D)).countP
        (claimedBy u) ≤
      (history (Bridge.step D X) (.start proxy ledger) is).countP (submittedBy u) := by
  obtain ⟨-, hagrees⟩ := Bridge.agrees_run (D := D) (X := X) proxy ledger is
  have hinj := hagrees.eq_of_labels Packet.payload P.keccak (fun _ => rfl)
    (fun _ _ => Packet.eq_of_payload_eq) fun x hx y hy heq =>
      (Merkle.eq_or_collision hx hy heq).resolve_right hcollision
  have hsubperm := handed_subperm_signed hP hagrees hinj
  refine ⟨fun u distributionId amount hmem => ?_, fun u => ?_⟩
  · obtain ⟨t, ht, hx⟩ := List.mem_filterMap.mp (hsubperm.subset hmem)
    obtain ⟨pre, post, params, hsplit, hread, hpayload⟩ := read_of_signed hP h₀ ht hx
    -- the parts of the payload have fixed lengths
    obtain ⟨hfront, hroot⟩ := List.append_inj' hpayload (by simp)
    obtain ⟨hid, hamount⟩ := List.append_inj' hfront (by simp)
    obtain rfl : amount = params.cumulativeAmount := List.Vector.toList_injective hamount
    have hproof : processProof P.keccak params.merkleProof
        (calculateLeaf P.keccak (solanaToEvmAddress P.keccak u) params.cumulativeAmount) =
          merkleRoot P.keccak T := (List.Vector.toList_injective hroot).symm
    obtain ⟨_, e', _, hpre, hwrite, -⟩ := Register.read_eq_some_iff.mp hread
    obtain ⟨e, he, hentry⟩ : ∃ e ∈ pre, proxyPart? e = some e' := by
      refine List.mem_filterMap.mp ?_
      rw [hpre]
      exact List.mem_append_right _ List.mem_cons_self
    obtain ⟨env, ctx, stamp, hinput, rfl⟩ := submitProof_of_claimWrite hentry hwrite
    obtain ⟨i, out⟩ := e
    obtain rfl : i = _ := hinput
    have hsubmit : (.proxy (.call env (.submitProof ctx params)) stamp, out) ∈
        history (Bridge.step D X) (.start proxy ledger) is :=
      hsplit ▸ List.mem_append_left _ he
    refine ⟨mem_leaves_of_processProof (fun hcol => htree (hcol.mono ?_)) hproof, env, ctx, params,
      stamp, out, hsubmit, rfl, rfl, (List.Vector.toList_injective hid).symm⟩
    exact List.append_subset.mpr ⟨fun x hx =>
      List.mem_append_left _ (List.mem_flatMap.mpr ⟨_, hsubmit, hx⟩),
        List.subset_append_right _ _⟩
  · exact (hsubperm.countP_le _).trans (countP_signed_le hP h₀ ledger is u)

end Claims

/-! ### A claim that crosses -/

/-- The claim of the sample user for the sample tree, on its way to the ledger. -/
def sampleClaimPacket : Packet where
  origin := ⟨30168#32, sampleKey 1, 1#64⟩
  guid := sampleKey 60
  message := SolanaVaultOCCMessage.encode ⟨TokenType.placeholder.toU8, sampleUser, 16,
    claimPayload samplePlatform sampleUser (honestParams samplePlatform 7#32 samplePosition)⟩

/-- The proxy is set up, the sample user submits the honest proof and sends the claim, and it is
delivered. -/
def sampleClaimCrossing : List BridgeInput :=
  .proxy (.call sampleEnv (.initProxy sampleInit sampleInitParams)) ⟨1#64, zero32⟩ ::
    sampleConnect ++
    [.proxy (.call sampleEnv (.submitProof ⟨sampleSigner sampleUser, ⟨sampleKey 1, false, false⟩,
        sampleWritable (sampleKey 6), ⟨zero32, false, false⟩⟩
        (honestParams samplePlatform 7#32 samplePosition))) ⟨1#64, zero32⟩,
      .proxy (.call sampleEnv (.sendClaim ⟨sampleSigner sampleUser, sampleWritable (sampleKey 6),
        sampleWritable (sampleKey 1), ⟨sampleKey 5, false, false⟩, ⟨sampleKey 4, false, false⟩,
        ⟨zero32, false, false⟩, []⟩ ⟨2000#64, 0#64⟩)) ⟨1#64, sampleKey 60⟩,
      .verifyOnOrderly sampleClaimPacket,
      .deliver (sampleLedgerEnv (sampleAddress 2)) sampleClaimPacket]

/-- The claim is handed over with the root of the tree, and the sample user is in the tree. -/
theorem claims_entitled_sample :
    (history (Bridge.step sampleDeployment sampleExecutorOptions) (.start sampleFresh sampleLedger)
        sampleClaimCrossing).flatMap (handed sampleDeployment) = [(sampleUser, 16,
          (toBytes32 (n := 4) (7#32).toBeArr).toList ++ (sampleKey 71).toList ++
            (merkleRoot sampleHash sampleTree).toList)] ∧
      (solanaToEvmAddress sampleHash sampleUser, sampleKey 71) ∈ sampleTree.leaves := by
  have hhanded : (history (Bridge.step sampleDeployment sampleExecutorOptions)
      (.start sampleFresh sampleLedger) sampleClaimCrossing).flatMap (handed sampleDeployment) =
        [(sampleUser, 16, (toBytes32 (n := 4) (7#32).toBeArr).toList ++ (sampleKey 71).toList ++
          (merkleRoot sampleHash sampleTree).toList)] := by
    decide +kernel
  have hpayload : ∀ z ∈ ((history (Bridge.step sampleDeployment sampleExecutorOptions)
      (.start sampleFresh sampleLedger) sampleClaimCrossing).flatMap
        (orderlyEvents sampleDeployment)).map (Packet.payload ∘ Channel.Event.message),
      z = sampleClaimPacket.payload := by
    decide +kernel
  have htree : ∀ x ∈ (history (Bridge.step sampleDeployment sampleExecutorOptions)
      (.start sampleFresh sampleLedger) sampleClaimCrossing).flatMap (hashedBy samplePlatform) ++
        hashedInTree sampleHash sampleTree,
      ∀ y ∈ (history (Bridge.step sampleDeployment sampleExecutorOptions)
        (.start sampleFresh sampleLedger) sampleClaimCrossing).flatMap (hashedBy samplePlatform) ++
          hashedInTree sampleHash sampleTree, sampleHash x = sampleHash y → x = y := by
    decide +kernel
  obtain ⟨hentitled, -⟩ := claims_entitled samplePlatform_injective sampleDeployment
    sampleExecutorOptions (fun _ => rfl : sampleFresh.Fresh) sampleLedger sampleClaimCrossing
    (fun ⟨x, hx, y, hy, hne, _⟩ => hne ((hpayload x hx).trans (hpayload y hy).symm)) sampleTree
    fun ⟨x, hx, y, hy, hne, heq⟩ => hne (htree x hx y hy heq)
  have hmem := hentitled sampleUser (toBytes32 (n := 4) (7#32).toBeArr) (sampleKey 71)
    (hhanded ▸ List.mem_singleton_self _)
  exact ⟨hhanded, hmem.1⟩

end Crossing
