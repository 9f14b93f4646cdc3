import SolanaProxy.Crossing.Bridge

/-!
# Orders over runs of the bridge

What the proxy pays for the messages of the ledger, over whole runs of both programs and the
channels between them. Every message that enters the channel in the name of the ledger is what its
OCC manager has ordered (`sent_sublist_ordered`), and what is paid is what is taken from the channel
(`paid_eq`); so an order is paid once (`usdc_paid_once`).
-/

namespace Crossing

open Solana Proxy Ledger Machine PayloadTypeChecker SolanaProxyMsgCodec

section Usdc

variable {P : Platform} {D : Deployment} {X : ExecutorOptions} {s s' : Bridge P}
  {i : BridgeInput} {out : BridgeOutput} {k a mint : Pubkey} {c : ProxyConfig}

/-- The token account and the amount that a message of the ledger names. -/
def ledgerPayment? (P : Platform) (D : Deployment) (mint : Pubkey) (m : ClearParams) :
    Option (Option Pubkey × ℕ) :=
  if D.FromLedger m then do
    let receiver ← SolanaLedgerOCCMessage.getReceiver m.message
    let amount ← usdcAmount? m.message
    return (P.associatedTokenAddress receiver mint P.tokenProgram, amount.toNat)
  else none

/-- What an entry of a history pays for the messages of the ledger: token accounts and amounts. -/
def paid (D : Deployment) : BridgeInput × BridgeOutput → List (Option Pubkey × ℕ)
  | (.proxy (.call _ (.lzReceive ctx params)) _, out) =>
    if D.FromLedger (ctx.clearParams params) then
      (out.1.filterMap Effect.transferred?).map fun x => (some x.2.1, x.2.2)
    else []
  | _ => []

/-- What an entry of a history orders to be paid: the token account of the receiver and the amount
as far as 64 bits hold it. -/
def ordered? (P : Platform) (mint : Pubkey) :
    BridgeInput × BridgeOutput → Option (Option Pubkey × ℕ)
  | (.ledger _ (.call (.ledgerOappSend message)) _, _) =>
    some (P.associatedTokenAddress message.receiver mint P.tokenProgram,
      message.tokenAmount.toNat % 2 ^ 64)
  | _ => none

/-- What the ledger sends names the receiver and the amount it was asked to send. -/
theorem ledgerPayment?_of_accepted {e : Ledger.Env} {l : LedgerOApp} {message : OCCLedgerMessage}
    {solanaEid : U32} {bytes options : Bytes}
    (h : LedgerOApp.Accepted X e l message solanaEid bytes options) {m : ClearParams}
    (hmessage : m.message = bytes) (hfrom : D.FromLedger m) :
    ledgerPayment? P D mint m = some (P.associatedTokenAddress message.receiver mint
      P.tokenProgram, message.tokenAmount.toNat % 2 ^ 64) := by
  have hdecode := decode_of_prepareSend (LedgerOApp.prepareSend_eq_ok.mpr h)
  have hlength : (abiEncodeUint256 message.tokenAmount).length = 32 := by
    rw [abiEncodeUint256, BitVec.length_toBeBytes]
  obtain ⟨word, hword⟩ : ∃ word : ByteArr 32, word.toList = abiEncodeUint256 message.tokenAmount :=
    ⟨⟨_, hlength⟩, List.Vector.toList_mk _ _⟩
  have hread : Bytes.array? 32 (abiEncodeUint256 message.tokenAmount) 0 = some word := by
    have happend := Bytes.array?_append [] word []
    rwa [List.append_nil, List.nil_append, hword] at happend
  have hamount : usdcAmount? bytes = some (SolanaLedgerOCCMessage.getUsdcAmount word) := by
    rw [usdcAmount?, hdecode, Option.bind_eq_bind, Option.bind_some, hread]
    rfl
  rw [ledgerPayment?, if_pos hfrom, hmessage, getReceiver_of_decode hdecode, hamount,
    ← toNat_getUsdcAmount_abiEncode hread]
  rfl

/-- **What the ledger sends** is what its manager has ordered. -/
theorem sent_sublist_ordered (h : s.step D X i = .ok (s', out)) :
    (((solanaEvents D (i, out)).filterMap Channel.Event.sent?).filterMap
      (ledgerPayment? P D mint)).Sublist (ordered? P mint (i, out)).toList := by
  obtain ⟨hprograms, -⟩ := Bridge.step_eq_ok.mp h
  cases i with
  | ledger e tx stamp =>
    obtain ⟨-, hstep, -⟩ := Bridge.programs_ledger_eq_ok hprograms
    have hsent : (solanaEvents D (.ledger e tx stamp, out)).filterMap Channel.Event.sent? =
        out.2.filterMap (sentToSolana? D stamp) := by
      rw [solanaEvents, List.filterMap_map]
      exact List.filterMap_some
    rw [hsent]
    by_cases hsend : ∃ message, tx = .call (.ledgerOappSend message)
    · obtain ⟨message, rfl⟩ := hsend
      obtain ⟨solanaEid, bytes, options, haccepted, -, -, hes⟩ :=
        LedgerOApp.accepted_of_step hstep
      by_cases heid : solanaEid = D.solanaEid
      · have hmessage : sentToSolana? D stamp (.send e.msgValue
            (s.ledger.messagingParams solanaEid bytes options) e.msgSender) =
              some ⟨s.ledger.peers solanaEid, D.orderlyEid, D.ledgerKey, stamp.nonce, stamp.guid,
                bytes⟩ :=
          if_pos heid
        rw [hes, List.filterMap_cons_some hmessage, List.filterMap_nil,
          List.filterMap_cons_some (ledgerPayment?_of_accepted haccepted rfl ⟨rfl, rfl⟩),
          List.filterMap_nil]
        exact List.Sublist.refl _
      · have hnone : sentToSolana? D stamp (.send e.msgValue
            (s.ledger.messagingParams solanaEid bytes options) e.msgSender) = none :=
          if_neg heid
        rw [hes, List.filterMap_cons_none hnone, List.filterMap_nil]
        exact List.nil_sublist _
    · have hnone : out.2.filterMap (sentToSolana? D stamp) = [] := by
        refine List.filterMap_eq_nil_iff.mpr fun effect heffect => ?_
        cases effect with
        | send value params refund =>
          obtain ⟨message, rfl, -⟩ :=
            (LedgerOApp.does_of_perform hstep).authorised.sends value params refund heffect
          exact absurd ⟨message, rfl⟩ hsend
        | _ => rfl
      rw [hnone]
      exact List.nil_sublist _
  | sendToSolana message =>
    have hother := Bridge.programs_sendToSolana hprograms
    simp [solanaEvents, Channel.Event.sent?, ledgerPayment?, hother]
  | proxy i stamp =>
    simp [solanaEvents, List.filterMap_map, Function.comp_def, Channel.Event.sent?]
  | _ => exact List.nil_sublist _

/-- **What is paid** for the ledger is what is taken from the channel. -/
theorem paid_eq (hs : Configured k c s.proxy)
    (ha : P.associatedTokenAddress k c.usdcTokenAccount P.tokenProgram = some a)
    (h : s.step D X i = .ok (s', out)) :
    paid D (i, out) = ((solanaEvents D (i, out)).filterMap Channel.Event.taken?).filterMap
      (ledgerPayment? P D c.usdcTokenAccount) := by
  obtain ⟨hprograms, -⟩ := Bridge.step_eq_ok.mp h
  cases i with
  | proxy i stamp =>
    obtain ⟨hstep, -⟩ := Bridge.programs_proxy_eq_ok.mp hprograms
    have htaken : (solanaEvents D (.proxy i stamp, out)).filterMap Channel.Event.taken? =
        cleared out.1 := by
      rw [solanaEvents, List.filterMap_map]
      exact List.filterMap_some
    rw [htaken]
    rcases cleared_cases hstep with ⟨hcleared, hnone⟩ | ⟨env, ctx, params, amount, rfl, hcleared,
      hamount, htransferred⟩
    · -- nothing is cleared and nothing is paid
      rw [hcleared, List.filterMap_nil]
      cases i with
      | outside lamports tokens mints => rfl
      | call env i =>
        cases i with
        | lzReceive ctx params => rw [paid, hnone, List.map_nil, ite_self]
        | _ => rfl
    · obtain ⟨tr⟩ := LzReceive.nonempty_trace (step_call_eq_ok.mp hstep)
      obtain ⟨-, -, hreceiver⟩ := tr.accounts_eq hs ha
      rw [hcleared, paid, List.filterMap_cons, ledgerPayment?]
      by_cases hfrom : D.FromLedger (ctx.clearParams params)
      · have hread : SolanaLedgerOCCMessage.getReceiver (ctx.clearParams params).message =
            some ctx.receiver.pubkey := tr.accounts.receiver_eq
        have hamount' : usdcAmount? (ctx.clearParams params).message = some amount := hamount
        rw [if_pos hfrom, if_pos hfrom, htransferred, hread, hamount']
        simp [hreceiver]
      · rw [if_neg hfrom, if_neg hfrom, List.filterMap_nil]
  | ledger e tx stamp =>
    rw [solanaEvents, List.filterMap_map]
    simp [paid, Channel.Event.taken?]
  | _ => rfl

/-- The setup of the proxy stays. -/
theorem configured_step (hs : Configured k c s.proxy) (h : s.step D X i = .ok (s', out)) :
    Configured k c s'.proxy := by
  cases Bridge.acts_of_step h with
  | proxy _ _ hstep => exact hs.step hstep
  | ledger _ _ _ _ hproxy => exact hproxy ▸ hs
  | deliver _ _ _ hproxy => exact hproxy ▸ hs
  | channel _ hproxy => exact hproxy ▸ hs

/-- **What is paid** for messages of the ledger is part of what was ordered. -/
theorem paid_subperm_ordered {proxy : ProxyState P} {ledger : LedgerOApp} {is : List BridgeInput}
    (hs : Configured k c proxy)
    (ha : P.associatedTokenAddress k c.usdcTokenAccount P.tokenProgram = some a)
    (hagrees : (run (Bridge.step D X) (.start proxy ledger) is).toSolana.Agrees (solanaLabels P)
      ((history (Bridge.step D X) (.start proxy ledger) is).flatMap (solanaEvents D)))
    (hinj : ∀ m ∈ ((history (Bridge.step D X) (.start proxy ledger) is).flatMap
        (solanaEvents D)).filterMap Channel.Event.taken?,
      ∀ m' ∈ (run (Bridge.step D X) (.start proxy ledger) is).toSolana.sent, m'.slot = m.slot →
        P.keccak m'.payload = P.keccak m.payload → m' = m) :
    ((history (Bridge.step D X) (.start proxy ledger) is).flatMap (paid D)).Subperm
      ((history (Bridge.step D X) (.start proxy ledger) is).filterMap
        (ordered? P c.usdcTokenAccount)) := by
  have hordered : (history (Bridge.step D X) (.start proxy ledger) is).filterMap
      (ordered? P c.usdcTokenAccount) = (transitions (Bridge.step D X) (.start proxy ledger)
        is).filterMap fun t => ordered? P c.usdcTokenAccount t.2 := by
    rw [← map_transitions, List.filterMap_map]
    rfl
  rw [hordered]
  refine Channel.crosses_once Bridge.toSolana (ledgerPayment? P D c.usdcTokenAccount)
    hagrees hinj (fun t ht => ?_) fun t ht => ?_
  · obtain ⟨_, _, s', -, -, hstep⟩ := exists_of_mem_transitions ht
    refine paid_eq ?_ ha hstep
    exact of_mem_transitions (P := fun s : Bridge P => Configured k c s.proxy)
      (fun t _ s' hs h => configured_step hs h) hs ht
  · obtain ⟨_, _, s', -, -, hstep⟩ := exists_of_mem_transitions ht
    exact sent_sublist_ordered hstep

/-- **USDC is paid once for an order.** Take a successful set-up of the proxy and any run of both
programs and the channels between them from there, in which no two of the payloads of messages to
Solana have one hash. Then:

* what the proxy pays for messages of the ledger is, with multiplicities, part of what was ordered:
  the token account of the receiver and the amount as far as 64 bits hold it, so that the sum of
  the payments is bounded by the sum of the orders;
* each of the orders was made by the OCC manager, for USDC;
* a message that was verified is stored until it is cleared. -/
theorem usdc_paid_once {s₀ proxy : ProxyState P} {env₀ : Solana.Env} {ctx₀ : InitProxy}
    {params₀ : InitProxyParams} {es₀ : List ProxyEffect}
    (hinit : Proxy.step P s₀ (.call env₀ (.initProxy ctx₀ params₀)) = .ok (proxy, es₀))
    (ha : P.associatedTokenAddress ctx₀.proxyConfig.pubkey params₀.usdcTokenAccount
      P.tokenProgram = some a)
    (D : Deployment) (X : ExecutorOptions) (ledger : LedgerOApp) (is : List BridgeInput)
    (hcollision : ¬Merkle.Collision P.keccak
      (((history (Bridge.step D X) (.start proxy ledger) is).flatMap (solanaEvents D)).map
        (ClearParams.payload ∘ Channel.Event.message))) :
    ((history (Bridge.step D X) (.start proxy ledger) is).flatMap (paid D)).Subperm
      ((history (Bridge.step D X) (.start proxy ledger) is).filterMap
        (ordered? P params₀.usdcTokenAccount)) ∧
    (((history (Bridge.step D X) (.start proxy ledger) is).flatMap (paid D)).map Prod.snd).sum ≤
      (((history (Bridge.step D X) (.start proxy ledger) is).filterMap
        (ordered? P params₀.usdcTokenAccount)).map Prod.snd).sum ∧
    (∀ t ∈ transitions (Bridge.step D X) (.start proxy ledger) is, ∀ x,
      ordered? P params₀.usdcTokenAccount t.2 = some x → ∃ e message stamp,
        t.2.1 = .ledger e (.call (.ledgerOappSend message)) stamp ∧
          e.msgSender = t.1.ledger.occManagerAddr ∧ message.token = .usdc) ∧
    ∀ message out, (.verifyOnSolana message, out) ∈
        history (Bridge.step D X) (.start proxy ledger) is →
      (run (Bridge.step D X) (.start proxy ledger) is).toSolana.inbox message.slot =
          .holds (P.keccak message.payload) ∨
        ∃ i stamp out', (.proxy i stamp, out') ∈
          history (Bridge.step D X) (.start proxy ledger) is ∧ message ∈ cleared out'.1 := by
  obtain ⟨hagrees, -⟩ := Bridge.agrees_run (D := D) (X := X) proxy ledger is
  have hinj := hagrees.eq_of_labels ClearParams.payload P.keccak (fun _ => rfl)
    (fun _ _ => ClearParams.eq_of_payload_eq) fun x hx y hy heq =>
      (Merkle.eq_or_collision hx hy heq).resolve_right hcollision
  obtain ⟨bump, -, hdata⟩ := configured_of_init hinit
  have hsubperm := paid_subperm_ordered (D := D) (X := X) (c := params₀.config bump)
    ⟨_, hdata, .refl _⟩ ha hagrees hinj
  refine ⟨hsubperm, hsubperm.sum_map_le _, fun t ht x hx => ?_, fun message out hverified => ?_⟩
  · obtain ⟨_, _, s', -, -, hstep⟩ := exists_of_mem_transitions ht
    obtain ⟨s, i, out⟩ := t
    obtain ⟨hprograms, -⟩ := Bridge.step_eq_ok.mp hstep
    cases i with
    | ledger e tx stamp =>
      cases tx with
      | call call =>
        cases call with
        | ledgerOappSend message =>
          obtain ⟨-, hcall, -⟩ := Bridge.programs_ledger_eq_ok hprograms
          obtain ⟨_, _, _, haccepted, -⟩ := LedgerOApp.accepted_of_step hcall
          exact ⟨e, message, stamp, rfl, haccepted.caller, haccepted.token_eq⟩
        | _ => cases hx
      | _ => cases hx
    | _ => cases hx
  · have hverify : .verify message ∈
        (history (Bridge.step D X) (.start proxy ledger) is).flatMap (solanaEvents D) :=
      List.mem_flatMap.mpr ⟨_, hverified, List.mem_singleton_self _⟩
    refine (hagrees.holds_or_mem_taken hverify hinj).imp_right fun htaken => ?_
    rw [Channel.Event.mem_filterMap_taken] at htaken
    obtain ⟨⟨i, out'⟩, hentry, htake⟩ := List.mem_flatMap.mp htaken
    cases i with
    | proxy i stamp =>
      obtain ⟨message', hmem, heq⟩ := List.mem_map.mp htake
      obtain rfl := Channel.Event.take.inj heq
      exact ⟨i, stamp, out', hentry, hmem⟩
    | ledger e tx stamp =>
      obtain ⟨message', -, heq⟩ := List.mem_map.mp htake
      cases heq
    | verifyOnSolana message' => cases List.mem_singleton.mp htake
    | sendToSolana message' => cases List.mem_singleton.mp htake
    | _ => cases htake

end Usdc

/-- The order is paid once. -/
theorem usdc_paid_once_sample :
    (history (Bridge.step sampleDeployment sampleExecutorOptions) (.start sampleProxy sampleLedger)
        sampleExchange).flatMap (paid sampleDeployment) = [(some (sampleKey 10), 5)] ∧
      [(some (sampleKey 10), 5)].Subperm ((history (Bridge.step sampleDeployment
        sampleExecutorOptions) (.start sampleProxy sampleLedger) sampleExchange).filterMap
          (ordered? samplePlatform sampleMint)) := by
  have hpaid : (history (Bridge.step sampleDeployment sampleExecutorOptions)
      (.start sampleProxy sampleLedger) sampleExchange).flatMap (paid sampleDeployment) =
        [(some (sampleKey 10), 5)] := by
    decide +kernel
  have hpayload : ∀ z ∈ ((history (Bridge.step sampleDeployment sampleExecutorOptions)
      (.start sampleProxy sampleLedger) sampleExchange).flatMap
        (solanaEvents sampleDeployment)).map (ClearParams.payload ∘ Channel.Event.message),
      z = ((sampleLzReceive (sampleKey 5)).clearParams sampleOrder).payload := by
    decide +kernel
  obtain ⟨⟨proxy, es⟩, hinit⟩ := Except.exists_of_isOk (x := Proxy.step samplePlatform sampleDonated
    (.call sampleEnv (.initProxy sampleInit sampleInitParams))) (by decide +kernel)
  have hproxy : sampleProxy = proxy := next_of_ok hinit
  rw [hproxy] at hpaid hpayload ⊢
  obtain ⟨honce, -⟩ := usdc_paid_once hinit (a := sampleKey 9) (by decide +kernel) sampleDeployment
    sampleExecutorOptions sampleLedger sampleExchange
    fun ⟨x, hx, y, hy, hne, _⟩ => hne ((hpayload x hx).trans (hpayload y hy).symm)
  rw [hpaid] at honce
  exact ⟨hpaid, honce⟩

end Crossing
