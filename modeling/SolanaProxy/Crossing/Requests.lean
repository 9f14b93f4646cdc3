import SolanaProxy.Crossing.Bridge
import SolanaProxy.Proxy.ClaimAuthenticity

/-!
# Requests over runs of the bridge

What the OCC manager is handed of the messages of the proxy, over whole runs of both programs and
the channels between them. Every message that enters the channel in the name of the proxy is what a
user has signed (`sent_sublist_signed`), and what is handed over is what is taken from the channel
(`handed_eq`); so the channel's own law makes of it that requests cross once
(`requests_cross_once`).
-/

namespace Crossing

open Solana Proxy Ledger Machine PayloadTypeChecker SolanaProxyMsgCodec

/-- The sender, the type and the payload that the ledger contract reads in a message. -/
def vaultFields? (message : Bytes) : Option (Pubkey × U8 × Bytes) :=
  (decodeSolanaVaultMessage message).toOption.map fun m => (m.sender, m.payloadType, m.payload)

/-- What it reads in a message of the proxy. -/
def vaultRequest? (D : Deployment) (packet : Packet) : Option (Pubkey × U8 × Bytes) :=
  if D.FromProxy packet then vaultFields? packet.message else none

/-- What an effect hands to the OCC manager, if it does. -/
def handedOver? : Ledger.Effect → Option (Pubkey × U8 × Bytes)
  | .ledgerOappReceive _ m => some (m.sender, m.payloadType, m.payload)
  | _ => none

/-- What an entry of a history hands to the OCC manager of the messages of the proxy. -/
def handed (D : Deployment) : BridgeInput × BridgeOutput → List (Pubkey × U8 × Bytes)
  | (.deliver _ packet, out) => if D.FromProxy packet then out.2.filterMap handedOver? else []
  | _ => []

/-- What the user of a step asks for: a request, or the claim that is pending. -/
def signed? {P : Platform} :
    Bridge P × BridgeInput × BridgeOutput → Option (Pubkey × U8 × Bytes)
  | (_, .proxy (.call _ (.sendRequest ctx params _)) _, _) =>
    some (ctx.user.pubkey, params.payloadType, params.payload)
  | (s, .proxy (.call _ (.sendClaim ctx _)) _, _) =>
    (claimOf P s.proxy.world ctx.user.pubkey).map fun claim =>
      (ctx.user.pubkey, 16, claim.encodeClaimPayload)
  | _ => none

section Vault

variable {P : Platform} {D : Deployment} {X : ExecutorOptions} {s s' : Bridge P}
  {i : BridgeInput} {out : BridgeOutput}

theorem vaultFields?_encode (user : Pubkey) (payloadType : U8) (payload : Bytes) :
    vaultFields? (SolanaVaultOCCMessage.encode
      ⟨TokenType.placeholder.toU8, user, payloadType, payload⟩) =
        some (user, payloadType, payload) := by
  have hdecode : decodeSolanaVaultMessage (SolanaVaultOCCMessage.encode
      ⟨TokenType.placeholder.toU8, user, payloadType, payload⟩) =
        .ok ⟨.placeholder, user, payloadType, payload⟩ := by
    rw [SolanaVaultOCCMessage.encode_eq_bytes]
    exact decodeSolanaVaultMessage_eq_ok.mpr rfl
  rw [vaultFields?, hdecode]
  rfl

/-- What enters the channel is what the proxy hands to its endpoint. -/
theorem sentToOrderly_sublist (stamp : Stamp) (es : List ProxyEffect) :
    ((es.filterMap (sentToOrderly? D stamp)).map Packet.message).Sublist
      ((es.filterMap Effect.sent?).map SendParams.message) := by
  rw [List.map_filterMap, List.map_filterMap]
  induction es with
  | nil => exact .slnil
  | cons e es ih =>
    cases e with
    | endpointSend program sender accounts params =>
      rw [List.filterMap_cons_some (f := fun e => (Effect.sent? e).map SendParams.message) rfl]
      by_cases h : params.dstEid = D.orderlyEid ∧ params.receiver = D.ledgerKey
      · rw [List.filterMap_cons_some (b := params.message) (by simp [sentToOrderly?, h])]
        exact ih.cons_cons _
      · rw [List.filterMap_cons_none (by simp [sentToOrderly?, h])]
        exact ih.cons _
    | _ => exact ih

/-- The claim that `send_claim` loads is the pending one. -/
theorem claimOf_of_load (hP : P.DeriveInjective) {proxy : ProxyState P} {user : Pubkey}
    {a : AccountInfo} {claim : ClaimData}
    (h : loadClaimData P proxy.world user a = .ok claim) :
    claimOf P proxy.world user = some claim := by
  obtain ⟨hload, hseeds⟩ := loadClaimData_eq_ok.mp h
  obtain ⟨-, hfind⟩ := proxy.placed.claimData_eq hP hload hseeds
  rw [claimOf_of_find hfind, World.load_eq_some]
  exact hload

/-- **What is sent** in the name of the proxy is what a user has signed. -/
theorem sent_sublist_signed (hP : P.DeriveInjective) (h : s.step D X i = .ok (s', out)) :
    (((orderlyEvents D (i, out)).filterMap Channel.Event.sent?).filterMap
      (vaultRequest? D)).Sublist (signed? (s, i, out)).toList := by
  obtain ⟨hprograms, -⟩ := Bridge.step_eq_ok.mp h
  cases i with
  | proxy i stamp =>
    obtain ⟨hstep, -⟩ := Bridge.programs_proxy_eq_ok.mp hprograms
    have hread : (((orderlyEvents D (.proxy i stamp, out)).filterMap Channel.Event.sent?).filterMap
        (vaultRequest? D)).Sublist
          (((out.1.filterMap Effect.sent?).map SendParams.message).filterMap vaultFields?) := by
      have hpackets : (orderlyEvents D (.proxy i stamp, out)).filterMap Channel.Event.sent? =
          out.1.filterMap (sentToOrderly? D stamp) := by
        rw [orderlyEvents, List.filterMap_map]
        exact List.filterMap_some
      have hfields : (out.1.filterMap (sentToOrderly? D stamp)).filterMap (vaultRequest? D) =
          (((out.1.filterMap (sentToOrderly? D stamp)).filter fun p => D.FromProxy p).map
            Packet.message).filterMap vaultFields? := by
        rw [List.filterMap_map, List.filterMap_filter]
        refine List.filterMap_congr fun p _ => ?_
        simp only [vaultRequest?, decide_eq_true_eq, Function.comp]
      rw [hpackets, hfields]
      exact ((List.filter_sublist.map _).trans (sentToOrderly_sublist stamp out.1)).filterMap _
    refine hread.trans ?_
    cases i with
    | outside lamports tokens mints =>
      obtain ⟨-, hes⟩ := Prod.mk.inj (Except.ok.inj hstep)
      rw [← hes]
      exact List.nil_sublist _
    | call env i =>
      rcases sent_of_execute (step_call_eq_ok.mp hstep) with hnone | ⟨ctx, fee, sent, claim, rfl, -,
        hsent, hclaim, hmsg⟩ | ⟨ctx, params, fee, sent, rfl, hsent, -, hmsg⟩
      · rw [hnone]
        exact List.nil_sublist _
      · rw [hsent, List.map_singleton, hmsg, ClaimData.message, signed?,
          claimOf_of_load hP hclaim, List.filterMap_cons_some (vaultFields?_encode _ _ _)]
        exact List.Sublist.refl _
      · rw [hsent, List.map_singleton, hmsg, signed?,
          List.filterMap_cons_some (vaultFields?_encode _ _ _)]
        exact List.Sublist.refl _
  | sendToOrderly packet =>
    have hother := Bridge.programs_sendToOrderly hprograms
    simp [orderlyEvents, Channel.Event.sent?, vaultRequest?, hother]
  | _ => exact List.nil_sublist _

/-- **What is handed over** is what is taken from the channel. -/
theorem handed_eq (h : s.step D X i = .ok (s', out)) :
    handed D (i, out) =
      ((orderlyEvents D (i, out)).filterMap Channel.Event.taken?).filterMap (vaultRequest? D) := by
  obtain ⟨hprograms, -⟩ := Bridge.step_eq_ok.mp h
  cases i with
  | deliver e packet =>
    obtain ⟨hstep, -⟩ := Bridge.programs_deliver_eq_ok.mp hprograms
    have htaken : (orderlyEvents D (.deliver e packet, out)).filterMap Channel.Event.taken? =
        [packet] := rfl
    rw [htaken, handed, List.filterMap_cons, vaultRequest?]
    by_cases hfrom : D.FromProxy packet
    · obtain ⟨m, hdelivered, -, hes⟩ := LedgerOApp.delivered_of_step hstep
      have hfields : vaultFields? packet.message = some (m.sender, m.payloadType, m.payload) := by
        rw [vaultFields?, hdelivered.decoded]
        rfl
      rw [if_pos hfrom, if_pos hfrom, hfields, hes]
      rfl
    · rw [if_neg hfrom, if_neg hfrom, List.filterMap_nil]
  | proxy i stamp =>
    rw [orderlyEvents, List.filterMap_map]
    simp [handed, Channel.Event.taken?]
  | _ => rfl

/-- A message is deliverable: whenever the ledger contract can receive from the proxy and its
manager takes the request, the delivery goes through. -/
def Bridge.Deliverable (D : Deployment) (X : ExecutorOptions) (s : Bridge P) (packet : Packet) :
    Prop :=
  ∃ user payloadType payload, vaultFields? packet.message = some (user, payloadType, payload) ∧
    ∀ e, Receives s.ledger e D.proxy packet.origin →
      (s.ledger.manager e).ledgerOappReceive ⟨0#256,
        (s.ledger.manager e).eid2ChainId (s.ledger.manager e).solanaEid, .placeholder, 0#256, user,
        payloadType, payload⟩ = true → ∃ r, s.step D X (.deliver e packet) = .ok r

/-- **What is handed over** of the messages of the proxy is part of what was signed. -/
theorem handed_subperm_signed (hP : P.DeriveInjective) {proxy : ProxyState P} {ledger : LedgerOApp}
    {is : List BridgeInput}
    (hagrees : (run (Bridge.step D X) (.start proxy ledger) is).toOrderly.Agrees (orderlyLabels P)
      ((history (Bridge.step D X) (.start proxy ledger) is).flatMap (orderlyEvents D)))
    (hinj : ∀ p ∈ ((history (Bridge.step D X) (.start proxy ledger) is).flatMap
        (orderlyEvents D)).filterMap Channel.Event.taken?,
      ∀ p' ∈ (run (Bridge.step D X) (.start proxy ledger) is).toOrderly.sent,
        p'.origin = p.origin → P.keccak p'.payload = P.keccak p.payload → p' = p) :
    ((history (Bridge.step D X) (.start proxy ledger) is).flatMap (handed D)).Subperm
      ((transitions (Bridge.step D X) (.start proxy ledger) is).filterMap signed?) := by
  refine Channel.crosses_once Bridge.toOrderly (vaultRequest? D) hagrees hinj
    (fun t ht => ?_) fun t ht => ?_
  · obtain ⟨_, _, s', -, -, hstep⟩ := exists_of_mem_transitions ht
    exact handed_eq hstep
  · obtain ⟨_, _, s', -, -, hstep⟩ := exists_of_mem_transitions ht
    exact sent_sublist_signed hP hstep

end Vault

end Crossing
