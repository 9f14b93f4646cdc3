import SolanaProxy.Ledger.OApp
import SolanaProxy.Proxy.Run

/-!
# From the proxy to the ledger

What the proxy hands to the endpoint is read by the ledger contract as it was meant:
`vault_messages_cross`. Both codecs write and read the one frame format, so what is left to
check is that their enumerations and their lists of supported types fit together
(`checkVaultPayloadType_of_request`). In the other direction nothing is received but packed
messages of supported types.
-/

namespace Crossing

open Solana Proxy Ledger Machine PayloadTypeChecker SolanaProxyMsgCodec

/-- Every type that can be requested is supported by the ledger. -/
theorem checkVaultPayloadType_of_request {b : U8}
    (h : (PayloadType.fromU8 b).checkRequestPayloadType = true) :
    checkVaultPayloadType b = true := by
  have hbyte : (PayloadType.fromU8 b).toU8 = b := PayloadType.toU8_fromU8_of_request h
  rw [← hbyte]
  generalize PayloadType.fromU8 b = t at h
  cases t <;> first | rfl | exact absurd h (by decide)

/-- A contract that can receive from the proxy: it is called by its endpoint, it is not
paused, the manager knows the chain of Solana, and the proxy is the peer there and the sender
of the message. -/
structure Receives (s : LedgerOApp) (e : Ledger.Env) (proxy : Bytes32) (origin : Origin) :
    Prop where
  caller : s.endpoint = e.msgSender
  unpaused : s.paused = false
  srcEid : origin.srcEid = (s.manager e).solanaEid
  chainId : (s.manager e).eid2ChainId (s.manager e).solanaEid ≠ 0#256
  peer : s.peers origin.srcEid = proxy
  peer_ne_zero : proxy ≠ zeroBytes32
  sender : origin.sender = proxy

/-- A message of the proxy is read as sent by `sender`, with the given type and payload: it
decodes to these fields, its type is supported, and every contract that can receive it hands
exactly them to its OCC manager, whose answer is all that remains. -/
structure Crosses (proxy : Pubkey) (message : Bytes) (sender : Pubkey) (payloadType : U8)
    (payload : Bytes) : Prop where
  decoded : decodeSolanaVaultMessage message = .ok ⟨.placeholder, sender, payloadType, payload⟩
  supported : checkVaultPayloadType payloadType = true
  forwarded : ∀ (s : LedgerOApp) (e : Ledger.Env) (origin : Origin), Receives s e proxy origin →
    s.lzReceive e origin message =
      if (s.manager e).ledgerOappReceive ⟨0#256,
          (s.manager e).eid2ChainId (s.manager e).solanaEid, .placeholder, 0#256, sender,
          payloadType, payload⟩ then
        .ok (s, [.ledgerOappReceive s.occManagerAddr ⟨0#256,
          (s.manager e).eid2ChainId (s.manager e).solanaEid, .placeholder, 0#256, sender,
          payloadType, payload⟩])
      else .error .call

/-- Encoded messages of supported types cross. -/
theorem crosses_encode (proxy sender : Pubkey) {payloadType : U8} (payload : Bytes)
    (htype : checkVaultPayloadType payloadType = true) :
    Crosses proxy
      (SolanaVaultOCCMessage.encode ⟨TokenType.placeholder.toU8, sender, payloadType, payload⟩)
      sender payloadType payload := by
  have hdecode : decodeSolanaVaultMessage
      (SolanaVaultOCCMessage.encode ⟨TokenType.placeholder.toU8, sender, payloadType, payload⟩) =
        .ok ⟨.placeholder, sender, payloadType, payload⟩ := by
    rw [SolanaVaultOCCMessage.encode_eq_bytes]
    exact decodeSolanaVaultMessage_eq_ok.mpr rfl
  refine ⟨hdecode, htype, fun s e origin h => ?_⟩
  -- a peer that is set is not zero, so the lookup does not revert
  have hpeer : s.getPeerOrRevert origin.srcEid = .ok proxy := by
    have hne : s.peers origin.srcEid ≠ zeroBytes32 := by
      rw [h.peer]
      exact h.peer_ne_zero
    rw [LedgerOApp.getPeerOrRevert, Except.require_of_true hne, h.peer]
    rfl
  have hsender : proxy = origin.sender := h.sender.symm
  simp only [LedgerOApp.lzReceive, LedgerOApp.lzReceiveInternal, LedgerOApp.whenNotPaused,
    Except.require_of_true h.caller, hpeer, Except.require_of_true hsender,
    Except.require_of_true h.unpaused, Except.require_of_true h.chainId, hdecode,
    Except.require_of_true htype, if_pos h.srcEid, Except.ok_bind]
  split
  case isTrue htakes => rw [Except.require_of_true htakes]; rfl
  case isFalse htakes => rw [Except.require_of_false htakes]; rfl

/-- **Vault messages survive the crossing.**

* What `send_request` hands to the endpoint is read by the ledger as sent by the user, with
  the requested type and payload.
* What `send_claim` hands to the endpoint is read as sent by the user, of type 16 and with the
  user's claim as payload.
* Whatever a contract receives has the fixed fields, a token byte and a supported type byte,
  and is the packing of what it hands to its OCC manager. -/
theorem vault_messages_cross :
    (∀ (P : Platform) (env : Solana.Env) (w w' : ProxyWorld) (ctx : SendRequest)
        (params : RequestParams) (msgFee : Solana.MessagingFee) (es : List ProxyEffect)
        (receipt : Solana.MessagingReceipt),
      ctx.apply P env w params msgFee = .ok (w', es, receipt) →
      ∃ sent, es.filterMap Effect.sent? = [sent] ∧ Crosses ctx.proxyConfig.pubkey sent.message
        ctx.user.pubkey params.payloadType params.payload) ∧
    (∀ (P : Platform) (env : Solana.Env) (w w' : ProxyWorld) (ctx : SendClaim)
        (msgFee : Solana.MessagingFee) (es : List ProxyEffect)
        (receipt : Solana.MessagingReceipt),
      ctx.apply P env w msgFee = .ok (w', es, receipt) →
      ∃ sent claim, es.filterMap Effect.sent? = [sent] ∧
        loadClaimData P w ctx.user.pubkey ctx.claimData = .ok claim ∧
        Crosses ctx.proxyConfig.pubkey sent.message ctx.user.pubkey 16
          claim.encodeClaimPayload) ∧
    (∀ (s s' : LedgerOApp) (e : Ledger.Env) (origin : Origin) (message : Bytes)
        (es : List Ledger.Effect),
      s.lzReceiveInternal e origin message = .ok (s', es) →
      34 ≤ message.length ∧ (∃ b, message[0]? = some b ∧ b ≤ 3) ∧
        (∃ b, message[33]? = some b ∧ checkVaultPayloadType b = true) ∧
        ∃ m, es = [.ledgerOappReceive s.occManagerAddr m] ∧
          message = [m.token.toUint8] ++ m.sender.toList ++ [m.payloadType] ++ m.payload) := by
  refine ⟨?_, ?_, ?_⟩
  · intro P env w w' ctx params msgFee es receipt h
    obtain ⟨config, fee, sent, hprep, -, hsent, -⟩ := SendRequest.of_apply_eq_ok h
    obtain ⟨peer, fees, hprepared⟩ := SendRequest.prepare_eq_ok.mp hprep
    refine ⟨sent, hsent, ?_⟩
    rw [hprepared.sent_eq]
    exact crosses_encode _ _ _ (checkVaultPayloadType_of_request hprepared.payload_type)
  · intro P env w w' ctx msgFee es receipt h
    obtain ⟨_, _, _, claim, _, sent, hprep, -, hsent, -⟩ := SendClaim.of_apply_eq_ok h
    obtain ⟨peer, fees, hprepared⟩ := SendClaim.of_prepare_eq_ok hprep
    refine ⟨sent, claim, hsent, hprepared.claim_loaded, ?_⟩
    rw [hprepared.sent_eq]
    exact crosses_encode _ _ _ (by decide)
  · intro s s' e origin message es h
    obtain ⟨-, -, -, m, hdecode, htype, -, -, rfl⟩ := LedgerOApp.lzReceiveInternal_eq_ok.mp h
    obtain ⟨hlen, hbyte⟩ := exists_decodeSolanaVaultMessage_iff.mp ⟨m, hdecode⟩
    obtain rfl := decodeSolanaVaultMessage_eq_ok.mp hdecode
    refine ⟨hlen, hbyte, ⟨m.payloadType, m.frame.payloadType_bytes, htype⟩, _, rfl, ?_⟩
    simp only [LedgerOApp.occVaultMessage, SolanaVaultMessage.frame, Frame.bytes,
      List.append_assoc, List.cons_append, List.nil_append]

/-- A contract with the sample deployment as peer. -/
def sampleVaultLedger : LedgerOApp where
  endpoint := List.Vector.replicate 20 2
  peers eid := if eid = 900#32 then sampleKey 1 else zeroBytes32
  owner := List.Vector.replicate 20 3
  paused := false
  occManagerAddr := List.Vector.replicate 20 4
  payloadType2LzOptions _ := ⟨0#128, 0#128⟩
  balance := 0#256

/-- A ledger side whose OCC manager knows the chain of Solana and takes every message. -/
def sampleVaultEnv : Ledger.Env where
  self := List.Vector.replicate 20 1
  msgSender := List.Vector.replicate 20 2
  msgValue := 0#256
  endpoint _ := ⟨fun _ _ => none, fun _ _ _ => none, fun _ => false⟩
  occManager _ := ⟨900#32, fun eid => if eid = 900#32 then 901#256 else 0#256, fun _ => true⟩
  takesTransfer _ _ := true

/-- The sample request reaches the OCC manager as the user made it. -/
theorem vault_messages_cross_sample :
    ∃ w' es receipt sent,
      sampleSendRequest.apply samplePlatform sampleEnv sampleDeployed.world sampleRequest
        ⟨1500#64, 0#64⟩ = .ok (w', es, receipt) ∧ es.filterMap Effect.sent? = [sent] ∧
      sampleVaultLedger.lzReceive sampleVaultEnv ⟨900#32, sampleKey 1, 1#64⟩ sent.message =
        .ok (sampleVaultLedger, [.ledgerOappReceive sampleVaultLedger.occManagerAddr
          ⟨0#256, 901#256, .placeholder, 0#256, sampleUser, 4, [1, 2, 3]⟩]) := by
  obtain ⟨⟨w', es, receipt⟩, hsend⟩ := Except.exists_of_isOk (x := sampleSendRequest.apply
    samplePlatform sampleEnv sampleDeployed.world sampleRequest ⟨1500#64, 0#64⟩)
    (by decide +kernel)
  obtain ⟨hrequest, -, -⟩ := vault_messages_cross
  obtain ⟨sent, hsent, hcross⟩ := hrequest _ _ _ _ _ _ _ _ _ hsend
  have hready : Receives sampleVaultLedger sampleVaultEnv (sampleKey 1)
      ⟨900#32, sampleKey 1, 1#64⟩ :=
    ⟨rfl, rfl, rfl, by decide, rfl, by decide, rfl⟩
  exact ⟨w', es, receipt, sent, hsend, hsent, hcross.forwarded _ _ _ hready⟩

end Crossing
