import SolanaProxy.Crossing.Usdc
import SolanaProxy.Crossing.Vault
import SolanaProxy.General.Channel
import SolanaProxy.Ledger.Authority
import SolanaProxy.Proxy.Delivery

/-!
# The proxy and the ledger together

A `Bridge` is the proxy program, the ledger contract, and the two channels between them. Anybody
calls either program with any accounts and parameters, messages are verified and delivered in any
order, and others send messages to both sides; only what a program hands to its endpoint enters a
channel under the name of that program, and only what a channel has stored is delivered.
-/

namespace Crossing

open Solana Proxy Ledger Machine PayloadTypeChecker SolanaProxyMsgCodec

/-! ### The channels -/

/-- A message to the ledger contract. -/
structure Packet where
  origin : Origin
  guid : ByteArr 32
  message : Bytes
deriving DecidableEq

/-- The payload the endpoint hashes: the identifier, then the message. -/
def Packet.payload (p : Packet) : Bytes := p.guid.toList ++ p.message

/-- A message is known by where it comes from and its payload. -/
theorem Packet.eq_of_payload_eq {p p' : Packet} (horigin : p.origin = p'.origin)
    (hpayload : p.payload = p'.payload) : p = p' := by
  obtain ⟨origin, guid, message⟩ := p
  obtain ⟨origin', guid', message'⟩ := p'
  obtain rfl : origin = origin' := horigin
  have hlength : guid.toList.length = guid'.toList.length := by
    rw [List.Vector.toList_length, List.Vector.toList_length]
  obtain ⟨hguid, rfl⟩ := List.append_inj hpayload hlength
  obtain rfl : guid = guid' := List.Vector.eq _ _ hguid
  rfl

/-- The endpoints store the hash of a payload. -/
def solanaLabels (P : Platform) : Channel.Labels ClearParams PayloadSlot (ByteArr 32) :=
  ⟨ClearParams.slot, fun m => P.keccak m.payload⟩

/-- A packet to Orderly belongs to its origin; what is stored of it is the hash of its payload. -/
def orderlyLabels (P : Platform) : Channel.Labels Packet Origin (ByteArr 32) :=
  ⟨Packet.origin, fun p => P.keccak p.payload⟩

/-- Where the two programs are: their endpoint ids and addresses. -/
structure Deployment where
  solanaEid : U32
  orderlyEid : U32
  proxy : Pubkey
  ledger : Address

namespace Deployment

variable (D : Deployment)

/-- The address of the ledger contract as the other chain knows it. -/
def ledgerKey : Bytes32 := toBytes32 D.ledger (Nat.le_add_right 20 12)

/-- The message names the ledger on Orderly as its sender. -/
def FromLedger (m : ClearParams) : Prop := m.srcEid = D.orderlyEid ∧ m.sender = D.ledgerKey

/-- The packet names the proxy on Solana as its sender. -/
def FromProxy (p : Packet) : Prop := p.origin.srcEid = D.solanaEid ∧ p.origin.sender = D.proxy

instance : DecidablePred D.FromLedger := fun _ => inferInstanceAs (Decidable (_ ∧ _))

instance : DecidablePred D.FromProxy := fun _ => inferInstanceAs (Decidable (_ ∧ _))

end Deployment

/-- The message that enters the channel to the ledger with an effect of the proxy, if one does. -/
def sentToOrderly? (D : Deployment) (stamp : Stamp) : ProxyEffect → Option Packet
  | .endpointSend _ sender _ params =>
    if params.dstEid = D.orderlyEid ∧ params.receiver = D.ledgerKey then
      some ⟨⟨D.solanaEid, sender, stamp.nonce⟩, stamp.guid, params.message⟩
    else none
  | _ => none

/-- The message that enters the channel to Solana with an effect of the ledger, if one does. -/
def sentToSolana? (D : Deployment) (stamp : Stamp) : Ledger.Effect → Option ClearParams
  | .send _ params _ =>
    if params.dstEid = D.solanaEid then
      some ⟨params.receiver, D.orderlyEid, D.ledgerKey, stamp.nonce, stamp.guid, params.message⟩
    else none
  | _ => none

/-! ### The machine -/

/-- The two programs and the channels between them. -/
structure Bridge (P : Platform) where
  proxy : ProxyState P
  ledger : LedgerOApp
  toSolana : Channel ClearParams PayloadSlot (ByteArr 32)
  toOrderly : Channel Packet Origin (ByteArr 32)

/-- What happens: an input of the proxy, a transaction of the ledger contract, a delivery to it, the
verification of a message on either side, or a message of somebody else to either side. -/
inductive BridgeInput where
  | proxy (i : Proxy.Input) (stamp : Stamp)
  | ledger (e : Ledger.Env) (tx : LedgerOApp.Transaction) (stamp : Stamp)
  | deliver (e : Ledger.Env) (packet : Packet)
  | verifyOnSolana (message : ClearParams)
  | verifyOnOrderly (packet : Packet)
  | sendToSolana (message : ClearParams)
  | sendToOrderly (packet : Packet)

/-- The effects of both programs. -/
abbrev BridgeOutput := List ProxyEffect × List Ledger.Effect

/-- Why an input changes nothing. -/
inductive Refused where
  | proxy (e : Failure ProxyError)
  | ledger (e : Revert)
  | channel
  | notAllowed

/-- What an entry of a history is for the channel to Solana. -/
def solanaEvents (D : Deployment) :
    BridgeInput × BridgeOutput → List (Channel.Event ClearParams)
  | (.proxy _ _, out) => (cleared out.1).map .take
  | (.ledger _ _ stamp, out) => (out.2.filterMap (sentToSolana? D stamp)).map .send
  | (.verifyOnSolana message, _) => [.verify message]
  | (.sendToSolana message, _) => [.send message]
  | _ => []

/-- What an entry of a history is for the channel to the ledger. -/
def orderlyEvents (D : Deployment) : BridgeInput × BridgeOutput → List (Channel.Event Packet)
  | (.proxy _ stamp, out) => (out.1.filterMap (sentToOrderly? D stamp)).map .send
  | (.deliver _ packet, _) => [.take packet]
  | (.verifyOnOrderly packet, _) => [.verify packet]
  | (.sendToOrderly packet, _) => [.send packet]
  | _ => []

namespace Bridge

variable {P : Platform}

/-- Nothing was sent yet. -/
def start (proxy : ProxyState P) (ledger : LedgerOApp) : Bridge P :=
  ⟨proxy, ledger, Channel.start, Channel.start⟩

/-- What an input does to the programs. The endpoint calls the ledger contract with deliveries
only, and nobody else sends in the name of a program. -/
def programs (D : Deployment) (X : ExecutorOptions) (s : Bridge P) :
    BridgeInput → Except Refused (ProxyState P × LedgerOApp × BridgeOutput)
  | .proxy i _ => do
    let (proxy, es) ← (Proxy.step P s.proxy i).mapError .proxy
    return (proxy, s.ledger, es, [])
  | .ledger _ (.call (.lzReceive ..)) _ => .error .notAllowed
  | .ledger e tx _ => do
    let (ledger, es) ← (LedgerOApp.perform X s.ledger ({ e with self := D.ledger }, tx)).mapError
      .ledger
    return (s.proxy, ledger, [], es)
  | .deliver e packet => do
    let (ledger, es) ← (LedgerOApp.step X s.ledger ({ e with self := D.ledger },
      .lzReceive packet.origin packet.message)).mapError .ledger
    return (s.proxy, ledger, [], es)
  | .sendToSolana message => do
    Except.require (¬D.FromLedger message) .notAllowed
    return (s.proxy, s.ledger, [], [])
  | .sendToOrderly packet => do
    Except.require (¬D.FromProxy packet) .notAllowed
    return (s.proxy, s.ledger, [], [])
  | .verifyOnSolana _ => .ok (s.proxy, s.ledger, [], [])
  | .verifyOnOrderly _ => .ok (s.proxy, s.ledger, [], [])

/-- One input. What it is for the channels has to be possible, or it fails as a whole: an endpoint
clears and delivers only what is stored. -/
def step (D : Deployment) (X : ExecutorOptions) (s : Bridge P) (i : BridgeInput) :
    Except Refused (Bridge P × BridgeOutput) := do
  let (proxy, ledger, out) ← s.programs D X i
  let toSolana ← Except.ofOption .channel
    (s.toSolana.play (solanaLabels P) (solanaEvents D (i, out)))
  let toOrderly ← Except.ofOption .channel
    (s.toOrderly.play (orderlyLabels P) (orderlyEvents D (i, out)))
  return (⟨proxy, ledger, toSolana, toOrderly⟩, out)

section Step

variable {D : Deployment} {X : ExecutorOptions} {s s' : Bridge P} {i : BridgeInput}
  {out : BridgeOutput}

theorem step_eq_ok : s.step D X i = .ok (s', out) ↔
    s.programs D X i = .ok (s'.proxy, s'.ledger, out) ∧
      s.toSolana.play (solanaLabels P) (solanaEvents D (i, out)) = some s'.toSolana ∧
      s.toOrderly.play (orderlyLabels P) (orderlyEvents D (i, out)) = some s'.toOrderly := by
  simp only [step, Except.bind_eq_ok, Except.ofOption_eq_ok, Except.pure_eq_ok, Prod.mk.injEq]
  constructor
  · rintro ⟨⟨proxy, ledger, out⟩, hprograms, toSolana, hsolana, toOrderly, horderly, rfl, rfl⟩
    exact ⟨hprograms, hsolana, horderly⟩
  · rintro ⟨hprograms, hsolana, horderly⟩
    exact ⟨_, hprograms, _, hsolana, _, horderly, rfl, rfl⟩

theorem programs_proxy_eq_ok {i : Proxy.Input} {stamp : Stamp} {proxy : ProxyState P}
    {ledger : LedgerOApp} : s.programs D X (.proxy i stamp) = .ok (proxy, ledger, out) ↔
      Proxy.step P s.proxy i = .ok (proxy, out.1) ∧ ledger = s.ledger ∧ out.2 = [] := by
  obtain ⟨es, es'⟩ := out
  simp only [programs, Except.bind_eq_ok, Except.mapError_eq_ok, Except.pure_eq_ok, Prod.mk.injEq]
  constructor
  · rintro ⟨_, h, rfl, rfl, rfl, rfl⟩
    exact ⟨h, rfl, rfl⟩
  · rintro ⟨h, rfl, rfl⟩
    exact ⟨_, h, rfl, rfl, rfl, rfl⟩

/-- A transaction of the ledger contract is not a delivery. -/
theorem programs_ledger_eq_ok {e : Ledger.Env} {tx : LedgerOApp.Transaction} {stamp : Stamp}
    {proxy : ProxyState P} {ledger : LedgerOApp}
    (h : s.programs D X (.ledger e tx stamp) = .ok (proxy, ledger, out)) :
    (∀ origin message, tx ≠ .call (.lzReceive origin message)) ∧
      LedgerOApp.perform X s.ledger ({ e with self := D.ledger }, tx) = .ok (ledger, out.2) ∧
      proxy = s.proxy ∧ out.1 = [] := by
  obtain ⟨es, es'⟩ := out
  have htx : ∀ origin message, tx ≠ .call (.lzReceive origin message) := by
    rintro origin message rfl
    cases h
  rw [programs] at h
  · simp only [Except.bind_eq_ok, Except.mapError_eq_ok, Except.pure_eq_ok, Prod.mk.injEq] at h
    obtain ⟨_, h, rfl, rfl, rfl, rfl⟩ := h
    exact ⟨htx, h, rfl, rfl⟩
  · exact htx

theorem programs_deliver_eq_ok {e : Ledger.Env} {packet : Packet} {proxy : ProxyState P}
    {ledger : LedgerOApp} : s.programs D X (.deliver e packet) = .ok (proxy, ledger, out) ↔
      LedgerOApp.step X s.ledger
        ({ e with self := D.ledger }, .lzReceive packet.origin packet.message) =
          .ok (ledger, out.2) ∧ proxy = s.proxy ∧ out.1 = [] := by
  obtain ⟨es, es'⟩ := out
  simp only [programs, Except.bind_eq_ok, Except.mapError_eq_ok, Except.pure_eq_ok, Prod.mk.injEq]
  constructor
  · rintro ⟨_, h, rfl, rfl, rfl, rfl⟩
    exact ⟨h, rfl, rfl⟩
  · rintro ⟨h, rfl, rfl⟩
    exact ⟨_, h, rfl, rfl, rfl, rfl⟩

/-- What is sent by others does not come from a program. -/
theorem programs_sendToSolana {message : ClearParams} {proxy : ProxyState P} {ledger : LedgerOApp}
    (h : s.programs D X (.sendToSolana message) = .ok (proxy, ledger, out)) :
    ¬D.FromLedger message := by
  simp only [programs, Except.bind_eq_ok, Except.require_eq_ok] at h
  obtain ⟨-, h, -⟩ := h
  exact h

theorem programs_sendToOrderly {packet : Packet} {proxy : ProxyState P} {ledger : LedgerOApp}
    (h : s.programs D X (.sendToOrderly packet) = .ok (proxy, ledger, out)) :
    ¬D.FromProxy packet := by
  simp only [programs, Except.bind_eq_ok, Except.require_eq_ok] at h
  obtain ⟨-, h, -⟩ := h
  exact h

/-- What a step does to the programs. -/
inductive Acts (D : Deployment) (X : ExecutorOptions) (s s' : Bridge P) :
    BridgeInput → BridgeOutput → Prop
  | proxy (j : Proxy.Input) (stamp : Stamp) {es : List ProxyEffect}
      (hstep : Proxy.step P s.proxy j = .ok (s'.proxy, es)) (hledger : s'.ledger = s.ledger) :
      Acts D X s s' (.proxy j stamp) (es, [])
  | ledger (e : Ledger.Env) (tx : LedgerOApp.Transaction) (stamp : Stamp) {es : List Ledger.Effect}
      (hstep : LedgerOApp.perform X s.ledger ({ e with self := D.ledger }, tx) =
        .ok (s'.ledger, es)) (hproxy : s'.proxy = s.proxy)
      (htx : ∀ origin message, tx ≠ .call (.lzReceive origin message)) :
      Acts D X s s' (.ledger e tx stamp) ([], es)
  | deliver (e : Ledger.Env) (packet : Packet) {es : List Ledger.Effect}
      (hstep : LedgerOApp.step X s.ledger
        ({ e with self := D.ledger }, .lzReceive packet.origin packet.message) =
          .ok (s'.ledger, es)) (hproxy : s'.proxy = s.proxy) :
      Acts D X s s' (.deliver e packet) ([], es)
  | channel (i : BridgeInput) (hproxy : s'.proxy = s.proxy) (hledger : s'.ledger = s.ledger)
      (hproxyInput : ∀ j stamp, i ≠ .proxy j stamp) (hdeliver : ∀ e packet, i ≠ .deliver e packet) :
      Acts D X s s' i ([], [])

/-- **One step** is one of a program, or of the channels alone. -/
theorem acts_of_step (h : s.step D X i = .ok (s', out)) : Acts D X s s' i out := by
  obtain ⟨hprograms, -⟩ := step_eq_ok.mp h
  obtain ⟨es, es'⟩ := out
  cases i with
  | proxy j stamp =>
    obtain ⟨hstep, hledger, rfl⟩ := programs_proxy_eq_ok.mp hprograms
    exact .proxy j stamp hstep hledger
  | ledger e tx stamp =>
    obtain ⟨htx, hstep, hproxy, rfl⟩ := programs_ledger_eq_ok hprograms
    exact .ledger e tx stamp hstep hproxy htx
  | deliver e packet =>
    obtain ⟨hstep, hproxy, rfl⟩ := programs_deliver_eq_ok.mp hprograms
    exact .deliver e packet hstep hproxy
  | sendToSolana message | sendToOrderly packet =>
    simp only [programs, Except.bind_eq_ok, Except.pure_eq_ok, Prod.mk.injEq] at hprograms
    obtain ⟨-, -, hproxy, hledger, rfl, rfl⟩ := hprograms
    exact .channel _ hproxy.symm hledger.symm (by simp) (by simp)
  | verifyOnSolana message | verifyOnOrderly packet =>
    simp only [programs, Except.ok.injEq, Prod.mk.injEq] at hprograms
    obtain ⟨hproxy, hledger, rfl, rfl⟩ := hprograms
    exact .channel _ hproxy.symm hledger.symm (by simp) (by simp)

end Step

/-! ### The channels over runs -/

section Channels

variable {D : Deployment} {X : ExecutorOptions}

/-- Both channels are what the history makes of them. -/
theorem agrees_run (proxy : ProxyState P) (ledger : LedgerOApp) (is : List BridgeInput) :
    (run (step D X) (.start proxy ledger) is).toSolana.Agrees (solanaLabels P)
        ((history (step D X) (.start proxy ledger) is).flatMap (solanaEvents D)) ∧
      (run (step D X) (.start proxy ledger) is).toOrderly.Agrees (orderlyLabels P)
        ((history (step D X) (.start proxy ledger) is).flatMap (orderlyEvents D)) := by
  constructor
  · refine Channel.agrees_run Bridge.toSolana (fun s i s' out h => ?_) rfl is
    exact (step_eq_ok.mp h).2.1
  · refine Channel.agrees_run Bridge.toOrderly (fun s i s' out h => ?_) rfl is
    exact (step_eq_ok.mp h).2.2

end Channels

end Bridge

/-! ### A message in each direction -/

/-- One proxy and one ledger contract, each under the other's endpoint id. -/
def sampleDeployment : Deployment where
  solanaEid := 30168#32
  orderlyEid := sampleEid
  proxy := sampleKey 1
  ledger := sampleAddress 1

/-- The request of the sample user, on its way to the ledger. -/
def samplePacket : Packet where
  origin := ⟨30168#32, sampleKey 1, 1#64⟩
  guid := sampleKey 60
  message := SolanaVaultOCCMessage.encode
    ⟨TokenType.placeholder.toU8, sampleUser, sampleRequest.payloadType, sampleRequest.payload⟩

/-- The order of five units for the sample receiver, on its way to Solana. -/
def sampleOrder : LzReceiveParams :=
  { sampleUsdcParams 5#256 with sender := sampleDeployment.ledgerKey }

/-- The ledger becomes the peer of the proxy. -/
def sampleConnect : List BridgeInput :=
  [.proxy (.call sampleEnv (.setBackwardFee ⟨sampleSigner sampleAdmin, ⟨sampleKey 1, false, false⟩,
      sampleWritable (sampleKey 4), ⟨zero32, false, false⟩⟩ ⟨500#64, 700#64⟩)) ⟨1#64, zero32⟩,
    .proxy (.call sampleEnv (.setPeerConfig ⟨sampleSigner sampleAdmin, sampleWritable (sampleKey 5),
      ⟨sampleKey 1, false, false⟩, ⟨zero32, false, false⟩⟩
      ⟨sampleEid, .peerAddress sampleDeployment.ledgerKey⟩)) ⟨1#64, zero32⟩]

/-- The request and the order are sent, verified, and each delivered twice. -/
def sampleExchange : List BridgeInput :=
  sampleConnect ++
    [.proxy (.call sampleEnv (.sendRequest sampleSendRequest sampleRequest ⟨1500#64, 0#64⟩))
        ⟨1#64, sampleKey 60⟩,
      .ledger { sampleLedgerEnv (sampleAddress 4) with msgValue := 500000#256 }
        (.call (.ledgerOappSend (sampleUsdcMessage 5#256))) ⟨1#64, sampleKey 60⟩,
      .verifyOnOrderly samplePacket,
      .verifyOnSolana ((sampleLzReceive (sampleKey 5)).clearParams sampleOrder)] ++
    List.replicate 2 (.deliver (sampleLedgerEnv (sampleAddress 2)) samplePacket) ++
    List.replicate 2 (.proxy (.call sampleEnv (.lzReceive (sampleLzReceive (sampleKey 5))
      sampleOrder)) ⟨1#64, zero32⟩)

/-- The proxy of the sample, set up with 1000 units in its token account. -/
def sampleProxy : ProxyState samplePlatform :=
  run (Proxy.step samplePlatform) sampleDonated [.call sampleEnv (.initProxy sampleInit
    sampleInitParams)]

end Crossing
