import SolanaProxy.Ledger.Quote

/-!
# Authority and ether of the ledger contract

A `Transaction` is a call, the setting of several peers, or the owner handing the contract over.
`Does` says once what a successful one does: the functions of the owner, a delivery of the
endpoint, and a message of the OCC manager, each with its guards, the state it leaves and its
effects (`does_of_perform`). What holds over whole runs is read off it.

`authority` is about who may do what: only the owner changes what is stored or takes the balance,
only the OCC manager sends, only the endpoint delivers, and only what a peer sent while the
contract is not paused. `ether_accounted` is about the balance: what comes in with calls is kept,
withdrawn, or handed on with a message.
-/

namespace Ledger

open Machine PayloadTypeChecker SolanaProxyMsgCodec

namespace LedgerOApp

/-! ### Transactions -/

/-- What `peers` is after the peers of a list of endpoint ids are set in its order. -/
def setAll (peers : U32 → Bytes32) (l : List (U32 × Bytes32)) : U32 → Bytes32 :=
  l.foldl (fun peers p => Function.update peers p.1 p.2) peers

/-- `setPeers`: the peers of a list of endpoint ids. -/
def setPeers (e : Env) (s : LedgerOApp) (eids : List U32) (peers : List Bytes32) :
    Except Revert (LedgerOApp × List Effect) := do
  s.onlyOwner e
  Except.require (eids.length = peers.length) (.reason "OAppCore: Invalid input length")
  return ({ s with peers := setAll s.peers (eids.zip peers) }, [])

/-- What the owner does with `transferOwnership` and, for the zero address, `renounceOwnership`. -/
def handOver (e : Env) (s : LedgerOApp) (newOwner : Address) :
    Except Revert (LedgerOApp × List Effect) := do
  s.onlyOwner e
  return ({ s with owner := newOwner }, [])

/-- What can be done with the contract: a call, a list of peers set at once, or a new owner. -/
inductive Transaction where
  | call (call : Call)
  | setPeers (eids : List U32) (peers : List Bytes32)
  | handOver (newOwner : Address)

/-- One transaction in an environment. -/
def perform (X : ExecutorOptions) (s : LedgerOApp) :
    Env × Transaction → Except Revert (LedgerOApp × List Effect)
  | (e, .call call) => s.step X (e, call)
  | (e, .setPeers eids peers) => do
    nonPayable e
    s.setPeers e eids peers
  | (e, .handOver newOwner) => do
    nonPayable e
    s.handOver e newOwner

/-! ### What a transaction does -/

/-- The owner calls, and sends no value. -/
structure ByOwner (e : Env) (s : LedgerOApp) : Prop where
  caller : e.msgSender = s.owner
  value : e.msgValue = 0#256

/-- The endpoint delivers what a peer on Solana has sent, to a contract that is not paused. -/
structure Delivered (e : Env) (s : LedgerOApp) (origin : Origin) (message : Bytes)
    (m : SolanaVaultMessage) : Prop where
  caller : s.endpoint = e.msgSender
  peer_ne_zero : s.peers origin.srcEid ≠ zeroBytes32
  peer : s.peers origin.srcEid = origin.sender
  unpaused : s.paused = false
  srcEid : origin.srcEid = (s.manager e).solanaEid
  chain_ne_zero : (s.manager e).eid2ChainId (s.manager e).solanaEid ≠ 0#256
  decoded : decodeSolanaVaultMessage message = .ok m
  payload_type : checkVaultPayloadType m.payloadType = true

/-- What is handed to the endpoint for a message of the OCC manager. -/
def messagingParams (s : LedgerOApp) (solanaEid : U32) (bytes options : Bytes) : MessagingParams :=
  ⟨solanaEid, s.peers solanaEid, bytes, options, false⟩

/-- A successful transaction, with the state it leaves and its effects. -/
inductive Does (X : ExecutorOptions) (e : Env) (s : LedgerOApp) :
    Transaction → LedgerOApp → List Effect → Prop
  | setOCCManagerAddr (h : ByOwner e s) (occManagerAddr : Address) :
    Does X e s (.call (.setOCCManagerAddr occManagerAddr))
      { s with occManagerAddr := occManagerAddr } []
  | setOptions (h : ByOwner e s) (payloadType : U8) (gas value : U128)
      (htype : checkLedgerPayloadType payloadType = true) :
    Does X e s (.call (.setOptions payloadType gas value))
      { s with payloadType2LzOptions :=
          Function.update s.payloadType2LzOptions payloadType ⟨gas, value⟩ } []
  | withdrawTo (h : ByOwner e s) (dst : Address) :
    Does X e s (.call (.withdrawTo dst)) { s with balance := 0#256 } [.transfer dst s.balance]
  | setPeer (h : ByOwner e s) (eid : U32) (peer : Bytes32) :
    Does X e s (.call (.setPeer eid peer)) { s with peers := Function.update s.peers eid peer } []
  | setPeers (h : ByOwner e s) (eids : List U32) (peers : List Bytes32) :
    Does X e s (.setPeers eids peers) { s with peers := setAll s.peers (eids.zip peers) } []
  | handOver (h : ByOwner e s) (newOwner : Address) :
    Does X e s (.handOver newOwner) { s with owner := newOwner } []
  | setDelegate (h : ByOwner e s) (delegate : Address) :
    Does X e s (.call (.setDelegate delegate)) s [.setDelegate delegate]
  | pause (h : ByOwner e s) (hp : s.paused = false) :
    Does X e s (.call .pause) { s with paused := true } []
  | unpause (h : ByOwner e s) (hp : s.paused = true) :
    Does X e s (.call .unpause) { s with paused := false } []
  | lzReceive (origin : Origin) (message : Bytes) (m : SolanaVaultMessage)
      (h : Delivered e s origin message m) :
    Does X e s (.call (.lzReceive origin message)) (s.receiveValue e)
      [.ledgerOappReceive s.occManagerAddr (s.occVaultMessage e m)]
  | ledgerOappSend (message : OCCLedgerMessage) (solanaEid : U32) (bytes options : Bytes)
      (h : Accepted X e s message solanaEid bytes options)
      (hpeer : s.peers solanaEid ≠ zeroBytes32) :
    Does X e s (.call (.ledgerOappSend message)) s
      [.send e.msgValue (s.messagingParams solanaEid bytes options) e.msgSender]

section Step

variable {X : ExecutorOptions} {e : Env} {s s' : LedgerOApp} {es : List Effect}

theorem getPeerOrRevert_eq_ok {eid : U32} {peer : Bytes32} :
    s.getPeerOrRevert eid = .ok peer ↔ s.peers eid ≠ zeroBytes32 ∧ peer = s.peers eid := by
  simp only [getPeerOrRevert, Except.bind_eq_ok, Except.require_eq_ok, Except.pure_eq_ok]
  constructor
  · rintro ⟨_, hne, hpeer⟩
    exact ⟨hne, hpeer.symm⟩
  · rintro ⟨hne, hpeer⟩
    exact ⟨(), hne, hpeer.symm⟩

/-- **A delivery** that goes through. -/
theorem delivered_of_lzReceive {origin : Origin} {message : Bytes}
    (h : s.lzReceive e origin message = .ok (s', es)) :
    ∃ m, Delivered e s origin message m ∧ s' = s ∧
      es = [.ledgerOappReceive s.occManagerAddr (s.occVaultMessage e m)] := by
  simp only [lzReceive, Except.bind_eq_ok, Except.require_eq_ok, getPeerOrRevert_eq_ok] at h
  obtain ⟨-, hcaller, _, ⟨hne, rfl⟩, -, hpeer, h⟩ := h
  obtain ⟨hpaused, heid, hchain, m, hdecode, htype, -, rfl, rfl⟩ := lzReceiveInternal_eq_ok.mp h
  exact ⟨m, ⟨hcaller, hne, hpeer, hpaused, heid, hchain, hdecode, htype⟩, rfl, rfl⟩

/-- **A message** that is sent takes along what came with the call. -/
theorem accepted_of_ledgerOappSend {message : OCCLedgerMessage}
    (h : s.ledgerOappSend X e message = .ok (s', es)) :
    ∃ solanaEid bytes options, Accepted X e s message solanaEid bytes options ∧
      s.peers solanaEid ≠ zeroBytes32 ∧ s' = { s with balance := s.balance - e.msgValue } ∧
      es = [.send e.msgValue (s.messagingParams solanaEid bytes options) e.msgSender] := by
  simp only [ledgerOappSend, lzSend, payNative, Except.bind_eq_ok, Except.pure_eq_ok,
    getPeerOrRevert_eq_ok, Prod.mk.injEq] at h
  obtain ⟨⟨solanaEid, bytes, options⟩, hprep, _, -, -, -, _, ⟨-, -, rfl⟩, _, ⟨hne, rfl⟩, _, -, rfl,
    rfl⟩ := h
  exact ⟨solanaEid, bytes, options, prepareSend_eq_ok.mp hprep, hne, rfl, rfl⟩

/-- What comes in with a call and goes out again leaves the contract as it was. -/
theorem receiveValue_sub : { s.receiveValue e with
    balance := (s.receiveValue e).balance - e.msgValue } = s := by
  have hbalance : s.balance + e.msgValue - e.msgValue = s.balance := by
    rw [BitVec.add_sub_cancel]
  simp only [receiveValue, hbalance]

/-- The same, for the whole call. -/
theorem delivered_of_step {origin : Origin} {message : Bytes}
    (h : step X s (e, .lzReceive origin message) = .ok (s', es)) :
    ∃ m, Delivered e s origin message m ∧ s' = s.receiveValue e ∧
      es = [.ledgerOappReceive s.occManagerAddr (s.occVaultMessage e m)] := by
  obtain ⟨m, hdelivered, rfl, rfl⟩ := delivered_of_lzReceive h
  exact ⟨m, ⟨hdelivered.caller, hdelivered.peer_ne_zero, hdelivered.peer, hdelivered.unpaused,
    hdelivered.srcEid, hdelivered.chain_ne_zero, hdelivered.decoded, hdelivered.payload_type⟩,
    rfl, rfl⟩

theorem accepted_of_step {message : OCCLedgerMessage}
    (h : step X s (e, .ledgerOappSend message) = .ok (s', es)) :
    ∃ solanaEid bytes options, Accepted X e s message solanaEid bytes options ∧
      s.peers solanaEid ≠ zeroBytes32 ∧ s' = s ∧
      es = [.send e.msgValue (s.messagingParams solanaEid bytes options) e.msgSender] := by
  obtain ⟨solanaEid, bytes, options, ha, hpeer, rfl, rfl⟩ := accepted_of_ledgerOappSend h
  exact ⟨solanaEid, bytes, options, ⟨ha.caller, ha.eid_ne_zero, ha.chain_ne_zero, ha.payload_type,
    ha.dst_chain, ha.token_eq, ha.eid_eq, ha.bytes_eq, ha.options_ok⟩, hpeer, receiveValue_sub, rfl⟩

/-- A call that succeeds does what `Does` says. -/
private theorem does_of_step {call : Call} (h : step X s (e, call) = .ok (s', es)) :
    Does X e s (.call call) s' es := by
  cases call with
  | lzReceive origin message =>
    obtain ⟨m, hdelivered, rfl, rfl⟩ := delivered_of_step h
    exact .lzReceive origin message m hdelivered
  | ledgerOappSend message =>
    obtain ⟨solanaEid, bytes, options, haccepted, hpeer, rfl, rfl⟩ := accepted_of_step h
    exact .ledgerOappSend message solanaEid bytes options haccepted hpeer
  | setOCCManagerAddr occManagerAddr =>
    simp only [step, nonPayable, LedgerOApp.setOCCManagerAddr, onlyOwner, Except.bind_eq_ok,
      Except.require_eq_ok, Except.pure_eq_ok, Prod.mk.injEq] at h
    obtain ⟨-, hvalue, -, howner, rfl, rfl⟩ := h
    exact .setOCCManagerAddr ⟨howner, hvalue⟩ occManagerAddr
  | setOptions payloadType gas value =>
    simp only [step, nonPayable, LedgerOApp.setOptions, onlyOwner, Except.bind_eq_ok,
      Except.require_eq_ok, Except.pure_eq_ok, Prod.mk.injEq] at h
    obtain ⟨-, hvalue, -, howner, -, htype, rfl, rfl⟩ := h
    exact .setOptions ⟨howner, hvalue⟩ payloadType gas value htype
  | withdrawTo dst =>
    simp only [step, nonPayable, LedgerOApp.withdrawTo, onlyOwner, Except.bind_eq_ok,
      Except.require_eq_ok, Except.pure_eq_ok, Prod.mk.injEq] at h
    obtain ⟨-, hvalue, -, howner, -, -, rfl, rfl⟩ := h
    exact .withdrawTo ⟨howner, hvalue⟩ dst
  | setPeer eid peer =>
    simp only [step, nonPayable, LedgerOApp.setPeer, onlyOwner, Except.bind_eq_ok,
      Except.require_eq_ok, Except.pure_eq_ok, Prod.mk.injEq] at h
    obtain ⟨-, hvalue, -, howner, rfl, rfl⟩ := h
    exact .setPeer ⟨howner, hvalue⟩ eid peer
  | setDelegate delegate =>
    simp only [step, nonPayable, LedgerOApp.setDelegate, onlyOwner, Except.bind_eq_ok,
      Except.require_eq_ok, Except.pure_eq_ok, Prod.mk.injEq] at h
    obtain ⟨-, hvalue, -, howner, -, -, rfl, rfl⟩ := h
    exact .setDelegate ⟨howner, hvalue⟩ delegate
  | pause =>
    simp only [step, nonPayable, LedgerOApp.pause, onlyOwner, whenNotPaused, Except.bind_eq_ok,
      Except.require_eq_ok, Except.pure_eq_ok, Prod.mk.injEq] at h
    obtain ⟨-, hvalue, -, howner, -, hpaused, rfl, rfl⟩ := h
    exact .pause ⟨howner, hvalue⟩ hpaused
  | unpause =>
    simp only [step, nonPayable, LedgerOApp.unpause, onlyOwner, Except.bind_eq_ok,
      Except.require_eq_ok, Except.pure_eq_ok, Prod.mk.injEq] at h
    obtain ⟨-, hvalue, -, howner, -, hpaused, rfl, rfl⟩ := h
    exact .unpause ⟨howner, hvalue⟩ hpaused

/-- **Inversion.** A transaction that succeeds does what `Does` says. -/
theorem does_of_perform {tx : Transaction} (h : perform X s (e, tx) = .ok (s', es)) :
    Does X e s tx s' es := by
  cases tx with
  | call call => exact does_of_step h
  | setPeers eids peers =>
    simp only [perform, nonPayable, LedgerOApp.setPeers, onlyOwner, Except.bind_eq_ok,
      Except.require_eq_ok, Except.pure_eq_ok, Prod.mk.injEq] at h
    obtain ⟨-, hvalue, -, howner, -, -, rfl, rfl⟩ := h
    exact .setPeers ⟨howner, hvalue⟩ eids peers
  | handOver newOwner =>
    simp only [perform, nonPayable, LedgerOApp.handOver, onlyOwner, Except.bind_eq_ok,
      Except.require_eq_ok, Except.pure_eq_ok, Prod.mk.injEq] at h
    obtain ⟨-, hvalue, -, howner, rfl, rfl⟩ := h
    exact .handOver ⟨howner, hvalue⟩ newOwner

end Step

/-! ### Authority -/

/-- What only the owner does: changing what is stored, the owner included, naming a delegate, and
taking ether. -/
inductive OwnerChange (s s' : LedgerOApp) (es : List Effect) : Prop
  | peers (h : s'.peers ≠ s.peers)
  | options (h : s'.payloadType2LzOptions ≠ s.payloadType2LzOptions)
  | occManager (h : s'.occManagerAddr ≠ s.occManagerAddr)
  | paused (h : s'.paused ≠ s.paused)
  | owner (h : s'.owner ≠ s.owner)
  | delegate (a : Address) (h : .setDelegate a ∈ es)
  | transfer (dst : Address) (amount : U256) (h : .transfer dst amount ∈ es)

/-- What a transaction does is authorised: what only the owner does is called by the owner, what is
sent is what the OCC manager asks for, to a peer and with the value of its call, and what is handed
to the OCC manager is what the endpoint delivers. -/
structure StepAuthorised (s : LedgerOApp) (e : Env) (tx : Transaction) (es : List Effect)
    (s' : LedgerOApp) : Prop where
  owner : OwnerChange s s' es → e.msgSender = s.owner
  endpoint : s'.endpoint = s.endpoint
  sends : ∀ value params refund, .send value params refund ∈ es →
    ∃ message, tx = .call (.ledgerOappSend message) ∧ e.msgSender = s.occManagerAddr ∧
      message.token = .usdc ∧ value = e.msgValue ∧ refund = e.msgSender ∧
      params = s.messagingParams (s.manager e).solanaEid
        (encodeSolanaLedgerMessage (solanaLedgerMessage message)) params.options ∧
      params.receiver ≠ zeroBytes32 ∧ s' = s
  hands : ∀ manager m, .ledgerOappReceive manager m ∈ es →
    ∃ origin message sm, tx = .call (.lzReceive origin message) ∧ manager = s.occManagerAddr ∧
      Delivered e s origin message sm ∧ m = s.occVaultMessage e sm

section Runs

variable {X : ExecutorOptions} {e : Env} {s s' : LedgerOApp} {tx : Transaction}
  {es : List Effect}

/-- A call of the owner is authorised as far as it neither sends nor hands over anything. -/
private theorem StepAuthorised.of_byOwner (h : ByOwner e s) (hendpoint : s'.endpoint = s.endpoint)
    (hsends : ∀ value params refund, .send value params refund ∉ es)
    (hhands : ∀ manager m, .ledgerOappReceive manager m ∉ es) :
    StepAuthorised s e tx es s' where
  owner _ := h.caller
  endpoint := hendpoint
  sends value params refund hmem := absurd hmem (hsends value params refund)
  hands manager m hmem := absurd hmem (hhands manager m)

/-- **One transaction** is authorised. -/
theorem Does.authorised (h : Does X e s tx s' es) : StepAuthorised s e tx es s' := by
  cases h with
  | lzReceive origin message m hdelivered =>
    refine ⟨fun hchange => ?_, rfl, by simp, fun manager m' hmem => ?_⟩
    · -- a delivery changes no more than the balance
      cases hchange with
      | peers h => exact absurd rfl h
      | options h => exact absurd rfl h
      | occManager h => exact absurd rfl h
      | paused h => exact absurd rfl h
      | owner h => exact absurd rfl h
      | delegate a h => simp at h
      | transfer dst amount h => simp at h
    · obtain ⟨rfl, rfl⟩ : manager = s.occManagerAddr ∧ m' = s.occVaultMessage e m := by
        simpa using hmem
      exact ⟨origin, message, m, rfl, rfl, hdelivered, rfl⟩
  | ledgerOappSend message solanaEid bytes options haccepted hpeer =>
    refine ⟨fun hchange => ?_, rfl, fun value params refund hmem => ?_, by simp⟩
    · cases hchange with
      | peers h => exact absurd rfl h
      | options h => exact absurd rfl h
      | occManager h => exact absurd rfl h
      | paused h => exact absurd rfl h
      | owner h => exact absurd rfl h
      | delegate a h => simp at h
      | transfer dst amount h => simp at h
    · obtain ⟨rfl, rfl, rfl⟩ : value = e.msgValue ∧
          params = s.messagingParams solanaEid bytes options ∧ refund = e.msgSender := by
        simpa using hmem
      refine ⟨message, rfl, haccepted.caller, haccepted.token_eq, rfl, rfl, ?_, hpeer, rfl⟩
      rw [haccepted.eid_eq, haccepted.bytes_eq]
      rfl
  | setOCCManagerAddr h | setOptions h | withdrawTo h | setPeer h | setPeers h | handOver h
  | setDelegate h | pause h | unpause h => exact .of_byOwner h rfl (by simp) (by simp)

theorem authorised_of_mem_transitions {is : List (Env × Transaction)}
    {t : LedgerOApp × (Env × Transaction) × List Effect} (ht : t ∈ transitions (perform X) s is) :
    StepAuthorised t.1 t.2.1.1 t.2.1.2 t.2.2 (next (perform X) t.1 t.2.1) := by
  obtain ⟨_, _, s', -, -, h⟩ := exists_of_mem_transitions ht
  rw [next_of_ok h]
  exact (does_of_perform h).authorised

/-- A paused contract stays paused as long as nobody ends the pause. -/
theorem Does.paused (h : Does X e s tx s' es) (hs : s.paused = true) (htx : tx ≠ .call .unpause) :
    s'.paused = true := by
  cases h with
  | pause => rfl
  | unpause => exact absurd rfl htx
  | _ => exact hs

/-- The pause does not stop sending. -/
theorem perform_ledgerOappSend_paused (b : Bool) (message : OCCLedgerMessage) :
    (perform X { s with paused := b } (e, .call (.ledgerOappSend message))).map Prod.snd =
      (perform X s (e, .call (.ledgerOappSend message))).map Prod.snd := by
  simp only [perform, step, ledgerOappSend, lzSend, Except.map_bind]
  rfl

/-- The pause at a state: until it is ended nothing is handed to the OCC manager, and sending goes
on as it would without it. -/
structure PauseHolds (X : ExecutorOptions) (s : LedgerOApp) : Prop where
  hands : ∀ js : List (Env × Transaction),
    (∀ entry ∈ history (perform X) s js, entry.1.2 ≠ .call .unpause) →
    ∀ entry ∈ history (perform X) s js, ∀ manager m, .ledgerOappReceive manager m ∉ entry.2
  sends : ∀ e message, (perform X s (e, .call (.ledgerOappSend message))).map Prod.snd =
    (perform X { s with paused := false } (e, .call (.ledgerOappSend message))).map Prod.snd

theorem PauseHolds.of_paused (hs : s.paused = true) : PauseHolds X s where
  hands js hjs entry hentry manager m hmem := by
    obtain ⟨t, ht, rfl⟩ := List.mem_map.mp (map_transitions s js ▸ hentry)
    have hpaused : t.1.paused = true := by
      refine of_mem_transitions (P := fun s : LedgerOApp => s.paused = true)
        (fun t ht s' hs h => (does_of_perform h).paused hs ?_) hs ht
      exact hjs _ (mem_history_of_mem_transitions ht)
    obtain ⟨_, _, _, -, -, hdelivered, -⟩ := (authorised_of_mem_transitions ht).hands manager m hmem
    rw [hdelivered.unpaused] at hpaused
    cases hpaused
  sends e message := (perform_ledgerOappSend_paused false message).symm

/-- **Authority.** In every run of transactions by anyone, from every state:

* the endpoint stays;
* what only the owner does is called by the owner, what is sent is what the OCC manager asks for,
  and what is handed to the OCC manager is what the endpoint delivers from a peer;
* a pause stops what is handed to the OCC manager until the owner ends it, and nothing that is
  sent. -/
theorem authority (X : ExecutorOptions) (s : LedgerOApp) (is : List (Env × Transaction)) :
    (run (perform X) s is).endpoint = s.endpoint ∧
    (∀ t ∈ transitions (perform X) s is,
      StepAuthorised t.1 t.2.1.1 t.2.1.2 t.2.2 (next (perform X) t.1 t.2.1)) ∧
    ((run (perform X) s is).paused = true → PauseHolds X (run (perform X) s is)) := by
  refine ⟨?_, fun t ht => authorised_of_mem_transitions ht, .of_paused⟩
  exact run_invariant (P := fun s' : LedgerOApp => s'.endpoint = s.endpoint)
    (fun s₁ i s₂ es hs h => (does_of_perform h).authorised.endpoint.trans hs) rfl is

/-! ### Ether -/

/-- What effects take from the balance for good. -/
def withdrawn (es : List Effect) : ℕ :=
  (es.map fun
    | .transfer _ amount => amount.toNat
    | _ => 0).sum

/-- What a transaction leaves with the contract. -/
def kept : Env × Transaction → ℕ
  | (e, .call (.lzReceive _ _)) => e.msgValue.toNat
  | _ => 0

/-- **Ether of one transaction**, where the balance and the value are ether that exists. -/
theorem Does.ether (h : Does X e s tx s' es)
    (hfits : s.balance.toNat + e.msgValue.toNat < 2 ^ 256) :
    s'.balance.toNat + withdrawn es = s.balance.toNat + kept (e, tx) := by
  cases h with
  | lzReceive origin message m hdelivered =>
    have hbalance : (s.receiveValue e).balance.toNat = s.balance.toNat + e.msgValue.toNat := by
      rw [receiveValue, BitVec.toNat_add, Nat.mod_eq_of_lt hfits]
    rw [hbalance]
    rfl
  | withdrawTo => simp [withdrawn, kept]
  | _ => rfl

/-- **Ether.** Take a run of transactions by anyone in which no balance exceeds what a word holds.
The balance is what it was at the start and what came with deliveries since, less what the owner
withdrew: sending leaves nothing behind and takes nothing. -/
theorem ether_accounted {is : List (Env × Transaction)}
    (hfits : ∀ t ∈ transitions (perform X) s is,
      t.1.balance.toNat + t.2.1.1.msgValue.toNat < 2 ^ 256) :
    (run (perform X) s is).balance.toNat +
        ((history (perform X) s is).map fun entry => withdrawn entry.2).sum =
      s.balance.toNat + ((history (perform X) s is).map fun entry => kept entry.1).sum :=
  history_books (f := fun s : LedgerOApp => s.balance.toNat)
    fun t ht _ h => (does_of_perform h).ether (hfits t ht)

end Runs

/-- The sample contract receives ten wei with a delivery, sends a message for the quoted fee, and
is emptied by its owner. -/
def sampleEtherRun : List (Env × Transaction) :=
  [({ sampleLedgerEnv (sampleAddress 2) with msgValue := 10#256 },
      .call (.lzReceive ⟨30168#32, List.Vector.replicate 32 1, 1#64⟩
        (Frame.bytes ⟨3, List.Vector.replicate 32 8, 4, [1, 2, 3]⟩))),
    ({ sampleLedgerEnv (sampleAddress 4) with msgValue := 500000#256 },
      .call (.ledgerOappSend sampleOCCLedgerMessage)),
    (sampleLedgerEnv (sampleAddress 3), .call (.withdrawTo (sampleAddress 9)))]

/-- All three calls go through, and what the owner gets is what came with the delivery. -/
theorem ether_accounted_sample :
    (history (perform sampleExecutorOptions) sampleLedger sampleEtherRun).length = 3 ∧
      ((history (perform sampleExecutorOptions) sampleLedger sampleEtherRun).map
        fun entry => withdrawn entry.2).sum = 10 := by
  have hlength :
      (history (perform sampleExecutorOptions) sampleLedger sampleEtherRun).length = 3 := by
    decide +kernel
  have hkept : (run (perform sampleExecutorOptions) sampleLedger sampleEtherRun).balance.toNat = 0 ∧
      sampleLedger.balance.toNat + ((history (perform sampleExecutorOptions) sampleLedger
        sampleEtherRun).map fun entry => kept entry.1).sum = 10 := by
    decide +kernel
  have hfits : ∀ t ∈ transitions (perform sampleExecutorOptions) sampleLedger sampleEtherRun,
      t.1.balance.toNat + t.2.1.1.msgValue.toNat < 2 ^ 256 := by
    decide +kernel
  have hbooks := ether_accounted hfits
  rw [hkept.1, hkept.2, Nat.zero_add] at hbooks
  exact ⟨hlength, hbooks⟩

end LedgerOApp

end Ledger
