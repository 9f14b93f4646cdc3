import SolanaProxy.General.Merkle
import SolanaProxy.Proxy.Changes
import SolanaProxy.Proxy.ReceiveTypes

/-!
# Deliveries over whole runs

A `Network` is the proxy with the messages that were sent to it and with the endpoint's inbox.
Messages are sent and verified, instructions of the proxy are called with any accounts and
parameters, and tokens come in, in any order; what is cleared in an instruction leaves the inbox.
`Coherent` says what the inbox is after a history: every message is taken from it at most once,
and it was put there after it was sent. Every transfer of the proxy belongs to the message that
its instruction clears (`Delivers`), so a message is paid at most once (`paid_at_most_once`).
-/

namespace Proxy

open Solana Machine

/-- The proxy, the messages sent, and the endpoint's inbox. -/
structure Network (P : Platform) where
  proxy : ProxyState P
  sent : List ClearParams
  inbox : Inbox

/-- What happens: somebody sends a message, the endpoint verifies a message, or there is an input
of the proxy. -/
inductive NetworkInput where
  | send (message : ClearParams)
  | verify (message : ClearParams)
  | proxy (i : Input)

/-- Why an input changes nothing. -/
inductive Refusal where
  | notFresh
  | notVerifiable
  | failed (e : Failure ProxyError)

/-- The input with an endpoint that clears what is stored only. -/
def Input.withInbox (P : Platform) (inbox : Inbox) : Input → Input
  | .call env i => .call { env with endpoint := env.endpoint.withInbox P inbox } i
  | .outside lamports tokens mints => .outside lamports tokens mints

/-- The messages that effects clear. -/
def cleared (es : List ProxyEffect) : List ClearParams :=
  (es.filterMap Effect.called?).filterMap EndpointCall.cleared?

/-- The inbox without some messages. -/
def clearAll (inbox : Inbox) (messages : List ClearParams) : Inbox :=
  messages.foldl (fun inbox message => inbox.take message.slot) inbox

namespace Network

variable {P : Platform}

/-- Nothing was sent yet. -/
def start (s : ProxyState P) : Network P := ⟨s, [], Mailbox.start⟩

/-- One input. A sender numbers its messages, so that a slot is used once, and the endpoint verifies
what was sent and has not been cleared. -/
def step (P : Platform) (n : Network P) :
    NetworkInput → Except Refusal (Network P × List ProxyEffect)
  | .send message =>
    if message.slot ∈ n.sent.map ClearParams.slot then .error .notFresh
    else .ok ({ n with sent := n.sent ++ [message] }, [])
  | .verify message =>
    if message ∈ n.sent ∧ n.inbox message.slot ≠ .taken then
      .ok ({ n with inbox := n.inbox.put message.slot (P.keccak message.payload) }, [])
    else .error .notVerifiable
  | .proxy i =>
    match Proxy.step P n.proxy (i.withInbox P n.inbox) with
    | .ok (proxy, es) => .ok (⟨proxy, n.sent, clearAll n.inbox (cleared es)⟩, es)
    | .error e => .error (.failed e)

section Step

variable {n n' : Network P} {es : List ProxyEffect} {message : ClearParams} {i : Input}

theorem step_send_eq_ok : n.step P (.send message) = .ok (n', es) ↔
    message.slot ∉ n.sent.map ClearParams.slot ∧ n' = { n with sent := n.sent ++ [message] } ∧
      es = [] := by
  simp only [step]
  split
  case isTrue h => exact iff_of_false nofun fun h' => h'.1 h
  case isFalse h =>
    simp only [Except.ok.injEq, Prod.mk.injEq, h, not_false_eq_true, true_and, eq_comm]

theorem step_verify_eq_ok : n.step P (.verify message) = .ok (n', es) ↔
    (message ∈ n.sent ∧ n.inbox message.slot ≠ .taken) ∧
      n' = { n with inbox := n.inbox.put message.slot (P.keccak message.payload) } ∧ es = [] := by
  simp only [step]
  split
  case isTrue h =>
    rw [and_iff_right h]
    simp only [Except.ok.injEq, Prod.mk.injEq, eq_comm]
  case isFalse h => exact iff_of_false nofun fun h' => h h'.1

theorem step_proxy_eq_ok : n.step P (.proxy i) = .ok (n', es) ↔
    Proxy.step P n.proxy (i.withInbox P n.inbox) = .ok (n'.proxy, es) ∧ n'.sent = n.sent ∧
      n'.inbox = clearAll n.inbox (cleared es) := by
  simp only [step]
  split
  case h_1 proxy es' h =>
    rw [h, Except.ok.injEq, Except.ok.injEq, Prod.mk.injEq, Prod.mk.injEq]
    constructor
    · rintro ⟨rfl, rfl⟩
      exact ⟨⟨rfl, rfl⟩, rfl, rfl⟩
    · obtain ⟨proxy', sent, inbox⟩ := n'
      rintro ⟨⟨rfl, rfl⟩, rfl, rfl⟩
      exact ⟨rfl, rfl⟩
  case h_2 e h => exact iff_of_false nofun fun h' => nomatch h.symm.trans h'.1

end Step

end Network

/-! ### What a history says -/

/-- What an entry of a history does to the inbox. -/
def inboxOps (P : Platform) :
    NetworkInput × List ProxyEffect → List (Mailbox.Op PayloadSlot (ByteArr 32))
  | (.send _, _) => []
  | (.verify message, _) => [.put message.slot (P.keccak message.payload)]
  | (.proxy _, es) => (cleared es).map fun message => .take message.slot

/-- The payments for the message of a slot: the transfers of the instructions that clear it, with
source, destination and amount. -/
def paidFor (slot : PayloadSlot) (h : List (NetworkInput × List ProxyEffect)) :
    List (Pubkey × Pubkey × ℕ) :=
  (h.filter fun e => slot ∈ (cleared e.2).map ClearParams.slot).flatMap fun e =>
    e.2.filterMap Effect.transferred?

section Delivery

variable {P : Platform} {s s' : ProxyState P} {i : Input} {es : List ProxyEffect}

/-- **One input of the proxy** clears nothing and transfers nothing, or it is a delivery, which
clears its message and makes one transfer. -/
theorem cleared_cases (h : step P s i = .ok (s', es)) :
    (cleared es = [] ∧ es.filterMap Effect.transferred? = []) ∨
      ∃ env ctx params amount, i = .call env (.lzReceive ctx params) ∧
        cleared es = [ctx.clearParams params] ∧ usdcAmount? params.message = some amount ∧
        es.filterMap Effect.transferred? =
          [(ctx.proxyTokenAccount.pubkey, ctx.receiverTokenAccount.pubkey, amount.toNat)] := by
  cases i with
  | outside lamports tokens mints =>
    obtain ⟨-, rfl⟩ := Prod.mk.inj (Except.ok.inj h)
    exact .inl ⟨rfl, rfl⟩
  | call env i =>
    have hexec := step_call_eq_ok.mp h
    have hcalled := i.called_of_execute hexec
    by_cases hreceive : ∃ ctx params, i = .lzReceive ctx params
    · obtain ⟨ctx, params, rfl⟩ := hreceive
      obtain ⟨amount, hamount, htransferred⟩ := LzReceive.transferred_of_apply hexec
      refine .inr ⟨env, ctx, params, amount, rfl, ?_, hamount, htransferred⟩
      rw [cleared, hcalled]
      rfl
    · have hother : ∀ ctx params, i ≠ .lzReceive ctx params :=
        fun ctx params heq => hreceive ⟨ctx, params, heq⟩
      refine .inl ⟨?_, i.transferred_of_execute hexec hother⟩
      rw [cleared, hcalled]
      cases i with
      | lzReceive ctx params => exact absurd rfl (hother ctx params)
      | _ => rfl

/-- A delivery finds the hash of its message in the inbox. -/
theorem stored_of_delivery {inbox : Inbox} {env : Env} {ctx : LzReceive} {params : LzReceiveParams}
    (hi : i.withInbox P inbox = .call env (.lzReceive ctx params))
    (h : step P s (.call env (.lzReceive ctx params)) = .ok (s', es)) :
    inbox (ctx.clearParams params).slot = .holds (P.keccak (ctx.clearParams params).payload) := by
  obtain ⟨tr⟩ := LzReceive.nonempty_trace (step_call_eq_ok.mp h)
  obtain ⟨lamports, hcall, -⟩ := endpointCall_eq_ok.mp tr.clear_ok
  cases i with
  | outside lamports tokens mints => cases hi
  | call env₀ i₀ =>
    obtain ⟨rfl, -⟩ := Input.call.inj hi
    exact (Endpoint.clear_withInbox_eq_some.mp hcall).1

end Delivery

/-! ### The invariant -/

/-- The network is what the history makes of it: what was sent has slots of its own, what was
verified was sent, the inbox agrees with what was put and taken, what was put was sent, and every
message that was taken was paid once. -/
structure Coherent {P : Platform} (n : Network P) (h : List (NetworkInput × List ProxyEffect)) :
    Prop where
  sent : ∀ message ∈ n.sent, ∃ es, (.send message, es) ∈ h
  slots : (n.sent.map ClearParams.slot).Nodup
  verified : ∀ message es, (.verify message, es) ∈ h → message ∈ n.sent
  agrees : n.inbox.Agrees (h.flatMap (inboxOps P))
  put : ∀ slot d, .put slot d ∈ h.flatMap (inboxOps P) →
    ∃ message ∈ n.sent, message.slot = slot ∧ P.keccak message.payload = d
  paid : ∀ slot, (paidFor slot h).length =
    ((h.flatMap (inboxOps P)).filterMap Mailbox.Op.taken?).count slot

section Invariant

variable {P : Platform} {n n' : Network P} {h : List (NetworkInput × List ProxyEffect)}
  {i : NetworkInput} {es : List ProxyEffect}

theorem inboxOps_concat (h : List (NetworkInput × List ProxyEffect))
    (e : NetworkInput × List ProxyEffect) :
    (h ++ [e]).flatMap (inboxOps P) = h.flatMap (inboxOps P) ++ inboxOps P e := by
  rw [List.flatMap_append, List.flatMap_singleton]

theorem paidFor_concat (slot : PayloadSlot) (h : List (NetworkInput × List ProxyEffect))
    (e : NetworkInput × List ProxyEffect) :
    paidFor slot (h ++ [e]) = paidFor slot h ++
      if slot ∈ (cleared e.2).map ClearParams.slot then e.2.filterMap Effect.transferred?
      else [] := by
  rw [paidFor, List.filter_append, List.flatMap_append, ← paidFor]
  congr 1
  split
  case isTrue hmem =>
    rw [List.filter_cons_of_pos (by simpa using hmem), List.filter_nil, List.flatMap_singleton]
  case isFalse hmem =>
    rw [List.filter_cons_of_neg (by simpa using hmem), List.filter_nil, List.flatMap_nil]

theorem Coherent.start (s : ProxyState P) : Coherent (.start s) [] where
  sent _ h := nomatch h
  slots := List.nodup_nil
  verified _ _ h := nomatch h
  agrees := .start
  put _ _ h := nomatch h
  paid _ := rfl

/-- What was sent before was sent. -/
private theorem Coherent.sent_concat (hn : Coherent n h) (e : NetworkInput × List ProxyEffect) :
    ∀ message ∈ n.sent, ∃ es, (.send message, es) ∈ h ++ [e] := by
  intro message hmem
  obtain ⟨es, hes⟩ := hn.sent message hmem
  exact ⟨es, List.mem_append_left _ hes⟩

/-- A fresh message is sent. -/
private theorem Coherent.send (hn : Coherent n h) {message : ClearParams}
    (hfresh : message.slot ∉ n.sent.map ClearParams.slot) :
    Coherent { n with sent := n.sent ++ [message] } (h ++ [(.send message, [])]) := by
  have hops : (h ++ [(NetworkInput.send message, [])]).flatMap (inboxOps P) =
      h.flatMap (inboxOps P) := by
    rw [inboxOps_concat]
    exact List.append_nil _
  refine ⟨fun m hm => ?_, ?_, fun m es hm => ?_, ?_, fun slot d hput => ?_, fun slot => ?_⟩
  · rcases List.mem_append.mp hm with hm | hm
    · exact hn.sent_concat _ m hm
    · rw [List.mem_singleton.mp hm]
      exact ⟨[], List.mem_append_right h (List.mem_singleton_self _)⟩
  · rw [List.map_append, List.nodup_append]
    refine ⟨hn.slots, List.nodup_singleton _, fun a ha b hb => ?_⟩
    rintro rfl
    exact hfresh (List.mem_singleton.mp hb ▸ ha)
  · rcases List.mem_append.mp hm with hm | hm
    · exact List.mem_append_left _ (hn.verified m es hm)
    · cases List.mem_singleton.mp hm
  · rw [hops]
    exact hn.agrees
  · rw [hops] at hput
    obtain ⟨m, hm, hslot⟩ := hn.put slot d hput
    exact ⟨m, List.mem_append_left _ hm, hslot⟩
  · rw [hops, ← hn.paid slot, paidFor_concat]
    exact congrArg List.length (List.append_nil _)

/-- What was sent and has not been cleared is verified. -/
private theorem Coherent.verify (hn : Coherent n h) {message : ClearParams}
    (hsent : message ∈ n.sent) (huntaken : n.inbox message.slot ≠ .taken) :
    Coherent { n with inbox := n.inbox.put message.slot (P.keccak message.payload) }
      (h ++ [(.verify message, [])]) := by
  have hops : (h ++ [(NetworkInput.verify message, [])]).flatMap (inboxOps P) =
      h.flatMap (inboxOps P) ++ [.put message.slot (P.keccak message.payload)] :=
    inboxOps_concat h _
  refine ⟨hn.sent_concat _, hn.slots, fun m es hm => ?_, ?_, fun slot d hput => ?_, fun slot => ?_⟩
  · rcases List.mem_append.mp hm with hm | hm
    · exact hn.verified m es hm
    · obtain ⟨hm, -⟩ := Prod.mk.inj (List.mem_singleton.mp hm)
      obtain rfl := NetworkInput.verify.inj hm
      exact hsent
  · rw [hops]
    exact hn.agrees.put huntaken _
  -- what the endpoint stores is the hash of a message that was sent
  · rw [hops, List.mem_append, List.mem_singleton] at hput
    rcases hput with hput | hput
    · exact hn.put slot d hput
    · obtain ⟨rfl, rfl⟩ := Mailbox.Op.put.inj hput
      exact ⟨message, hsent, rfl, rfl⟩
  · rw [hops, paidFor_concat, List.filterMap_append, List.count_append, ← hn.paid slot]
    exact congrArg List.length (List.append_nil _)

/-- An input of the proxy verifies nothing. -/
private theorem Coherent.verified_concat (hn : Coherent n h) (i : Input) (es : List ProxyEffect) :
    ∀ m es', (.verify m, es') ∈ h ++ [(.proxy i, es)] → m ∈ n.sent := by
  intro m es' hm
  rcases List.mem_append.mp hm with hm | hm
  · exact hn.verified m es' hm
  · cases List.mem_singleton.mp hm

/-- An input of the proxy clears nothing. -/
private theorem Coherent.idle (hn : Coherent n h) (i : Input) (hcleared : cleared es = [])
    (proxy : ProxyState P) : Coherent ⟨proxy, n.sent, n.inbox⟩ (h ++ [(.proxy i, es)]) := by
  have hops : (h ++ [(NetworkInput.proxy i, es)]).flatMap (inboxOps P) =
      h.flatMap (inboxOps P) := by
    rw [inboxOps_concat, inboxOps, hcleared]
    exact List.append_nil _
  refine ⟨hn.sent_concat _, hn.slots, hn.verified_concat i es, ?_, ?_, fun slot => ?_⟩
  · rw [hops]
    exact hn.agrees
  · rw [hops]
    exact hn.put
  · rw [hops, ← hn.paid slot, paidFor_concat, hcleared]
    exact congrArg List.length (List.append_nil _)

/-- An input of the proxy clears a message that is stored, with one transfer. -/
private theorem Coherent.deliver (hn : Coherent n h) (i : Input) {message : ClearParams}
    {d : ByteArr 32} {x : Pubkey × Pubkey × ℕ} (hstored : n.inbox message.slot = .holds d)
    (hcleared : cleared es = [message]) (htransferred : es.filterMap Effect.transferred? = [x])
    (proxy : ProxyState P) :
    Coherent ⟨proxy, n.sent, n.inbox.take message.slot⟩ (h ++ [(.proxy i, es)]) := by
  have hops : (h ++ [(NetworkInput.proxy i, es)]).flatMap (inboxOps P) =
      h.flatMap (inboxOps P) ++ [.take message.slot] := by
    rw [inboxOps_concat, inboxOps, hcleared]
    rfl
  refine ⟨hn.sent_concat _, hn.slots, hn.verified_concat i es, ?_, fun slot d hput => ?_,
    fun slot => ?_⟩
  · rw [hops]
    exact hn.agrees.take hstored
  · rw [hops, List.mem_append, List.mem_singleton] at hput
    rcases hput with hput | hput
    · exact hn.put slot d hput
    · cases hput
  · -- the transfer is paid for the slot exactly when the slot is taken
    rw [hops, paidFor_concat, List.length_append, hn.paid slot, List.filterMap_append,
      List.count_append, hcleared, htransferred]
    congr 1
    by_cases hslot : message.slot = slot
    · simp [Mailbox.Op.taken?, hslot]
    · simp [Mailbox.Op.taken?, hslot, Ne.symm hslot]

/-- **One input** keeps the network coherent with its history. -/
theorem Coherent.step (hn : Coherent n h) (hstep : n.step P i = .ok (n', es)) :
    Coherent n' (h ++ [(i, es)]) := by
  cases i with
  | send message =>
    obtain ⟨hfresh, rfl, rfl⟩ := Network.step_send_eq_ok.mp hstep
    exact hn.send hfresh
  | verify message =>
    obtain ⟨⟨hsent, huntaken⟩, rfl, rfl⟩ := Network.step_verify_eq_ok.mp hstep
    exact hn.verify hsent huntaken
  | proxy i =>
    obtain ⟨proxy, sent, inbox⟩ := n'
    obtain ⟨hproxy, rfl, rfl⟩ := Network.step_proxy_eq_ok.mp hstep
    rcases cleared_cases hproxy with ⟨hcleared, -⟩ |
      ⟨env, ctx, params, amount, hi, hcleared, -, htransferred⟩
    · rw [hcleared]
      exact hn.idle i hcleared proxy
    · rw [hi] at hproxy
      rw [hcleared]
      exact hn.deliver i (stored_of_delivery hi hproxy) hcleared htransferred proxy

/-- After a run the network is coherent with the history. -/
theorem coherent_run (s : ProxyState P) (is : List NetworkInput) :
    Coherent (run (Network.step P) (.start s) is) (history (Network.step P) (.start s) is) :=
  run_history_invariant (fun _ _ _ _ _ hn h => hn.step h) (.start s) is

/-- What is stored was sent, unless its payload has the hash of another one. -/
theorem Coherent.sent_of_stored (hn : Coherent n h) {message : ClearParams}
    (hstored : n.inbox message.slot = .holds (P.keccak message.payload))
    (hcollision : ∀ m ∈ n.sent, P.keccak m.payload = P.keccak message.payload →
      m.payload = message.payload) : message ∈ n.sent := by
  obtain ⟨m, hm, hslot, hhash⟩ := hn.put _ _ (hn.agrees.put_of_holds _ _ hstored)
  obtain rfl : m = message := ClearParams.eq_of_payload_eq hslot (hcollision m hm hhash)
  exact hm

/-- A message that was verified is stored until it is paid once. -/
theorem Coherent.stored_or_paid (hn : Coherent n h) {message : ClearParams} {es : List ProxyEffect}
    (hverified : (.verify message, es) ∈ h) :
    n.inbox message.slot = .holds (P.keccak message.payload) ∨
      (paidFor message.slot h).length = 1 := by
  have hput : .put message.slot (P.keccak message.payload) ∈ h.flatMap (inboxOps P) :=
    List.mem_flatMap.mpr ⟨_, hverified, List.mem_singleton_self _⟩
  -- a slot has one message, so nothing else was stored there
  have hunique : ∀ d, .put message.slot d ∈ h.flatMap (inboxOps P) →
      d = P.keccak message.payload := by
    intro d hd
    obtain ⟨m, hm, hslot, rfl⟩ := hn.put _ d hd
    rw [List.inj_on_of_nodup_map hn.slots hm (hn.verified message es hverified) hslot]
  refine (hn.agrees.holds_or_taken hput hunique).imp_right fun htaken => ?_
  rw [hn.paid]
  exact List.count_eq_one_of_mem hn.agrees.nodup htaken

/-- No slot is paid for twice. -/
theorem Coherent.length_paidFor_le (hn : Coherent n h) (slot : PayloadSlot) :
    (paidFor slot h).length ≤ 1 := by
  rw [hn.paid]
  exact List.nodup_iff_count_le_one.mp hn.agrees.nodup slot

end Invariant

/-! ### Payments -/

/-- A step pays a message: the message was sent by the peer of its endpoint id, its hash was in the
inbox, it is what the step clears, and the one transfer of the step goes from the proxy's account to
the token account of the receiver that the message names, with the amount of the message. -/
structure Pays {P : Platform} (k a mint : Pubkey) (n : Network P) (es : List ProxyEffect)
    (message : ClearParams) : Prop where
  sent : message ∈ n.sent
  peer : ∃ k' peer, n.proxy.world.data k' = some (.peerConfig peer) ∧
    P.createProgramAddress (peerSeeds k message.srcEid ++ [peer.bump]) = some k' ∧
    peer.peerAddress = message.sender
  stored : n.inbox message.slot = .holds (P.keccak message.payload)
  cleared : cleared es = [message]
  paid : ∃ receiver dst amount,
    SolanaLedgerOCCMessage.getReceiver message.message = some receiver ∧
    P.associatedTokenAddress receiver mint P.tokenProgram = some dst ∧
    usdcAmount? message.message = some amount ∧
    es.filterMap Effect.transferred? = [(a, dst, amount.toNat)]

/-- A message is deliverable: its hash is stored, so that a delivery goes through whenever the proxy
accepts it. -/
structure Deliverable {P : Platform} (n : Network P) (message : ClearParams) : Prop where
  stored : n.inbox message.slot = .holds (P.keccak message.payload)
  accepted : ∀ env (ctx : LzReceive) params, ctx.clearParams params = message →
    (∃ r, ctx.apply P env n.proxy.world params = .ok r) →
      ∃ r, n.step P (.proxy (.call env (.lzReceive ctx params))) = .ok r

/-- What a step pays. -/
def usdcPaid (es : List ProxyEffect) : ℕ :=
  ((es.filterMap Effect.transferred?).map fun x => x.2.2).sum

/-- What a step brings into the token account at `a`: what comes from outside the program, and what
the program pays to that account. -/
def usdcDeposited {P : Platform} (a : Pubkey) : Network P × NetworkInput × List ProxyEffect → ℕ
  | (n, .proxy (.outside _ tokens _), _) =>
    (tokens a).elim 0 TokenAccount.amount - n.proxy.world.balance a
  | (_, .proxy (.call ..), es) => ((es.filterMap Effect.transferred?).map fun x =>
    if x.2.1 = a then x.2.2 else 0).sum
  | _ => 0

/-- What the token program grants about the account of the proxy at `a`: only its owner takes
tokens from it. -/
def KeepsUsdc {P : Platform} (a : Pubkey) (n : Network P) : NetworkInput → Prop
  | .proxy (.outside _ tokens _) =>
    n.proxy.world.balance a ≤ (tokens a).elim 0 TokenAccount.amount
  | _ => True

/-- The payloads of the messages that an input sends or tries to deliver. -/
def NetworkInput.payloads : NetworkInput → List Bytes
  | .send message => [message.payload]
  | .proxy (.call _ (.lzReceive ctx params)) => [(ctx.clearParams params).payload]
  | _ => []

section Payments

variable {P : Platform} {n n' : Network P} {i : NetworkInput} {es : List ProxyEffect}
  {k a : Pubkey} {c : ProxyConfig}

/-- A network is configured when its proxy is. -/
theorem Network.configured_step (hn : Configured k c n.proxy)
    (h : n.step P i = .ok (n', es)) : Configured k c n'.proxy := by
  cases i with
  | send message =>
    obtain ⟨-, rfl, -⟩ := step_send_eq_ok.mp h
    exact hn
  | verify message =>
    obtain ⟨-, rfl, -⟩ := step_verify_eq_ok.mp h
    exact hn
  | proxy i => exact hn.step (step_proxy_eq_ok.mp h).1

/-- **The accounts of a delivery** are the account of the proxy and that of the receiver. -/
theorem LzReceive.Trace.accounts_eq {env : Env} {s : ProxyState P} {w' : ProxyWorld}
    {ctx : LzReceive} {params : LzReceiveParams} (tr : Trace P env s.world ctx params w' es)
    (hs : Configured k c s)
    (ha : P.associatedTokenAddress k c.usdcTokenAccount P.tokenProgram = some a) :
    ctx.proxyConfig.pubkey = k ∧ ctx.proxyTokenAccount.pubkey = a ∧
      P.associatedTokenAddress ctx.receiver.pubkey c.usdcTokenAccount P.tokenProgram =
        some ctx.receiverTokenAccount.pubkey := by
  obtain ⟨c', hc', hsetup⟩ := hs
  obtain ⟨hdata, -⟩ := loadConfig_eq_ok.mp tr.accounts.config_loaded
  obtain ⟨hkey, hconfig⟩ := s.placed.config_unique hdata hc'
  have hmint : ctx.tokenMint.pubkey = c.usdcTokenAccount := by
    rw [← tr.accounts.usdc_eq, hconfig, hsetup.usdcTokenAccount]
  obtain ⟨t, hproxy⟩ := tr.accounts.proxy_loaded
  obtain ⟨-, -, -, -, hproxy⟩ := loadAssociated_eq_ok.mp hproxy
  obtain ⟨-, hreceiver, -⟩ := initAssociatedIfNeeded_eq_ok.mp tr.accounts.receiver_created
  rw [hmint, tr.accounts.token_program] at hproxy hreceiver
  rw [hkey, ha, Option.some.injEq] at hproxy
  exact ⟨hkey, hproxy.symm, hreceiver⟩

/-- **A delivery pays its message**, if that was sent. -/
theorem pays_of_delivery {s' : ProxyState P} {i : Input} {env : Env} {ctx : LzReceive}
    {params : LzReceiveParams} (hs : Configured k c n.proxy)
    (ha : P.associatedTokenAddress k c.usdcTokenAccount P.tokenProgram = some a)
    (hsent : ctx.clearParams params ∈ n.sent)
    (hi : i.withInbox P n.inbox = .call env (.lzReceive ctx params))
    (h : step P n.proxy (.call env (.lzReceive ctx params)) = .ok (s', es)) :
    Pays k a c.usdcTokenAccount n es (ctx.clearParams params) := by
  have hstored := stored_of_delivery hi h
  have hexec := step_call_eq_ok.mp h
  obtain ⟨tr⟩ := LzReceive.nonempty_trace hexec
  obtain ⟨hkey, hproxy, hreceiver⟩ := tr.accounts_eq hs ha
  obtain ⟨amount, hamount, htransferred⟩ := LzReceive.transferred_of_apply hexec
  -- the sender is checked against the peer of the endpoint id the message came from
  obtain ⟨peer, hload, hsender⟩ := tr.accounts.peer_loaded
  obtain ⟨hpeer, haddress⟩ := loadPeer_eq_ok.mp hload
  refine ⟨hsent, ⟨_, peer, hpeer, ?_, hsender⟩, hstored, ?_,
    ⟨_, _, amount, tr.accounts.receiver_eq, hreceiver, hamount, ?_⟩⟩
  · rw [← hkey]
    exact haddress
  · rw [cleared, Instruction.called_of_execute hexec]
    rfl
  · rw [htransferred, hproxy]

/-- **Books of one step.** -/
theorem usdc_step (hs : Configured k c n.proxy)
    (ha : P.associatedTokenAddress k c.usdcTokenAccount P.tokenProgram = some a)
    (hkeeps : KeepsUsdc a n i) (h : n.step P i = .ok (n', es)) :
    n'.proxy.world.balance a + usdcPaid es =
      n.proxy.world.balance a + usdcDeposited a (n, i, es) := by
  cases i with
  | send message =>
    obtain ⟨-, rfl, rfl⟩ := Network.step_send_eq_ok.mp h
    rfl
  | verify message =>
    obtain ⟨-, rfl, rfl⟩ := Network.step_verify_eq_ok.mp h
    rfl
  | proxy i =>
    obtain ⟨hproxy, -⟩ := Network.step_proxy_eq_ok.mp h
    cases i with
    | outside lamports tokens mints =>
      obtain ⟨hstate, rfl⟩ := Prod.mk.inj (Except.ok.inj hproxy)
      rw [← hstate]
      exact (Nat.add_sub_cancel' hkeeps).symm
    | call env i =>
      have hexec := step_call_eq_ok.mp hproxy
      by_cases hreceive : ∃ ctx params, i = .lzReceive ctx params
      · obtain ⟨ctx, params, rfl⟩ := hreceive
        obtain ⟨tr⟩ := LzReceive.nonempty_trace hexec
        obtain ⟨-, haccount, -⟩ := tr.accounts_eq hs ha
        have hbalance := tr.balance_proxy
        rw [haccount] at hbalance
        rw [usdcPaid, usdcDeposited, tr.effects_eq, haccount]
        exact hbalance
      · have hother : ∀ ctx params, i ≠ .lzReceive ctx params :=
          fun ctx params heq => hreceive ⟨ctx, params, heq⟩
        have htokens : n'.proxy.world.tokens = n.proxy.world.tokens :=
          i.tokens_of_execute hexec (hs.not_initProxy hexec) hother
        rw [usdcPaid, usdcDeposited, i.transferred_of_execute hexec hother, World.balance, htokens]
        rfl

/-- With the hash of its message stored, a delivery does not see the inbox. -/
theorem LzReceive.apply_withInbox {inbox : Inbox} {env : Env} {ctx : LzReceive}
    {params : LzReceiveParams} (hstored : inbox (ctx.clearParams params).slot =
      .holds (P.keccak (ctx.clearParams params).payload)) (w : ProxyWorld) :
    ctx.apply P { env with endpoint := env.endpoint.withInbox P inbox } w params =
      ctx.apply P env w params := by
  have hcall : ∀ (w : ProxyWorld) program sender accounts,
      endpointCall (E := ProxyError) { env with endpoint := env.endpoint.withInbox P inbox } w
          program sender accounts (.clear (ctx.clearParams params)) =
        endpointCall env w program sender accounts (.clear (ctx.clearParams params)) := by
    intro w program sender accounts
    simp only [endpointCall, Endpoint.withInbox, hstored, if_true]
  simp only [apply, hcall]

/-- **What is stored is deliverable.** -/
theorem Deliverable.of_stored {message : ClearParams}
    (hstored : n.inbox message.slot = .holds (P.keccak message.payload)) :
    Deliverable n message where
  stored := hstored
  accepted env ctx params hmessage hok := by
    subst hmessage
    obtain ⟨⟨proxy, es⟩, hproxy⟩ : ∃ r, step P n.proxy
        ((Input.call env (.lzReceive ctx params)).withInbox P n.inbox) = .ok r := by
      refine exists_step_call_iff.mpr ?_
      have happly : ctx.apply P { env with endpoint := env.endpoint.withInbox P n.inbox }
          n.proxy.world params = ctx.apply P env n.proxy.world params :=
        LzReceive.apply_withInbox hstored n.proxy.world
      rw [← happly] at hok
      exact hok
    exact ⟨(⟨proxy, n.sent, clearAll n.inbox (cleared es)⟩, es),
      Network.step_proxy_eq_ok.mpr ⟨hproxy, rfl, rfl⟩⟩

end Payments

/-! ### Runs -/

section Runs

variable {P : Platform} {s₀ s : ProxyState P} {is : List NetworkInput}

/-- In a run without colliding payloads, whatever is delivered was sent. -/
private theorem sent_of_delivery {i : Input} {env : Env} {ctx : LzReceive}
    {params : LzReceiveParams}
    (hcollision : ¬Merkle.Collision P.keccak (is.flatMap NetworkInput.payloads))
    {t : Network P × NetworkInput × List ProxyEffect}
    (ht : t ∈ transitions (Network.step P) (.start s) is) (hinput : t.2.1 = .proxy i)
    (hi : i.withInbox P t.1.inbox = .call env (.lzReceive ctx params))
    (hstored : t.1.inbox (ctx.clearParams params).slot =
      .holds (P.keccak (ctx.clearParams params).payload)) : ctx.clearParams params ∈ t.1.sent := by
  obtain ⟨is₁, is₂, _, rfl, hrun, -⟩ := exists_of_mem_transitions ht
  have hcoherent := coherent_run s is₁
  rw [← hrun] at hcoherent
  refine hcoherent.sent_of_stored hstored fun m hm hhash => ?_
  obtain ⟨es, hes⟩ := hcoherent.sent m hm
  have hmem : m.payload ∈ (is₁ ++ t.2.1 :: is₂).flatMap NetworkInput.payloads :=
    List.mem_flatMap.mpr ⟨_, List.mem_append_left _ (mem_of_mem_history hes),
      List.mem_singleton_self _⟩
  have hmem' : (ctx.clearParams params).payload ∈
      (is₁ ++ t.2.1 :: is₂).flatMap NetworkInput.payloads := by
    refine List.mem_flatMap.mpr ⟨_, List.mem_append_right _ List.mem_cons_self, ?_⟩
    rw [hinput]
    cases i with
    | outside lamports tokens mints => cases hi
    | call env₀ i₀ =>
      obtain ⟨-, rfl⟩ := Input.call.inj hi
      exact List.mem_singleton_self _
  exact (Merkle.eq_or_collision hmem hmem' hhash).resolve_right hcollision

/-- In such a run every step transfers nothing or pays a message. -/
private theorem pays_of_mem_transitions {k a : Pubkey} {c : ProxyConfig}
    (ha : P.associatedTokenAddress k c.usdcTokenAccount P.tokenProgram = some a)
    (hcollision : ¬Merkle.Collision P.keccak (is.flatMap NetworkInput.payloads))
    {t : Network P × NetworkInput × List ProxyEffect}
    (ht : t ∈ transitions (Network.step P) (.start s) is) (hs : Configured k c t.1.proxy) :
    t.2.2.filterMap Effect.transferred? = [] ∨
      ∃ message, Pays k a c.usdcTokenAccount t.1 t.2.2 message := by
  obtain ⟨_, _, n', -, -, hstep⟩ := exists_of_mem_transitions ht
  cases hinput : t.2.1 with
  | send message =>
    rw [hinput] at hstep
    obtain ⟨-, -, hes⟩ := Network.step_send_eq_ok.mp hstep
    exact .inl (hes ▸ rfl)
  | verify message =>
    rw [hinput] at hstep
    obtain ⟨-, -, hes⟩ := Network.step_verify_eq_ok.mp hstep
    exact .inl (hes ▸ rfl)
  | proxy i =>
    rw [hinput] at hstep
    obtain ⟨hproxy, -⟩ := Network.step_proxy_eq_ok.mp hstep
    rcases cleared_cases hproxy with ⟨-, hnone⟩ | ⟨env, ctx, params, amount, hi, -⟩
    · exact .inl hnone
    · rw [hi] at hproxy
      have hsent := sent_of_delivery hcollision ht hinput hi (stored_of_delivery hi hproxy)
      exact .inr ⟨_, pays_of_delivery hs ha hsent hi hproxy⟩

/-- **Paid at most once.** Take a successful set-up and any run from there of messages sent and
verified, calls of the proxy with any accounts and parameters, and deposits, in which no two of the
payloads have one hash. Then, after the run:

* no message was paid for twice;
* every transfer pays a message that a peer has sent, to the token account of the receiver that the
  message names;
* the balance of the proxy is what it was at the set-up and what was deposited since, less what was
  paid;
* a message that was verified is deliverable until it is paid;
* a delivery that fails changes nothing. -/
theorem paid_at_most_once {env₀ : Env} {ctx₀ : InitProxy} {params₀ : InitProxyParams}
    {es₀ : List ProxyEffect} {a : Pubkey}
    (hinit : step P s₀ (.call env₀ (.initProxy ctx₀ params₀)) = .ok (s, es₀))
    (ha : P.associatedTokenAddress ctx₀.proxyConfig.pubkey params₀.usdcTokenAccount
      P.tokenProgram = some a)
    (hcollision : ¬Merkle.Collision P.keccak (is.flatMap NetworkInput.payloads))
    (hkeeps : ∀ t ∈ transitions (Network.step P) (.start s) is, KeepsUsdc a t.1 t.2.1) :
    (∀ slot, (paidFor slot (history (Network.step P) (.start s) is)).length ≤ 1) ∧
    (∀ t ∈ transitions (Network.step P) (.start s) is,
      t.2.2.filterMap Effect.transferred? = [] ∨ ∃ message,
        Pays ctx₀.proxyConfig.pubkey a params₀.usdcTokenAccount t.1 t.2.2 message) ∧
    (run (Network.step P) (.start s) is).proxy.world.balance a +
        ((transitions (Network.step P) (.start s) is).map fun t => usdcPaid t.2.2).sum =
      s.world.balance a +
        ((transitions (Network.step P) (.start s) is).map (usdcDeposited a)).sum ∧
    (∀ message es, (.verify message, es) ∈ history (Network.step P) (.start s) is →
      Deliverable (run (Network.step P) (.start s) is) message ∨
        (paidFor message.slot (history (Network.step P) (.start s) is)).length = 1) ∧
    ∀ env ctx params e, (run (Network.step P) (.start s) is).step P
        (.proxy (.call env (.lzReceive ctx params))) = .error e →
      run (Network.step P) (run (Network.step P) (.start s) is)
        [.proxy (.call env (.lzReceive ctx params))] = run (Network.step P) (.start s) is := by
  obtain ⟨bump, -, hdata⟩ := configured_of_init hinit
  have hcoherent := coherent_run s is
  have hconfigured : ∀ t ∈ transitions (Network.step P) (.start s) is,
      Configured ctx₀.proxyConfig.pubkey (params₀.config bump) t.1.proxy := by
    intro t ht
    have hstart : Configured ctx₀.proxyConfig.pubkey (params₀.config bump)
        (Network.start s).proxy :=
      ⟨_, hdata, .refl _⟩
    exact of_mem_transitions
      (P := fun n : Network P => Configured ctx₀.proxyConfig.pubkey (params₀.config bump) n.proxy)
      (fun t _ n' hn h => Network.configured_step hn h) hstart ht
  refine ⟨hcoherent.length_paidFor_le,
    fun t ht => pays_of_mem_transitions ha hcollision ht (hconfigured t ht), ?_,
    fun message es hverified => ?_, fun env ctx params e he => ?_⟩
  · have hbooks := run_books (f := fun n : Network P => n.proxy.world.balance a)
      fun t ht n' hstep => usdc_step (hconfigured t ht) ha (hkeeps t ht) hstep
    exact hbooks
  · exact (hcoherent.stored_or_paid hverified).imp_left .of_stored
  · rw [run_cons, run_nil, next_of_error he]

end Runs

/-! ### One message, delivered twice -/

/-- The message of the ledger that pays five units to the sample receiver. -/
def sampleMessage : ClearParams :=
  (sampleLzReceive (sampleKey 5)).clearParams (sampleDelivery sampleEid (sampleKey 40))

/-- The state of the sample before its set-up, with 1000 units in the token account of the proxy. -/
def sampleDonated : ProxyState samplePlatform :=
  .fresh samplePlatform sampleFresh.world.lamports
    (fun k => if k = sampleKey 9 then some ⟨sampleKey 101, sampleMint, sampleKey 1, 1000⟩ else none)
    sampleFresh.world.mints

/-- The ledger becomes a peer and its message is sent, verified, and delivered twice. -/
def sampleTraffic : List NetworkInput :=
  [.proxy (.call sampleEnv (.setPeerConfig ⟨sampleSigner sampleAdmin, sampleWritable (sampleKey 5),
      ⟨sampleKey 1, false, false⟩, ⟨zero32, false, false⟩⟩
      ⟨sampleEid, .peerAddress (sampleKey 40)⟩)),
    .send sampleMessage, .verify sampleMessage] ++
  List.replicate 2 (.proxy (.call sampleEnv
    (.lzReceive (sampleLzReceive (sampleKey 5)) (sampleDelivery sampleEid (sampleKey 40)))))

/-- It is paid once. -/
theorem paid_at_most_once_sample :
    ∃ s es, step samplePlatform sampleDonated (.call sampleEnv (.initProxy sampleInit
        sampleInitParams)) = .ok (s, es) ∧
      (paidFor sampleMessage.slot (history (Network.step samplePlatform) (.start s)
        sampleTraffic)).length ≤ 1 ∧
      (run (Network.step samplePlatform) (.start s) sampleTraffic).proxy.world.balance
        (sampleKey 9) + 5 = 1000 := by
  have hok : (step samplePlatform sampleDonated (.call sampleEnv (.initProxy sampleInit
      sampleInitParams))).map (fun r =>
        (r.1.world.balance (sampleKey 9),
          ((transitions (Network.step samplePlatform) (.start r.1) sampleTraffic).map
            fun t => usdcPaid t.2.2).sum,
          ((transitions (Network.step samplePlatform) (.start r.1) sampleTraffic).map
            (usdcDeposited (sampleKey 9))).sum)) = .ok (1000, 5, 0) := by
    decide +kernel
  obtain ⟨⟨s, es⟩, hinit, hsums⟩ := Except.map_eq_ok.mp hok
  obtain ⟨hstart, hsums⟩ := Prod.mk.inj hsums
  obtain ⟨hpaid, hdeposited⟩ := Prod.mk.inj hsums
  have hcollision : ¬Merkle.Collision samplePlatform.keccak
      (sampleTraffic.flatMap NetworkInput.payloads) := by
    rintro ⟨x, hx, y, hy, hne, -⟩
    have hpayload : ∀ z ∈ sampleTraffic.flatMap NetworkInput.payloads,
        z = sampleMessage.payload := by
      decide +kernel
    exact hne ((hpayload x hx).trans (hpayload y hy).symm)
  have hkeeps : ∀ t ∈ transitions (Network.step samplePlatform) (.start s) sampleTraffic,
      KeepsUsdc (sampleKey 9) t.1 t.2.1 := by
    intro t ht
    have hinputs : ∀ i ∈ sampleTraffic, ∀ n : Network samplePlatform,
        KeepsUsdc (sampleKey 9) n i := by
      simp [sampleTraffic, KeepsUsdc]
    exact hinputs _ (mem_of_mem_transitions ht) t.1
  obtain ⟨honce, -, hbooks, -⟩ := paid_at_most_once hinit (a := sampleKey 9) (by decide +kernel)
    hcollision hkeeps
  rw [hpaid, hdeposited, hstart] at hbooks
  exact ⟨s, es, hinit, honce _, hbooks⟩

end Proxy
