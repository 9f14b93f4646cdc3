import SolanaProxy.Crossing.Orders
import SolanaProxy.Crossing.Requests

/-!
# A bridge with two ends

Each program takes in what comes from its peers, and its admin or owner says who they are. Where
each setting names the other program or nobody, by the zero address (`BridgeInput.Connects`), the
peers of both stay the other program or nobody (`Bridge.Connected.step`). Then nothing is sent to
any third program and nothing is taken in from one, so that all the OCC manager is handed was asked
for on Solana, and all the proxy pays was ordered (`only_each_other`).
-/

namespace Crossing

open Solana Proxy Ledger Machine PayloadTypeChecker SolanaProxyMsgCodec

namespace Deployment

variable (D : Deployment)

/-- The address is the ledger's, or none. -/
def PeerOfProxy (eid : U32) (address : ByteArr 32) : Prop :=
  address = zero32 ∨ eid = D.orderlyEid ∧ address = D.ledgerKey

/-- The address is the proxy's, or none. -/
def PeerOfLedger (eid : U32) (peer : Bytes32) : Prop :=
  peer = zeroBytes32 ∨ eid = D.solanaEid ∧ peer = D.proxy

end Deployment

/-- An instruction that names a peer names the ledger. -/
def NamesLedger (D : Deployment) : Instruction → Prop
  | .setPeerConfig _ ⟨eid, .peerAddress address⟩ => D.PeerOfProxy eid address
  | _ => True

/-- A transaction that names peers names the proxy. -/
def NamesProxy (D : Deployment) : LedgerOApp.Transaction → Prop
  | .call (.setPeer eid peer) => D.PeerOfLedger eid peer
  | .setPeers eids peers => ∀ p ∈ eids.zip peers, D.PeerOfLedger p.1 p.2
  | _ => True

/-- An input that names a peer names the other program. -/
def BridgeInput.Connects (D : Deployment) : BridgeInput → Prop
  | .proxy (.call _ i) _ => NamesLedger D i
  | .ledger _ tx _ => NamesProxy D tx
  | _ => True

/-! ### The peers of the proxy -/

section ProxyPeers

variable {P : Platform} {D : Deployment} {env : Solana.Env} {w w' : ProxyWorld}
  {es : List ProxyEffect} {i : Instruction}

/-- The peers of the proxy are the ledger. -/
def ProxyConnected (P : Platform) (D : Deployment) (w : ProxyWorld) : Prop :=
  ∀ c eid k p, P.findProgramAddress (peerSeeds c eid) = some (k, p.bump) →
    w.data k = some (.peerConfig p) → D.PeerOfProxy eid p.peerAddress

/-- A peer that is loaded is the ledger. -/
theorem ProxyConnected.of_load (hP : P.DeriveInjective) (hw : WellPlaced P w)
    (h : ProxyConnected P D w) {c : Pubkey} {eid : U32} {a : AccountInfo} {p : PeerConfig}
    (hload : loadPeer P w c eid a = .ok p) : D.PeerOfProxy eid p.peerAddress := by
  obtain ⟨hdata, hseeds⟩ := loadPeer_eq_ok.mp hload
  obtain ⟨c', eid', -, hfind⟩ : (ProxyAccount.peerConfig p).Placed P a.pubkey := hw _ _ hdata
  obtain ⟨rfl, -⟩ := peerSeeds_inj
    (hP.seeds_eq hseeds (Platform.createProgramAddress_of_find hfind))
  exact h c' _ _ p hfind hdata

/-- What is set of a peer that is the ledger is the ledger. -/
theorem peerOfProxy_of_set {eid : U32} {p p' : PeerConfig} {config : PeerConfigParam}
    (hold : D.PeerOfProxy eid p.peerAddress)
    (hnew : ∀ address, config = .peerAddress address → D.PeerOfProxy eid address)
    (h : p.set P env ProxyError.invalidFee config = .ok p') : D.PeerOfProxy eid p'.peerAddress := by
  obtain ⟨address, rfl, rfl⟩ | ⟨_, -, -, rfl⟩ | ⟨_, _, -, rfl⟩ | ⟨_, _, -, -, rfl⟩ |
    ⟨_, _, -, -, rfl⟩ := PeerConfig.set_cases h
  · exact hnew address rfl
  · exact hold
  · exact hold
  · exact hold
  · exact hold

/-- **One instruction** that names no other peer keeps the peers of the proxy. -/
theorem ProxyConnected.execute (hP : P.DeriveInjective) (hw : WellPlaced P w)
    (h : ProxyConnected P D w) (hi : NamesLedger D i) (hexec : i.execute P env w = .ok (w', es)) :
    ProxyConnected P D w' := by
  intro c eid k p hfind hdata
  have hchange := i.accountChange hexec k
  rw [hdata] at hchange
  generalize ho : w.data k = o at hchange
  cases hchange with
  | same => exact h c eid k p hfind ho
  | created =>
    -- neither of the accounts of a set-up is a peer
    obtain ⟨_, _, -, -, -, -, -, hdata', -⟩ := InitProxy.of_apply_eq_ok hexec
    rw [hdata', Function.update_apply, Function.update_apply, ho] at hdata
    split at hdata
    case isTrue => cases hdata
    case isFalse =>
      split at hdata
      case isTrue => cases hdata
      case isFalse => cases hdata
  | @peer ctx params _ _ q q' bump hkey _ hold hset =>
    obtain ⟨-, _, _, _, hfind', -⟩ := SetPeerConfig.of_apply_eq_ok hexec
    rw [hkey] at hfind'
    have hcreate := Platform.createProgramAddress_of_find hfind
    -- the address tells which endpoint id the peer is for
    obtain ⟨rfl, -⟩ := peerSeeds_inj
      (hP.seeds_eq hcreate (Platform.createProgramAddress_of_find hfind'))
    obtain ⟨remoteEid, config⟩ := params
    have hq : D.PeerOfProxy remoteEid q.peerAddress := by
      rcases hold with ⟨-, rfl⟩ | hq
      · exact .inl rfl
      · rw [hq] at ho
        obtain ⟨c', eid', -, hfind''⟩ : (ProxyAccount.peerConfig q).Placed P k := hw _ _ ho
        obtain ⟨rfl, -⟩ := peerSeeds_inj
          (hP.seeds_eq hcreate (Platform.createProgramAddress_of_find hfind''))
        exact h c' _ k q hfind'' ho
    have hq' : D.PeerOfProxy remoteEid q'.peerAddress := by
      refine peerOfProxy_of_set hq ?_ hset
      rintro address rfl
      exact hi
    exact hq'

/-- What the proxy sends goes to a peer that it has loaded. -/
theorem exists_peer_of_sent (hexec : i.execute P env w = .ok (w', es)) {sent : SendParams}
    (hsent : sent ∈ es.filterMap Effect.sent?) :
    ∃ c a p, loadPeer P w c sent.dstEid a = .ok p ∧ sent.receiver = p.peerAddress := by
  rcases sent_of_execute hexec with hnone | ⟨ctx, fee, _, _, rfl, -⟩ | ⟨ctx, params, fee, _, rfl, -⟩
  · rw [hnone] at hsent
    cases hsent
  · obtain ⟨receipt, hc⟩ := Instruction.execute_sendClaim hexec
    obtain ⟨_, _, _, _, _, sent', hprep, -, hone, -⟩ := SendClaim.of_apply_eq_ok hc
    obtain ⟨peer, fees, hprepared⟩ := SendClaim.of_prepare_eq_ok hprep
    rw [hone, List.mem_singleton, hprepared.sent_eq] at hsent
    rw [hsent]
    exact ⟨_, _, peer, hprepared.peer_loaded, rfl⟩
  · obtain ⟨receipt, hc⟩ := Instruction.execute_sendRequest hexec
    obtain ⟨_, _, sent', hprep, -, hone, -⟩ := SendRequest.of_apply_eq_ok hc
    obtain ⟨peer, fees, hprepared⟩ := SendRequest.prepare_eq_ok.mp hprep
    rw [hone, List.mem_singleton, hprepared.sent_eq] at hsent
    rw [hsent]
    exact ⟨_, _, peer, hprepared.peer_loaded, rfl⟩

end ProxyPeers

/-! ### The peers of the ledger -/

section LedgerPeers

variable {D : Deployment} {X : ExecutorOptions} {e : Ledger.Env} {l l' : LedgerOApp}
  {tx : LedgerOApp.Transaction} {es : List Ledger.Effect}

/-- The peers of the ledger are the proxy. -/
def LedgerConnected (D : Deployment) (l : LedgerOApp) : Prop :=
  ∀ eid, D.PeerOfLedger eid (l.peers eid)

/-- Setting a peer that is the proxy. -/
theorem peerOfLedger_update {peers : U32 → Bytes32} (h : ∀ eid, D.PeerOfLedger eid (peers eid))
    {eid : U32} {peer : Bytes32} (hnew : D.PeerOfLedger eid peer) :
    ∀ eid', D.PeerOfLedger eid' (Function.update peers eid peer eid') := by
  intro eid'
  by_cases heid : eid' = eid
  · subst heid
    rwa [Function.update_self]
  · rw [Function.update_of_ne heid]
    exact h eid'

theorem peerOfLedger_setAll {peers : U32 → Bytes32} (h : ∀ eid, D.PeerOfLedger eid (peers eid))
    {ps : List (U32 × Bytes32)} (hps : ∀ p ∈ ps, D.PeerOfLedger p.1 p.2) :
    ∀ eid, D.PeerOfLedger eid (LedgerOApp.setAll peers ps eid) := by
  induction ps generalizing peers with
  | nil => exact h
  | cons p ps ih =>
    rw [List.forall_mem_cons] at hps
    exact ih (peerOfLedger_update h hps.1) hps.2

/-- **One transaction** that names no other peer keeps the peers of the ledger. -/
theorem LedgerConnected.perform (h : LedgerConnected D l) (htx : NamesProxy D tx)
    (hperform : l.perform X (e, tx) = .ok (l', es)) : LedgerConnected D l' := by
  cases LedgerOApp.does_of_perform hperform with
  | setPeer howner eid peer => exact peerOfLedger_update h htx
  | setPeers howner eids peers => exact peerOfLedger_setAll h htx
  | _ => exact h

end LedgerPeers

/-! ### The bridge -/

/-- The peers of each of the two programs are the other program, or nobody. -/
structure Bridge.Connected {P : Platform} (D : Deployment) (s : Bridge P) : Prop where
  proxy : ProxyConnected P D s.proxy.world
  ledger : LedgerConnected D s.ledger

/-- No third program has a part in a step: the proxy sends to the ledger and clears what the ledger
sent, or nobody, and the ledger sends to the proxy and is delivered what the proxy sent. -/
structure BetweenThem (D : Deployment) (i : BridgeInput) (out : BridgeOutput) : Prop where
  toLedger : ∀ sent ∈ out.1.filterMap Effect.sent?, D.PeerOfProxy sent.dstEid sent.receiver
  toProxy : ∀ value params refund, .send value params refund ∈ out.2 →
    params.dstEid = D.solanaEid ∧ params.receiver = D.proxy
  fromLedger : ∀ message ∈ cleared out.1, D.PeerOfProxy message.srcEid message.sender
  fromProxy : ∀ e packet, i = .deliver e packet → D.FromProxy packet

section Connected

variable {P : Platform} {D : Deployment} {X : ExecutorOptions} {s s' : Bridge P}
  {i : BridgeInput} {out : BridgeOutput}

/-- **One step** that names the other program or nobody keeps the programs connected. -/
theorem Bridge.Connected.step (hP : P.DeriveInjective) (hs : s.Connected D) (hi : i.Connects D)
    (h : s.step D X i = .ok (s', out)) : s'.Connected D := by
  cases Bridge.acts_of_step h with
  | proxy j stamp hstep hledger =>
    refine ⟨?_, hledger ▸ hs.ledger⟩
    cases j with
    | outside lamports tokens mints =>
      obtain ⟨hproxy, -⟩ := Prod.mk.inj (Except.ok.inj hstep)
      rw [← hproxy]
      exact hs.proxy
    | call env j => exact hs.proxy.execute hP s.proxy.placed hi (step_call_eq_ok.mp hstep)
  | ledger e tx stamp hstep hproxy =>
    exact ⟨hproxy ▸ hs.proxy, hs.ledger.perform hi hstep⟩
  | deliver e packet hstep hproxy =>
    obtain ⟨_, -, hledger, -⟩ := LedgerOApp.delivered_of_step hstep
    refine ⟨hproxy ▸ hs.proxy, ?_⟩
    rw [hledger]
    exact hs.ledger
  | channel _ hproxy hledger => exact ⟨hproxy ▸ hs.proxy, hledger ▸ hs.ledger⟩

/-- What a connected proxy sends and clears is for the ledger. -/
theorem ProxyConnected.between (hP : P.DeriveInjective) {proxy proxy' : ProxyState P}
    (hproxy : ProxyConnected P D proxy.world) {j : Proxy.Input} {es : List ProxyEffect}
    (h : Proxy.step P proxy j = .ok (proxy', es)) :
    (∀ sent ∈ es.filterMap Effect.sent?, D.PeerOfProxy sent.dstEid sent.receiver) ∧
      ∀ message ∈ cleared es, D.PeerOfProxy message.srcEid message.sender := by
  refine ⟨fun sent hsent => ?_, fun message hmessage => ?_⟩
  · cases j with
    | outside lamports tokens mints =>
      obtain ⟨-, rfl⟩ := Prod.mk.inj (Except.ok.inj h)
      cases hsent
    | call env j =>
      obtain ⟨c, a, p, hload, hreceiver⟩ := exists_peer_of_sent (step_call_eq_ok.mp h) hsent
      rw [hreceiver]
      exact hproxy.of_load hP proxy.placed hload
  · rcases cleared_cases h with ⟨hnone, -⟩ | ⟨env, ctx, params, amount, rfl, hcleared, -⟩
    · rw [hnone] at hmessage
      cases hmessage
    · obtain ⟨tr⟩ := LzReceive.nonempty_trace (step_call_eq_ok.mp h)
      obtain ⟨peer, hload, hsender⟩ := tr.accounts.peer_loaded
      have hknown := hproxy.of_load hP proxy.placed hload
      rw [hsender] at hknown
      rw [hcleared, List.mem_singleton] at hmessage
      rw [hmessage]
      exact hknown

/-- **What is done** by connected programs is done between them. -/
theorem Bridge.Connected.between (hP : P.DeriveInjective) (hs : s.Connected D)
    (h : s.step D X i = .ok (s', out)) : BetweenThem D i out := by
  cases Bridge.acts_of_step h with
  | proxy j stamp hstep hledger =>
    obtain ⟨hsent, hcleared⟩ := hs.proxy.between hP hstep
    exact ⟨hsent, by simp, hcleared, by simp⟩
  | ledger e tx stamp hstep hproxy =>
    refine ⟨by simp, fun value params refund hmem => ?_, by simp [cleared], by simp⟩
    obtain ⟨message, -, -, -, -, -, hparams, hne, -⟩ :=
      (LedgerOApp.does_of_perform hstep).authorised.sends value params refund hmem
    rw [hparams] at hne ⊢
    exact (hs.ledger _).resolve_left hne
  | deliver e packet hstep hproxy =>
    obtain ⟨m, hdelivered, -, hes⟩ := LedgerOApp.delivered_of_step hstep
    refine ⟨by simp, by simp [hes], by simp [cleared], ?_⟩
    rintro _ _ ⟨⟩
    have hpeer := (hs.ledger packet.origin.srcEid).resolve_left hdelivered.peer_ne_zero
    rwa [hdelivered.peer] at hpeer
  | channel _ hproxy hledger hproxyInput hdeliver =>
    exact ⟨by simp, by simp, by simp [cleared], fun e packet heq => absurd heq (hdeliver e packet)⟩

/-- What an entry of a history hands to the OCC manager, wherever it comes from. -/
def handedAll (e : BridgeInput × BridgeOutput) : List (Pubkey × U8 × Bytes) :=
  e.2.2.filterMap handedOver?

/-- What an entry of a history pays, whatever it is for. -/
def paidAll (e : BridgeInput × BridgeOutput) : List (Option Pubkey × ℕ) :=
  (e.2.1.filterMap Effect.transferred?).map fun x => (some x.2.1, x.2.2)

/-- All that is handed over is handed over for the proxy. -/
theorem handedAll_eq (hbetween : BetweenThem D i out) (h : s.step D X i = .ok (s', out)) :
    handedAll (i, out) = handed D (i, out) := by
  cases Bridge.acts_of_step h with
  | proxy => rfl
  | @ledger e tx stamp es hstep _ htx =>
    refine List.filterMap_eq_nil_iff.mpr fun effect heffect => ?_
    cases effect with
    | ledgerOappReceive manager m =>
      obtain ⟨origin, message, _, hcall, -⟩ :=
        (LedgerOApp.does_of_perform hstep).authorised.hands manager m heffect
      exact absurd hcall (htx origin message)
    | _ => rfl
  | deliver e packet =>
    rw [handed, if_pos (hbetween.fromProxy e packet rfl)]
    rfl
  | channel _ _ _ _ hdeliver =>
    cases i with
    | deliver e packet => exact absurd rfl (hdeliver e packet)
    | _ => rfl

/-- All that is paid is paid for the ledger. -/
theorem paidAll_eq (hfrom : ∀ message ∈ cleared out.1, D.FromLedger message)
    (h : s.step D X i = .ok (s', out)) : paidAll (i, out) = paid D (i, out) := by
  cases Bridge.acts_of_step h with
  | @proxy j stamp es hstep =>
    rcases cleared_cases hstep with ⟨-, hnone⟩ | ⟨env, ctx, params, amount, rfl, hcleared, -⟩
    · rw [paidAll, hnone, List.map_nil]
      cases j with
      | outside lamports tokens mints => rfl
      | call env j =>
        cases j with
        | lzReceive ctx params => rw [paid, hnone, List.map_nil, ite_self]
        | _ => rfl
    · rw [paid, if_pos (hfrom _ (hcleared ▸ List.mem_singleton_self _))]
      rfl
  | ledger | deliver => rfl
  | channel _ _ _ hproxyInput =>
    cases i with
    | proxy j stamp => exact absurd rfl (hproxyInput j stamp)
    | _ => rfl

/-- What the proxy clears is taken from the channel. -/
theorem take_mem_of_cleared (h : s.step D X i = .ok (s', out)) {message : ClearParams}
    (hmessage : message ∈ cleared out.1) : .take message ∈ solanaEvents D (i, out) := by
  cases Bridge.acts_of_step h with
  | proxy => exact List.mem_map_of_mem hmessage
  | ledger | deliver | channel => cases hmessage

end Connected

/-! ### Runs -/

section Runs

variable {P : Platform} {D : Deployment} {X : ExecutorOptions} {proxy : ProxyState P}
  {ledger : LedgerOApp} {is : List BridgeInput}

/-- What is taken from a peer without a name is from the ledger, if nobody else has none. -/
theorem fromLedger_of_taken
    (hagrees : (run (Bridge.step D X) (.start proxy ledger) is).toSolana.Agrees (solanaLabels P)
      ((history (Bridge.step D X) (.start proxy ledger) is).flatMap (solanaEvents D)))
    (hzero : ∀ message, .sendToSolana message ∈ is → message.sender ≠ zero32)
    {message : ClearParams} (hknown : D.PeerOfProxy message.srcEid message.sender)
    (htaken : .take message ∈
      (history (Bridge.step D X) (.start proxy ledger) is).flatMap (solanaEvents D)) :
    D.FromLedger message := by
  rcases hknown with hnone | hledger
  · obtain ⟨m, hm, hslot, -⟩ := hagrees.taken message htaken
    obtain ⟨-, heid, hsender, -⟩ := PayloadSlot.mk.inj hslot
    rw [← hagrees.sent_eq, Channel.Event.mem_filterMap_sent] at hm
    obtain ⟨⟨i, out⟩, hentry, hsend⟩ := List.mem_flatMap.mp hm
    cases i with
    | ledger e tx stamp =>
      obtain ⟨m', hm', heq⟩ := List.mem_map.mp hsend
      obtain rfl := Channel.Event.send.inj heq
      obtain ⟨effect, -, hsent⟩ := List.mem_filterMap.mp hm'
      cases effect with
      | send value params refund =>
        obtain ⟨-, hnamed⟩ := Option.ite_none_right_eq_some.mp hsent
        obtain rfl := Option.some.inj hnamed
        exact ⟨heid.symm, hsender.symm⟩
      | _ => cases hsent
    | sendToSolana m' =>
      obtain rfl := Channel.Event.send.inj (List.mem_singleton.mp hsend)
      exact absurd (hsender.trans hnone) (hzero m (mem_of_mem_history hentry))
    | proxy j stamp =>
      obtain ⟨m', -, heq⟩ := List.mem_map.mp hsend
      cases heq
    | verifyOnSolana m' => cases List.mem_singleton.mp hsend
    | _ => cases hsend
  · exact hledger

/-- A step of a run that names no other peer keeps the programs connected. -/
theorem Bridge.Connected.of_transition (hP : P.DeriveInjective)
    (hconnects : ∀ e ∈ history (Bridge.step D X) (.start proxy ledger) is, e.1.Connects D)
    {t : Bridge P × BridgeInput × BridgeOutput}
    (ht : t ∈ transitions (Bridge.step D X) (.start proxy ledger) is) {s' : Bridge P}
    (hs : t.1.Connected D) (h : t.1.step D X t.2.1 = .ok (s', t.2.2)) : s'.Connected D :=
  hs.step hP (hconnects t.2 (mem_history_of_mem_transitions ht)) h

/-- **Only each other.** Take a successful set-up of the proxy and any run of both programs and the
channels between them from there, in which every setting of a peer names the other program or
nobody, no message comes from the zero address, and no two payloads to one side have one hash. Then:

* the peers of each program stay the other program or nobody, the zero address;
* the ledger sends to the proxy only and is delivered what the proxy sent only, and the proxy sends
  to the ledger or nobody, and clears what names the ledger or nobody as its sender;
* all that the OCC manager is handed is, with multiplicities, part of the requests and claims that
  users have made;
* all that the proxy pays is, with multiplicities, part of what the OCC manager has ordered. -/
theorem only_each_other (hP : P.DeriveInjective) {s₀ : ProxyState P} {env₀ : Solana.Env}
    {ctx₀ : InitProxy} {params₀ : InitProxyParams} {es₀ : List ProxyEffect} {a : Pubkey}
    (hinit : Proxy.step P s₀ (.call env₀ (.initProxy ctx₀ params₀)) = .ok (proxy, es₀))
    (ha : P.associatedTokenAddress ctx₀.proxyConfig.pubkey params₀.usdcTokenAccount
      P.tokenProgram = some a)
    (hstart : (Bridge.start proxy ledger).Connected D) (is : List BridgeInput)
    (hconnects : ∀ e ∈ history (Bridge.step D X) (.start proxy ledger) is, e.1.Connects D)
    (hzero : ∀ message, .sendToSolana message ∈ is → message.sender ≠ zero32)
    (hsolana : ¬Merkle.Collision P.keccak
      (((history (Bridge.step D X) (.start proxy ledger) is).flatMap (solanaEvents D)).map
        (ClearParams.payload ∘ Channel.Event.message)))
    (horderly : ¬Merkle.Collision P.keccak
      (((history (Bridge.step D X) (.start proxy ledger) is).flatMap (orderlyEvents D)).map
        (Packet.payload ∘ Channel.Event.message))) :
    (run (Bridge.step D X) (.start proxy ledger) is).Connected D ∧
    (∀ e ∈ history (Bridge.step D X) (.start proxy ledger) is, BetweenThem D e.1 e.2) ∧
    ((history (Bridge.step D X) (.start proxy ledger) is).flatMap handedAll).Subperm
      ((transitions (Bridge.step D X) (.start proxy ledger) is).filterMap signed?) ∧
    ((history (Bridge.step D X) (.start proxy ledger) is).flatMap paidAll).Subperm
      ((history (Bridge.step D X) (.start proxy ledger) is).filterMap
        (ordered? P params₀.usdcTokenAccount)) := by
  obtain ⟨hagreesSolana, hagreesOrderly⟩ := Bridge.agrees_run (D := D) (X := X) proxy ledger is
  have hbetween : ∀ t ∈ transitions (Bridge.step D X) (.start proxy ledger) is,
      BetweenThem D t.2.1 t.2.2 := by
    intro t ht
    obtain ⟨_, _, s', -, -, hstep⟩ := exists_of_mem_transitions ht
    exact (of_mem_transitions (P := fun s : Bridge P => s.Connected D)
      (fun t ht _ hs h => hs.of_transition hP hconnects ht h) hstart ht).between hP hstep
  have hhanded : (history (Bridge.step D X) (.start proxy ledger) is).flatMap handedAll =
      (history (Bridge.step D X) (.start proxy ledger) is).flatMap (handed D) := by
    rw [← map_transitions, List.flatMap_map, List.flatMap_map]
    refine List.flatMap_congr fun t ht => ?_
    obtain ⟨_, _, s', -, -, hstep⟩ := exists_of_mem_transitions ht
    exact handedAll_eq (hbetween t ht) hstep
  have hpaid : (history (Bridge.step D X) (.start proxy ledger) is).flatMap paidAll =
      (history (Bridge.step D X) (.start proxy ledger) is).flatMap (paid D) := by
    rw [← map_transitions, List.flatMap_map, List.flatMap_map]
    refine List.flatMap_congr fun t ht => ?_
    obtain ⟨_, _, s', -, -, hstep⟩ := exists_of_mem_transitions ht
    refine paidAll_eq (fun message hmessage => ?_) hstep
    refine fromLedger_of_taken hagreesSolana hzero ((hbetween t ht).fromLedger message hmessage) ?_
    exact List.mem_flatMap.mpr ⟨t.2, mem_history_of_mem_transitions ht,
      take_mem_of_cleared hstep hmessage⟩
  obtain ⟨bump, -, hdata⟩ := configured_of_init hinit
  refine ⟨?_, fun e he => ?_, ?_, ?_⟩
  · exact run_invariant_of_transitions (P := fun s : Bridge P => s.Connected D)
      (fun t ht _ hs h => hs.of_transition hP hconnects ht h) hstart
  · rw [← map_transitions] at he
    obtain ⟨t, ht, rfl⟩ := List.mem_map.mp he
    exact hbetween t ht
  · rw [hhanded]
    refine handed_subperm_signed hP hagreesOrderly ?_
    exact hagreesOrderly.eq_of_labels Packet.payload P.keccak (fun _ => rfl)
      (fun _ _ => Packet.eq_of_payload_eq) fun x hx y hy heq =>
        (Merkle.eq_or_collision hx hy heq).resolve_right horderly
  · rw [hpaid]
    refine paid_subperm_ordered (c := params₀.config bump) ⟨_, hdata, .refl _⟩ ha hagreesSolana ?_
    exact hagreesSolana.eq_of_labels ClearParams.payload P.keccak (fun _ => rfl)
      (fun _ _ => ClearParams.eq_of_payload_eq) fun x hx y hy heq =>
        (Merkle.eq_or_collision hx hy heq).resolve_right hsolana

end Runs

theorem sampleLedger_connected : LedgerConnected sampleDeployment sampleLedger := by
  refine run_invariant_of_transitions (P := LedgerConnected sampleDeployment)
    (fun t ht l' hl h => ?_) fun eid => .inl rfl
  have hperform : LedgerOApp.perform sampleExecutorOptions t.1 (t.2.1.1, .call t.2.1.2) =
      .ok (l', t.2.2) := h
  refine hl.perform ?_ hperform
  have hinput := mem_of_mem_transitions ht
  simp only [sampleLedgerSetup, List.mem_cons, List.not_mem_nil, or_false] at hinput
  rcases hinput with h | h <;> rw [h]
  · trivial
  · exact .inr ⟨rfl, rfl⟩

/-- The exchange of the sample names the other program only, and nobody else sends in it. -/
theorem sampleExchange_connects : ∀ i ∈ sampleExchange,
    i.Connects sampleDeployment ∧ ∀ message, i ≠ .sendToSolana message := by
  simp only [sampleExchange, sampleConnect, List.replicate, List.cons_append, List.nil_append,
    List.forall_mem_cons, ne_eq, reduceCtorEq, not_false_eq_true, implies_true, and_true]
  exact ⟨trivial, .inr ⟨rfl, rfl⟩, trivial, trivial, trivial, trivial, trivial, trivial, trivial,
    trivial, List.forall_mem_nil _⟩

/-- In the exchange of the sample only the request is handed over, and only the order is paid. -/
theorem only_each_other_sample :
    (history (Bridge.step sampleDeployment sampleExecutorOptions) (.start sampleProxy sampleLedger)
        sampleExchange).flatMap handedAll = [(sampleUser, 4, [1, 2, 3])] ∧
      [(some (sampleKey 10), 5)].Subperm ((history (Bridge.step sampleDeployment
        sampleExecutorOptions) (.start sampleProxy sampleLedger) sampleExchange).filterMap
          (ordered? samplePlatform sampleMint)) := by
  have hhanded : (history (Bridge.step sampleDeployment sampleExecutorOptions)
      (.start sampleProxy sampleLedger) sampleExchange).flatMap handedAll =
        [(sampleUser, 4, [1, 2, 3])] := by
    decide +kernel
  have hpaid : (history (Bridge.step sampleDeployment sampleExecutorOptions)
      (.start sampleProxy sampleLedger) sampleExchange).flatMap paidAll =
        [(some (sampleKey 10), 5)] := by
    decide +kernel
  have hsolana : ∀ z ∈ ((history (Bridge.step sampleDeployment sampleExecutorOptions)
      (.start sampleProxy sampleLedger) sampleExchange).flatMap
        (solanaEvents sampleDeployment)).map (ClearParams.payload ∘ Channel.Event.message),
      z = ((sampleLzReceive (sampleKey 5)).clearParams sampleOrder).payload := by
    decide +kernel
  have horderly : ∀ z ∈ ((history (Bridge.step sampleDeployment sampleExecutorOptions)
      (.start sampleProxy sampleLedger) sampleExchange).flatMap
        (orderlyEvents sampleDeployment)).map (Packet.payload ∘ Channel.Event.message),
      z = samplePacket.payload := by
    decide +kernel
  obtain ⟨⟨proxy, es⟩, hinit⟩ := Except.exists_of_isOk (x := Proxy.step samplePlatform sampleDonated
    (.call sampleEnv (.initProxy sampleInit sampleInitParams))) (by decide +kernel)
  have hproxy : sampleProxy = proxy := next_of_ok hinit
  have hconnected : ProxyConnected samplePlatform sampleDeployment proxy.world :=
    ProxyConnected.execute (i := .initProxy sampleInit sampleInitParams) samplePlatform_injective
      sampleDonated.placed (fun _ _ _ _ _ h => by cases h) trivial (step_call_eq_ok.mp hinit)
  have hstart : (Bridge.start proxy sampleLedger).Connected sampleDeployment :=
    ⟨hconnected, sampleLedger_connected⟩
  rw [hproxy] at hhanded hpaid hsolana horderly ⊢
  obtain ⟨-, -, -, hpays⟩ := only_each_other samplePlatform_injective hinit (a := sampleKey 9)
    (by decide +kernel) hstart (X := sampleExecutorOptions) sampleExchange
    (fun e he => (sampleExchange_connects e.1 (mem_of_mem_history he)).1)
    (fun message hmem => absurd rfl ((sampleExchange_connects _ hmem).2 message))
    (fun ⟨x, hx, y, hy, hne, _⟩ => hne ((hsolana x hx).trans (hsolana y hy).symm))
    (fun ⟨x, hx, y, hy, hne, _⟩ => hne ((horderly x hx).trans (horderly y hy).symm))
  rw [hpaid] at hpays
  exact ⟨hhanded, hpays⟩

end Crossing
