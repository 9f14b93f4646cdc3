import SolanaProxy.General.Channel
import SolanaProxy.General.Merkle
import SolanaProxy.Oft.Books

/-!
# A mesh of OFTs

The program is deployed on several chains, with one store on each of them that belongs to the same
token. A `Mesh` is all of these programs and the wire between them. Anybody calls any of the
programs, messages are verified and delivered in any order, and others send messages to any chain;
only what a program hands to its endpoint enters the wire under the name of its stores, and only
what is stored on the wire is cleared.
-/

namespace Oft

open Solana Machine

/-! ### What instructions hand over -/

/-- The message that an effect hands to the endpoint, with the account it is sent from. -/
def handed? : OFTEffect → Option (Pubkey × Solana.SendParams)
  | .endpointSend _ sender _ params => some (sender, params)
  | _ => none

/-- The message that an effect asks the endpoint to clear. -/
def cleared? (e : OFTEffect) : Option ClearParams := e.called?.bind EndpointCall.cleared?

section Effects

variable {P : Platform} {env : Env} {w w' : OFTWorld} {es : List OFTEffect} {i : Instruction}

/-- The effects that move tokens are neither messages nor calls. -/
theorem handed_of_takeTokens {ctx : Send} {store store' : OFTStore} {mint : Mint}
    {sent received fee : U64}
    (h : ctx.takeTokens env w store mint sent received fee = .ok (w', store', es)) :
    es.filterMap handed? = [] ∧ es.filterMap cleared? = [] := by
  rcases store.adapter_or_native with htype | htype
  · obtain ⟨_, _, -, -, -, -, rfl⟩ := Send.takeTokens_adapter htype h
    exact ⟨rfl, rfl⟩
  · obtain ⟨-, _, -, _, -, hrest⟩ := Send.takeTokens_native htype h
    rcases hrest with ⟨-, rfl⟩ | ⟨-, rfl⟩
    · exact ⟨rfl, rfl⟩
    · exact ⟨rfl, rfl⟩

theorem handed_of_releaseTokens {ctx : LzReceive} {store store' : OFTStore} {mint : Mint}
    {amountLd received : U64}
    (h : ctx.releaseTokens env w store mint amountLd = .ok (w', store', received, es)) :
    es.filterMap handed? = [] ∧ es.filterMap cleared? = [] := by
  rcases store.adapter_or_native with htype | htype
  · obtain ⟨_, _, -, -, -, rfl⟩ := LzReceive.releaseTokens_adapter htype h
    exact ⟨rfl, rfl⟩
  · obtain ⟨-, -, rfl⟩ := LzReceive.releaseTokens_native htype h
    exact ⟨rfl, rfl⟩

/-- A setting hands over nothing but a delegate. -/
theorem handed_of_set {ctx : SetOFTConfig} {params : SetOFTConfigParams} {store store' : OFTStore}
    (h : ctx.set env w store params = .ok (w', store', es)) :
    es.filterMap handed? = [] ∧ es.filterMap cleared? = [] := by
  cases params with
  | delegate delegate =>
    simp only [SetOFTConfig.set, Except.bind_eq_ok, Except.pure_eq_ok, Prod.mk.injEq] at h
    obtain ⟨_, -, -, -, rfl⟩ := h
    exact ⟨rfl, rfl⟩
  | defaultFee feeBps =>
    simp only [SetOFTConfig.set, Except.bind_eq_ok, Except.pure_eq_ok, Prod.mk.injEq] at h
    obtain ⟨-, -, -, -, rfl⟩ := h
    exact ⟨rfl, rfl⟩
  | admin | paused | pauser | unpauser =>
    simp only [SetOFTConfig.set, Except.pure_eq_ok, Prod.mk.injEq] at h
    obtain ⟨-, -, rfl⟩ := h
    exact ⟨rfl, rfl⟩

/-- Composing clears nothing. -/
theorem handed_of_compose {ctx : LzReceive} {params : LzReceiveParams} {store : OFTStore}
    {received : U64} (h : ctx.compose P env w params store received = .ok (w', es)) :
    es.filterMap handed? = [] ∧ es.filterMap cleared? = [] := by
  rw [LzReceive.compose] at h
  split at h
  case h_1 =>
    simp only [Except.bind_eq_ok, Except.pure_eq_ok, Prod.mk.injEq] at h
    obtain ⟨_, -, -, rfl⟩ := h
    exact ⟨rfl, rfl⟩
  case h_2 =>
    obtain ⟨-, rfl⟩ := Prod.mk.inj (Except.ok.inj h)
    exact ⟨rfl, rfl⟩

/-- A send hands over one message of its store, and clears nothing. -/
theorem Send.Trace.handed_eq {ctx : Send} {params : SendParams} {receipt : OFTReceipt}
    (t : Trace P env w ctx params w' es receipt) :
    es.filterMap handed? = [(ctx.oftStore.pubkey,
      ctx.sendParams params t.limited t.amountSd t.options)] ∧ es.filterMap cleared? = [] := by
  obtain ⟨hmoved, hnone⟩ := handed_of_takeTokens t.tokens
  refine ⟨(congrArg (List.filterMap handed?) t.effects_eq).trans ?_,
    (congrArg (List.filterMap cleared?) t.effects_eq).trans ?_⟩
  · rw [List.filterMap_append, hmoved]
    rfl
  · rw [List.filterMap_append, hnone]
    rfl

/-- A delivery clears its message, and hands over nothing. -/
theorem LzReceive.Trace.cleared_eq {ctx : LzReceive} {params : LzReceiveParams}
    (t : Trace P env w ctx params w' es) :
    es.filterMap handed? = [] ∧ es.filterMap cleared? = [ctx.clearParams params] := by
  obtain ⟨hmoved, hnone⟩ := handed_of_releaseTokens t.tokens
  obtain ⟨_, hcompose⟩ := t.composes
  obtain ⟨hcomposed, hnone'⟩ := handed_of_compose hcompose
  refine ⟨(congrArg (List.filterMap handed?) t.effects_eq).trans ?_,
    (congrArg (List.filterMap cleared?) t.effects_eq).trans ?_⟩
  · simp only [List.filterMap_append, hmoved, hcomposed]
    rfl
  · simp only [List.filterMap_append, hnone, hnone']
    rfl

/-- **What an instruction hands over** to the endpoint: nothing that is sent or cleared, the message
of a send, or the message that a delivery clears. -/
theorem Instruction.handed_cases (h : i.execute P env w = .ok (w', es)) :
    (es.filterMap handed? = [] ∧ es.filterMap cleared? = [] ∧ (∀ ctx params, i ≠ .send ctx params) ∧
      ∀ ctx params, i ≠ .lzReceive ctx params) ∨
    (∃ ctx params receipt, i = .send ctx params ∧
      Nonempty (Send.Trace P env w ctx params w' es receipt)) ∨
    ∃ ctx params, i = .lzReceive ctx params ∧
      Nonempty (LzReceive.Trace P env w ctx params w' es) := by
  cases i with
  | send ctx params =>
    obtain ⟨receipt, oftReceipt, hc⟩ := execute_send h
    exact .inr (.inl ⟨ctx, params, oftReceipt, rfl, Send.nonempty_trace hc⟩)
  | lzReceive ctx params => exact .inr (.inr ⟨ctx, params, rfl, LzReceive.nonempty_trace h⟩)
  | initOFT ctx params =>
    simp only [execute, InitOFT.apply, Except.bind_eq_ok, Except.pure_eq_ok, Prod.mk.injEq] at h
    obtain ⟨-, -, -, -, _, -, -, -, -, -, -, -, -, -, _, -, -, -, _, -, _, -, -, rfl⟩ := h
    exact .inl ⟨rfl, rfl, by simp, by simp⟩
  | setOFTConfig ctx params =>
    simp only [execute, SetOFTConfig.apply, Except.bind_eq_ok, Except.pure_eq_ok,
      Prod.mk.injEq] at h
    obtain ⟨store, -, -, -, ⟨w₁, store', es₁⟩, hset, -, rfl⟩ := h
    obtain ⟨hhanded, hcleared⟩ := handed_of_set hset
    exact .inl ⟨hhanded, hcleared, by simp, by simp⟩
  | setPause ctx params =>
    simp only [execute, SetPause.apply, Except.bind_eq_ok, Except.pure_eq_ok, Prod.mk.injEq] at h
    obtain ⟨-, -, store, -, -, -, -, -, -, rfl⟩ := h
    exact .inl ⟨rfl, rfl, by simp, by simp⟩
  | setPeerConfig ctx params =>
    simp only [execute, SetPeerConfig.apply, Except.bind_eq_ok, Except.pure_eq_ok,
      Prod.mk.injEq] at h
    obtain ⟨-, -, store, -, _, -, -, -, peer, -, -, -, -, rfl⟩ := h
    exact .inl ⟨rfl, rfl, by simp, by simp⟩
  | withdrawFee ctx params =>
    simp only [execute, WithdrawFee.apply, Except.bind_eq_ok, Except.pure_eq_ok,
      Prod.mk.injEq] at h
    obtain ⟨_, -, -, -, -, -, _, -, -, rfl⟩ := h
    exact .inl ⟨rfl, rfl, by simp, by simp⟩

end Effects

/-! ### The machine -/

/-- Where the program is deployed: on each chain its platform, the id of the chain's endpoint, and
the store of the token. -/
structure Sites (ι : Type) where
  platform : ι → Platform
  eid : ι → U32
  store : ι → Pubkey
  /-- the chain of an endpoint id -/
  chainOf : U32 → Option ι
  chainOf_eq_some : ∀ e c, chainOf e = some c ↔ eid c = e

variable {ι : Type}

/-- The message comes from a store of the mesh. -/
def Sites.FromStore (S : Sites ι) (m : ClearParams) : Prop :=
  (S.chainOf m.srcEid).map S.store = some m.sender

instance (S : Sites ι) : DecidablePred S.FromStore := fun _ => inferInstanceAs (Decidable (_ = _))

/-- A message on the wire is known by its chain and slot; what is stored is the hash of its
payload. -/
def Sites.labels (S : Sites ι) :
    Channel.Labels (ι × ClearParams) (ι × PayloadSlot) (ι × ByteArr 32) :=
  ⟨fun x => (x.1, x.2.slot), fun x => (x.1, (S.platform x.1).keccak x.2.payload)⟩

/-- The hash of a payload on a chain. -/
def Sites.hash (S : Sites ι) (x : ι × Bytes) : ι × ByteArr 32 :=
  (x.1, (S.platform x.1).keccak x.2)

/-- The programs of a mesh and the wire between them. -/
structure Mesh (S : Sites ι) where
  oft : (c : ι) → OFTState (S.platform c)
  wire : Channel (ι × ClearParams) (ι × PayloadSlot) (ι × ByteArr 32)

/-- What happens: an input of the program on a chain, the verification of a message to a chain, or
a message of somebody else to a chain. -/
inductive MeshInput (ι : Type) where
  | oft (c : ι) (i : Input) (stamp : Stamp)
  | verify (c : ι) (message : ClearParams)
  | stranger (c : ι) (message : ClearParams)

/-- Why an input changes nothing. -/
inductive Refused where
  | failed (e : Failure OFTError)
  | wire
  | notAllowed

/-- The message that enters the wire when the program on a chain hands it to its endpoint, if it
goes to a chain of the mesh. -/
def onWire? (S : Sites ι) (c : ι) (stamp : Stamp) (x : Pubkey × Solana.SendParams) :
    Option (ι × ClearParams) :=
  (S.chainOf x.2.dstEid).map fun d =>
    (d, ⟨x.2.receiver, S.eid c, x.1, stamp.nonce, stamp.guid, x.2.message⟩)

/-- The message of a send, as it enters the wire. -/
def Send.Trace.message {P : Platform} {env : Env} {w w' : OFTWorld} {es : List OFTEffect}
    {ctx : Send} {params : SendParams} {receipt : OFTReceipt}
    (t : Trace P env w ctx params w' es receipt) (eid : U32) (stamp : Stamp) : ClearParams :=
  ⟨t.limited.peerAddress, eid, ctx.oftStore.pubkey, stamp.nonce, stamp.guid,
    MsgCodec.encode params.toAddress t.amountSd ctx.signer.pubkey params.composeMsg⟩

/-- What an entry of a history is for the wire. -/
def wireEvents (S : Sites ι) :
    MeshInput ι × List OFTEffect → List (Channel.Event (ι × ClearParams))
  | (.oft c _ stamp, es) => ((es.filterMap handed?).filterMap (onWire? S c stamp)).map .send ++
      (es.filterMap cleared?).map fun m => .take (c, m)
  | (.verify c message, _) => [.verify (c, message)]
  | (.stranger c message, _) => [.send (c, message)]

namespace Mesh

variable {S : Sites ι}

/-- Nothing was sent yet. -/
def start (oft : (c : ι) → OFTState (S.platform c)) : Mesh S := ⟨oft, Channel.start⟩

variable [DecidableEq ι]

/-- What an input does to the programs. Nobody else sends in the name of a store. -/
def programs (m : Mesh S) :
    MeshInput ι → Except Refused (((c : ι) → OFTState (S.platform c)) × List OFTEffect)
  | .oft c i _ => do
    let (s, es) ← (Oft.step (S.platform c) (m.oft c) i).mapError .failed
    return (Function.update m.oft c s, es)
  | .verify _ _ => return (m.oft, [])
  | .stranger _ message => do
    Except.require (¬S.FromStore message) .notAllowed
    return (m.oft, [])

/-- One input. What it is for the wire has to be possible, or it fails as a whole. -/
def step (S : Sites ι) (m : Mesh S) (i : MeshInput ι) :
    Except Refused (Mesh S × List OFTEffect) := do
  let (oft, es) ← m.programs i
  let wire ← Except.ofOption .wire (m.wire.play S.labels (wireEvents S (i, es)))
  return (⟨oft, wire⟩, es)

section Step

variable {m m' : Mesh S} {i : MeshInput ι} {es : List OFTEffect}

theorem step_eq_ok : m.step S i = .ok (m', es) ↔
    m.programs i = .ok (m'.oft, es) ∧
      m.wire.play S.labels (wireEvents S (i, es)) = some m'.wire := by
  simp only [step, Except.bind_eq_ok, Except.ofOption_eq_ok, Except.pure_eq_ok, Prod.mk.injEq]
  constructor
  · rintro ⟨⟨oft, es⟩, hprograms, wire, hwire, rfl, rfl⟩
    exact ⟨hprograms, hwire⟩
  · rintro ⟨hprograms, hwire⟩
    exact ⟨_, hprograms, _, hwire, rfl, rfl⟩

theorem programs_oft_eq_ok {c : ι} {i : Input} {stamp : Stamp}
    {oft : (c : ι) → OFTState (S.platform c)} : m.programs (.oft c i stamp) = .ok (oft, es) ↔
      ∃ s, Oft.step (S.platform c) (m.oft c) i = .ok (s, es) ∧
        oft = Function.update m.oft c s := by
  simp only [programs, Except.bind_eq_ok, Except.mapError_eq_ok, Except.pure_eq_ok, Prod.mk.injEq]
  constructor
  · rintro ⟨⟨s, es⟩, h, rfl, rfl⟩
    exact ⟨s, h, rfl⟩
  · rintro ⟨s, h, rfl⟩
    exact ⟨(s, es), h, rfl, rfl⟩

/-- What is sent by others does not come from a store. -/
theorem programs_stranger {c : ι} {message : ClearParams}
    {oft : (c : ι) → OFTState (S.platform c)}
    (h : m.programs (.stranger c message) = .ok (oft, es)) :
    ¬S.FromStore message ∧ oft = m.oft := by
  simp only [programs, Except.bind_eq_ok, Except.require_eq_ok, Except.pure_eq_ok,
    Prod.mk.injEq] at h
  obtain ⟨-, hother, rfl, -⟩ := h
  exact ⟨hother, rfl⟩

/-- **What enters the wire** in the name of a store is the message of a send. -/
theorem sent_cases (h : m.step S i = .ok (m', es)) :
    (∀ x ∈ (wireEvents S (i, es)).filterMap Channel.Event.sent?, ¬S.FromStore x.2) ∨
    ∃ c env ctx params stamp receipt d w', i = .oft c (.call env (.send ctx params)) stamp ∧
      ctx.oftStore.pubkey = S.store c ∧ S.chainOf params.dstEid = some d ∧
      ∃ t : Send.Trace (S.platform c) env (m.oft c).world ctx params w' es receipt,
        (wireEvents S (i, es)).filterMap Channel.Event.sent? =
          [(d, t.message (S.eid c) stamp)] := by
  obtain ⟨hprograms, -⟩ := step_eq_ok.mp h
  cases i with
  | oft c i stamp =>
    have hsent : (wireEvents S (.oft c i stamp, es)).filterMap Channel.Event.sent? =
        (es.filterMap handed?).filterMap (onWire? S c stamp) := by
      simp [wireEvents, List.filterMap_map, Function.comp_def, Channel.Event.sent?]
    rw [hsent]
    obtain ⟨s, hstep, -⟩ := programs_oft_eq_ok.mp hprograms
    cases i with
    | outside lamports tokens mints deposits =>
      obtain ⟨-, rfl⟩ := Prod.mk.inj (Except.ok.inj hstep)
      exact .inl fun x hx => (List.not_mem_nil hx).elim
    | call env i =>
      obtain ⟨-, hexec⟩ := Instruction.invoke_eq_ok.mp (step_call_eq_ok.mp hstep)
      obtain ⟨hnone, -⟩ | ⟨ctx, params, receipt, rfl, ⟨t⟩⟩ | ⟨ctx, params, rfl, ⟨t⟩⟩ :=
        Instruction.handed_cases hexec
      · rw [hnone]
        exact .inl fun x hx => (List.not_mem_nil hx).elim
      · rw [t.handed_eq.1]
        cases hd : S.chainOf params.dstEid with
        | none =>
          have hwire : onWire? S c stamp (ctx.oftStore.pubkey,
              ctx.sendParams params t.limited t.amountSd t.options) = none := by
            rw [onWire?, Option.map_eq_none_iff]
            exact hd
          rw [List.filterMap_cons_none hwire]
          exact .inl fun x hx => (List.not_mem_nil hx).elim
        | some d =>
          have hwire : onWire? S c stamp (ctx.oftStore.pubkey,
              ctx.sendParams params t.limited t.amountSd t.options) =
                some (d, t.message (S.eid c) stamp) :=
            congrArg (Option.map _) hd
          rw [List.filterMap_cons_some hwire, List.filterMap_nil]
          by_cases hstore : ctx.oftStore.pubkey = S.store c
          · exact .inr ⟨c, env, ctx, params, stamp, receipt, d, _, rfl, hstore, hd, t, rfl⟩
          · -- another store on the chain does not send in the name of this one
            refine .inl fun x hx hfrom => hstore ?_
            obtain rfl := List.mem_singleton.mp hx
            rw [Sites.FromStore, Send.Trace.message, (S.chainOf_eq_some _ c).mpr rfl] at hfrom
            exact (Option.some.inj hfrom).symm
      · rw [t.cleared_eq.1]
        exact .inl fun x hx => (List.not_mem_nil hx).elim
  | stranger c message =>
    refine .inl fun x hx => ?_
    obtain rfl := List.mem_singleton.mp hx
    exact (programs_stranger hprograms).1
  | verify c message => exact .inl fun x hx => (List.not_mem_nil hx).elim

/-- **What is taken from the wire** is the message of a delivery. -/
theorem taken_cases (h : m.step S i = .ok (m', es)) :
    ((wireEvents S (i, es)).filterMap Channel.Event.taken? = [] ∧
      ∀ c env ctx params stamp, i ≠ .oft c (.call env (.lzReceive ctx params)) stamp) ∨
    ∃ c env ctx params stamp w', i = .oft c (.call env (.lzReceive ctx params)) stamp ∧
      (wireEvents S (i, es)).filterMap Channel.Event.taken? = [(c, ctx.clearParams params)] ∧
      Nonempty (LzReceive.Trace (S.platform c) env (m.oft c).world ctx params w' es) := by
  obtain ⟨hprograms, -⟩ := step_eq_ok.mp h
  cases i with
  | oft c i stamp =>
    have htaken : (wireEvents S (.oft c i stamp, es)).filterMap Channel.Event.taken? =
        (es.filterMap cleared?).map fun m => (c, m) := by
      simp [wireEvents, List.filterMap_map, Function.comp_def, Channel.Event.taken?]
    rw [htaken]
    obtain ⟨s, hstep, -⟩ := programs_oft_eq_ok.mp hprograms
    cases i with
    | outside lamports tokens mints deposits =>
      obtain ⟨-, rfl⟩ := Prod.mk.inj (Except.ok.inj hstep)
      exact .inl ⟨rfl, by simp⟩
    | call env i =>
      obtain ⟨-, hexec⟩ := Instruction.invoke_eq_ok.mp (step_call_eq_ok.mp hstep)
      obtain ⟨-, hnone, -, hother⟩ | ⟨ctx, params, receipt, rfl, ⟨t⟩⟩ | ⟨ctx, params, rfl, ⟨t⟩⟩ :=
        Instruction.handed_cases hexec
      · rw [hnone]
        refine .inl ⟨rfl, fun d env' ctx params stamp' heq => ?_⟩
        cases heq
        exact hother ctx params rfl
      · rw [t.handed_eq.2]
        exact .inl ⟨rfl, by simp⟩
      · rw [t.cleared_eq.2]
        exact .inr ⟨c, env, ctx, params, stamp, _, rfl, rfl, ⟨t⟩⟩
  | verify c message => exact .inl ⟨rfl, by simp⟩
  | stranger c message => exact .inl ⟨rfl, by simp⟩

end Step

/-- **One chain of the mesh.** A run of the mesh is a run of the program on each chain. -/
theorem exists_chain_run (oft : (c : ι) → OFTState (S.platform c)) (is : List (MeshInput ι))
    (c : ι) : ∃ js, run (Oft.step (S.platform c)) (oft c) js =
        (run (step S) (.start oft) is).oft c ∧
      history (Oft.step (S.platform c)) (oft c) js =
        (history (step S) (.start oft) is).filterMap fun
          | (.oft d i _, es) => if d = c then some (i, es) else none
          | _ => none := by
  refine exists_component_run (f := fun m : Mesh S => m.oft c) (fun m i m' es h hnone => ?_)
    (fun m i m' es e h hsome => ?_) (.start oft) is
  · obtain ⟨hprograms, -⟩ := step_eq_ok.mp h
    cases i with
    | oft d i stamp =>
      obtain ⟨s, -, hupdate⟩ := programs_oft_eq_ok.mp hprograms
      have hne : ¬d = c := by simpa using hnone
      rw [hupdate, Function.update_of_ne (Ne.symm hne)]
    | verify d message => rw [← (Prod.mk.inj (Except.ok.inj hprograms)).1]
    | stranger d message => rw [(programs_stranger hprograms).2]
  · obtain ⟨hprograms, -⟩ := step_eq_ok.mp h
    cases i with
    | oft d i stamp =>
      obtain ⟨s, hstep, hupdate⟩ := programs_oft_eq_ok.mp hprograms
      obtain ⟨rfl, rfl⟩ : d = c ∧ (i, es) = e := by simpa using hsome
      rw [hupdate, Function.update_self]
      exact hstep
    | _ => cases hsome

/-- A call in the history of a mesh was executed in some world. -/
theorem exists_execute {oft : (c : ι) → OFTState (S.platform c)} {is : List (MeshInput ι)} {c : ι}
    {env : Env} {i : Instruction} {stamp : Stamp} {es : List OFTEffect}
    (h : (.oft c (.call env i) stamp, es) ∈ history (step S) (.start oft) is) :
    ∃ w w', i.execute (S.platform c) env w = .ok (w', es) := by
  rw [← map_transitions] at h
  obtain ⟨t, ht, hentry⟩ := List.mem_map.mp h
  obtain ⟨_, _, m', -, -, hstep⟩ := exists_of_mem_transitions ht
  rw [hentry] at hstep
  obtain ⟨s, hcall, -⟩ := programs_oft_eq_ok.mp (step_eq_ok.mp hstep).1
  exact ⟨_, _, (Instruction.invoke_eq_ok.mp (step_call_eq_ok.mp hcall)).2⟩

/-- The wire is what the history makes of it. -/
theorem agrees_run (oft : (c : ι) → OFTState (S.platform c)) (is : List (MeshInput ι)) :
    (run (step S) (.start oft) is).wire.Agrees S.labels
      ((history (step S) (.start oft) is).flatMap (wireEvents S)) :=
  Channel.agrees_run Mesh.wire (fun _ _ _ _ h => (step_eq_ok.mp h).2) rfl is

/-- The payloads of the messages that a run has seen, each with its chain. -/
def payloads (oft : (c : ι) → OFTState (S.platform c)) (is : List (MeshInput ι)) :
    List (ι × Bytes) :=
  ((history (step S) (.start oft) is).flatMap (wireEvents S)).map fun ev =>
    (ev.message.1, ev.message.2.payload)

/-- What is taken from the wire is what was sent, where no two payloads on a chain have one
hash. -/
theorem eq_of_labels {oft : (c : ι) → OFTState (S.platform c)} {is : List (MeshInput ι)}
    (hcollision : ¬Merkle.Collision S.hash (payloads oft is)) :
    ∀ x ∈ ((history (step S) (.start oft) is).flatMap (wireEvents S)).filterMap
        Channel.Event.taken?,
      ∀ y ∈ (run (step S) (.start oft) is).wire.sent, S.labels.key y = S.labels.key x →
        S.labels.digest y = S.labels.digest x → y = x := by
  refine (agrees_run oft is).eq_of_labels (fun x => (x.1, x.2.payload)) S.hash (fun _ => rfl)
    (fun x y hkey hpayload => ?_) fun x hx y hy heq =>
      (Merkle.eq_or_collision hx hy heq).resolve_right hcollision
  obtain ⟨hchain, hslot⟩ := Prod.mk.inj hkey
  exact Prod.ext hchain (ClearParams.eq_of_payload_eq hslot (Prod.mk.inj hpayload).2)

end Mesh

end Oft
