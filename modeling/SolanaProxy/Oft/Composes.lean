import SolanaProxy.Oft.ReceiveTypes
import SolanaProxy.Oft.Transfers

/-!
# Composed messages over runs of the mesh

What a composer reads off the bytes it is handed: the source, the nonce, who has composed and what.
A delivery composes the bytes behind the amount of its message (`compositions_eq`), and a send puts
its signer in front of what it composes (`sent_sublist_composes`). So a composer is told of every
send once, and of nobody but its signer (`composes_cross_once`).
-/

namespace Oft

open Solana Machine

variable {ι : Type}

/-- What is handed to a composer on a chain. -/
structure Composition (ι : Type) where
  chain : ι
  composer : Pubkey
  guid : ByteArr 32
  nonce : Option U64
  srcEid : Option U32
  composeFrom : Option Pubkey
  composeMsg : Bytes
deriving DecidableEq

/-- What the composer reads. -/
def Composition.read (c : ι) (p : SendComposeParams) : Composition ι :=
  ⟨c, p.toAddress, p.guid, ComposeMsgCodec.nonce p.message, ComposeMsgCodec.srcEid p.message,
    ComposeMsgCodec.composeFrom p.message, ComposeMsgCodec.composeMsg p.message⟩

/-- What a message from a store to a store has to compose. -/
def composition? (S : Sites ι) (x : ι × ClearParams) : Option (Composition ι) :=
  if S.FromStore x.2 ∧ x.2.receiver = S.store x.1 then do
    let composer ← MsgCodec.sendTo x.2.message
    let composed ← MsgCodec.composeMsg x.2.message
    return .read x.1 ⟨composer, x.2.guid, 0#16,
      ComposeMsgCodec.encode x.2.nonce x.2.srcEid 0#64 composed⟩
  else none

/-- What an entry of a history composes for the messages of the stores. -/
def compositions (S : Sites ι) : MeshInput ι × List OFTEffect → List (Composition ι)
  | (.oft c (.call _ (.lzReceive ctx params)) _, es) =>
    if S.FromStore (ctx.clearParams params) ∧ ctx.oftStore.pubkey = S.store c then
      (es.filterMap composed?).map (.read c)
    else []
  | _ => []

/-- What an entry of a history sends from a store to a chain of the mesh to be composed there. -/
def composes? (S : Sites ι) : MeshInput ι × List OFTEffect → Option (Composition ι)
  | (.oft c (.call _ (.send ctx params)) stamp, _) =>
    if ctx.oftStore.pubkey = S.store c then do
      let d ← S.chainOf params.dstEid
      let composeMsg ← params.composeMsg
      return ⟨d, params.toAddress, stamp.guid, some stamp.nonce, some (S.eid c),
        some ctx.signer.pubkey, composeMsg⟩
    else none
  | _ => none

/-- What is composed does not depend on the amount in front of it. -/
theorem Composition.read_encode (c : ι) (to' : Pubkey) (guid : ByteArr 32) (nonce : U64)
    (srcEid : U32) (a a' : U64) (composed : Bytes) :
    read c ⟨to', guid, 0#16, ComposeMsgCodec.encode nonce srcEid a composed⟩ =
      read c ⟨to', guid, 0#16, ComposeMsgCodec.encode nonce srcEid a' composed⟩ := by
  have hparts : ∀ a : U64,
      ComposeMsgCodec.composeFrom (ComposeMsgCodec.encode nonce srcEid a composed) =
          (if 52 ≤ 20 + composed.length then some (composed.take 32) else none).bind
            (Bytes.toArr? 32) ∧
        ComposeMsgCodec.composeMsg (ComposeMsgCodec.encode nonce srcEid a composed) =
          if 52 < 20 + composed.length then composed.drop 32 else [] := by
    intro a
    have hhead : (nonce.toBeBytes ++ srcEid.toBeBytes ++ a.toBeBytes).length = 20 := by simp
    have hlength : (ComposeMsgCodec.encode nonce srcEid a composed).length =
        20 + composed.length := by
      rw [ComposeMsgCodec.encode, List.length_append, hhead]
    have hdrop : (ComposeMsgCodec.encode nonce srcEid a composed).drop 20 = composed := by
      rw [ComposeMsgCodec.encode, ← hhead, List.drop_left]
    constructor
    · simp [ComposeMsgCodec.composeFrom, ComposeMsgCodec.composeFromOffset,
        ComposeMsgCodec.composeMsgOffset, Bytes.slice?, hlength, hdrop]
    · rw [ComposeMsgCodec.composeMsg, ComposeMsgCodec.composeMsgOffset, hlength,
        show 52 = 20 + 32 from rfl, ← List.drop_drop, hdrop]
  simp only [read, ComposeMsgCodec.nonce_encode, ComposeMsgCodec.srcEid_encode, (hparts _).1,
    (hparts _).2]

section Compositions

variable {S : Sites ι}

theorem composition?_eq_none {c : ι} {message : ClearParams}
    (hother : ¬(S.FromStore message ∧ message.receiver = S.store c)) :
    composition? S (c, message) = none := if_neg hother

theorem composition?_eq {c : ι} {message : ClearParams} {composer : Pubkey}
    (hstores : S.FromStore message ∧ message.receiver = S.store c)
    (hcomposer : MsgCodec.sendTo message.message = some composer) (a : U64) :
    composition? S (c, message) =
      (MsgCodec.composeMsg message.message).map fun composed => .read c ⟨composer, message.guid,
        0#16, ComposeMsgCodec.encode message.nonce message.srcEid a composed⟩ := by
  rw [composition?, if_pos hstores, hcomposer]
  cases MsgCodec.composeMsg message.message with
  | none => rfl
  | some composed => exact congrArg some (Composition.read_encode ..)

/-- Nothing but a delivery composes. -/
theorem compositions_eq_nil {i : MeshInput ι} {es : List OFTEffect}
    (hother : ∀ c env ctx params stamp, i ≠ .oft c (.call env (.lzReceive ctx params)) stamp) :
    compositions S (i, es) = [] := by
  unfold compositions
  split
  case h_1 c env ctx params stamp es' heq =>
    exact absurd (Prod.mk.inj heq).1 (hother c env ctx params stamp)
  case h_2 => rfl

/-- What a delivery composes, with the amount that arrived in front. -/
theorem LzReceive.Trace.composed_eq_encode {P : Platform} {env : Env} {w w' : OFTWorld}
    {es : List OFTEffect} {ctx : LzReceive} {params : LzReceiveParams}
    (t : Trace P env w ctx params w' es) :
    es.filterMap composed? = ((MsgCodec.composeMsg params.message).map fun composed =>
      ⟨ctx.toAddress.pubkey, params.guid, 0#16,
        ComposeMsgCodec.encode params.nonce params.srcEid t.received composed⟩).toList := by
  obtain ⟨composed, hbytes, hcomposed⟩ := t.composed_eq
  rw [hcomposed]
  cases hmessage : MsgCodec.composeMsg params.message with
  | none =>
    obtain rfl := (LzReceiveTypes.composeBytes_eq_none hbytes).mpr hmessage
    rfl
  | some message =>
    simp only [LzReceiveTypes.composeBytes, hmessage, t.shared, Except.ofOption_some,
      Except.ok_bind, t.local_eq, received_of_releaseTokens t.tokens, Except.pure_eq_ok] at hbytes
    rw [← hbytes]
    rfl

variable [DecidableEq ι] {m m' : Mesh S} {i : MeshInput ι} {es : List OFTEffect}

/-- **What is composed** is what is taken from the wire. -/
theorem compositions_eq (h : m.step S i = .ok (m', es)) :
    compositions S (i, es) =
      ((wireEvents S (i, es)).filterMap Channel.Event.taken?).filterMap (composition? S) := by
  obtain ⟨htaken, hother⟩ | ⟨c, env, ctx, params, stamp, w', rfl, htaken, ⟨t⟩⟩ :=
    Mesh.taken_cases h
  · rw [htaken, compositions_eq_nil hother, List.filterMap_nil]
  · rw [htaken, compositions, t.composed_eq_encode]
    by_cases hof : S.FromStore (ctx.clearParams params) ∧ ctx.oftStore.pubkey = S.store c
    · rw [if_pos hof]
      have hread := composition?_eq hof t.accounts.to_address t.received
      cases hcomposed : MsgCodec.composeMsg params.message with
      | none =>
        rw [List.filterMap_cons_none (hread.trans (congrArg _ hcomposed))]
        rfl
      | some composed =>
        rw [List.filterMap_cons_some (hread.trans (congrArg _ hcomposed))]
        rfl
    · rw [if_neg hof, List.filterMap_cons_none (composition?_eq_none hof), List.filterMap_nil]

/-- **What is sent** to be composed has its signer in front. -/
theorem sent_sublist_composes (h : m.step S i = .ok (m', es)) :
    (((wireEvents S (i, es)).filterMap Channel.Event.sent?).filterMap (composition? S)).Sublist
      (composes? S (i, es)).toList := by
  obtain hother | ⟨c, env, ctx, params, stamp, receipt, d, w', rfl, hk, hd, t, hsent⟩ :=
    Mesh.sent_cases h
  · have hnone : ((wireEvents S (i, es)).filterMap Channel.Event.sent?).filterMap
        (composition? S) = [] :=
      List.filterMap_eq_nil_iff.mpr fun x hx => composition?_eq_none fun hof => hother x hx hof.1
    rw [hnone]
    exact List.nil_sublist _
  · rw [hsent, composes?, if_pos hk, hd]
    by_cases hof : S.FromStore (t.message (S.eid c) stamp) ∧
        (t.message (S.eid c) stamp).receiver = S.store d
    · have hread := (composition?_eq hof (MsgCodec.sendTo_encode ..) 0#64).trans
        (congrArg _ (MsgCodec.composeMsg_encode ..))
      cases hcomposed : params.composeMsg with
      | none =>
        rw [hcomposed] at hread
        rw [List.filterMap_cons_none hread]
        exact List.nil_sublist _
      | some composeMsg =>
        rw [hcomposed] at hread
        simp only [Option.map_some, Composition.read, ComposeMsgCodec.nonce_encode,
          ComposeMsgCodec.srcEid_encode, ComposeMsgCodec.composeFrom_encode,
          ComposeMsgCodec.composeMsg_encode] at hread
        rw [List.filterMap_cons_some hread]
        exact List.Sublist.refl _
    · rw [List.filterMap_cons_none (composition?_eq_none hof)]
      exact List.nil_sublist _

/-- **Composed messages cross once.** Take the stores of a token on several chains and any run of
all programs and the wire between them, in which no two of the payloads of messages to a chain have
one hash. Then:

* what composers are handed for messages of the stores is, with multiplicities, part of what was
  sent to be composed: who is called on which chain, the nonce and the source, who has composed, and
  what;
* who has composed is the signer of the send, and what is sent is not below the minimum of the send;
* the amount a composer reads is the one that the delivery reports to have arrived. -/
theorem composes_cross_once (S : Sites ι) (oft : (c : ι) → OFTState (S.platform c))
    (is : List (MeshInput ι)) (hcollision : ¬Merkle.Collision S.hash (Mesh.payloads oft is)) :
    ((history (Mesh.step S) (.start oft) is).flatMap (compositions S)).Subperm
      ((history (Mesh.step S) (.start oft) is).filterMap (composes? S)) ∧
    (∀ c env ctx params stamp es, (.oft c (.call env (.send ctx params)) stamp, es) ∈
        history (Mesh.step S) (.start oft) is →
      ctx.signer.isSigner = true ∧ params.minAmountLd.toNat ≤ sentLd es) ∧
    ∀ c env ctx params stamp es, (.oft c (.call env (.lzReceive ctx params)) stamp, es) ∈
        history (Mesh.step S) (.start oft) is → ∀ p ∈ es.filterMap composed?, ∃ received,
      ComposeMsgCodec.amountLd p.message = some received ∧
        .event (.oftReceived params.guid params.srcEid p.toAddress received) ∈ es := by
  refine ⟨?_, fun c env ctx params stamp es hentry => ?_,
    fun c env ctx params stamp es hentry p hp => ?_⟩
  · have hcomposes : (history (Mesh.step S) (.start oft) is).filterMap (composes? S) =
        (transitions (Mesh.step S) (.start oft) is).filterMap fun t => composes? S t.2 := by
      rw [← map_transitions, List.filterMap_map]
      rfl
    rw [hcomposes]
    refine Channel.crosses_once Mesh.wire (composition? S) (Mesh.agrees_run oft is)
      (Mesh.eq_of_labels hcollision) (fun t ht => ?_) fun t ht => ?_
    · obtain ⟨_, _, m', -, -, hstep⟩ := exists_of_mem_transitions ht
      exact compositions_eq hstep
    · obtain ⟨_, _, m', -, -, hstep⟩ := exists_of_mem_transitions ht
      exact sent_sublist_composes hstep
  · obtain ⟨w, w', hexec⟩ := Mesh.exists_execute hentry
    obtain ⟨receipt, oftReceipt, hc⟩ := Instruction.execute_send hexec
    obtain ⟨t⟩ := Send.nonempty_trace hc
    rw [t.sentLd_eq]
    exact ⟨t.accounts.signer_signed, t.slippage⟩
  · obtain ⟨w, w', hexec⟩ := Mesh.exists_execute hentry
    obtain ⟨t⟩ := LzReceive.nonempty_trace hexec
    rw [t.composed_eq_encode, Option.mem_toList, Option.map_eq_some_iff] at hp
    obtain ⟨composed, -, rfl⟩ := hp
    have hevent : (.event (.oftReceived params.guid params.srcEid ctx.toAddress.pubkey
        t.received) : OFTEffect) ∈ es :=
      (congrArg (_ ∈ ·) t.effects_eq).mpr
        (List.mem_append_right _ (List.mem_singleton_self _))
    exact ⟨t.received, ComposeMsgCodec.amountLd_encode .., hevent⟩

end Compositions

/-- A delivery on the sample mesh with something to compose. -/
def sampleComposedParams : LzReceiveParams :=
  { sampleArrivalParams with
    message := MsgCodec.encode sampleReceiver 99003#64 sampleUser (some [7, 8]) }

/-- The tokens are sent with two bytes to compose, and the message is verified and delivered. -/
def sampleComposedTransfer : List (MeshInput SampleChain) :=
  [.oft .home (.call sampleEnv (.send sampleSend
      { sampleTransferParams with composeMsg := some [7, 8] })) ⟨1#64, sampleKey 60⟩,
    .verify .away (sampleArrival.clearParams sampleComposedParams),
    .oft .away (.call sampleEnv (.lzReceive sampleArrival sampleComposedParams)) ⟨0#64, zero32⟩]

/-- The composer is told who has composed what. -/
theorem composes_cross_once_sample :
    (history (Mesh.step sampleSites) (.start sampleOft) sampleComposedTransfer).flatMap
        (compositions sampleSites) = [⟨.away, sampleReceiver, sampleKey 60, some 1#64,
          some sampleHomeEid, some sampleUser, [7, 8]⟩] ∧
      [⟨.away, sampleReceiver, sampleKey 60, some 1#64, some sampleHomeEid, some sampleUser,
          [7, 8]⟩].Subperm
        ((history (Mesh.step sampleSites) (.start sampleOft) sampleComposedTransfer).filterMap
          (composes? sampleSites)) := by
  have hcompositions : (history (Mesh.step sampleSites) (.start sampleOft)
      sampleComposedTransfer).flatMap (compositions sampleSites) =
        [⟨.away, sampleReceiver, sampleKey 60, some 1#64, some sampleHomeEid, some sampleUser,
          [7, 8]⟩] := by
    decide +kernel
  have hpayload : ∀ x ∈ Mesh.payloads sampleOft sampleComposedTransfer,
      x = (.away, (sampleArrival.clearParams sampleComposedParams).payload) := by
    decide +kernel
  obtain ⟨hsubperm, -⟩ := composes_cross_once sampleSites sampleOft sampleComposedTransfer
    fun ⟨x, hx, y, hy, hne, _⟩ => hne ((hpayload x hx).trans (hpayload y hy).symm)
  rw [hcompositions] at hsubperm
  exact ⟨hcompositions, hsubperm⟩

end Oft
