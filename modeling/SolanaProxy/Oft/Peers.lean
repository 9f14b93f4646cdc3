import SolanaProxy.Oft.Backing
import SolanaProxy.Oft.ReceiveTypes

/-!
# Who a mesh receives from

A store receives what comes from its peers, and its admin says who they are. Nothing but a setting
names a peer (`Names.of_peerChange`), so where every setting names the store of its chain, what is
received comes from the stores (`received_from_stores`). A peer that was never named has the zero
address, and nothing else.
-/

namespace Oft

open Solana Machine

/-- The peers of the store at `k` are who `known` says, unless they were never named. -/
def Names (P : Platform) (k : Pubkey) (known : U32 → Option Pubkey) (w : OFTWorld) : Prop :=
  ∀ eid key bump p, P.findProgramAddress (peerSeeds k eid) = some (key, bump) →
    w.load peerKind key = some p → p.peerAddress = zero32 ∨ known eid = some p.peerAddress

/-- A setting of the store at `k` names a peer only as `known` says. -/
def Instruction.NamesAs (k : Pubkey) (known : U32 → Option Pubkey) : Instruction → Prop
  | .setPeerConfig ctx ⟨eid, .peerAddress address⟩ =>
    ctx.oftStore.pubkey = k → known eid = some address
  | _ => True

section Program

variable {P : Platform} {env : Env} {w w' : OFTWorld} {es : List OFTEffect} {i : Instruction}
  {k : Pubkey} {known : U32 → Option Pubkey}

/-- What an instruction leaves of a peer was named before or is named by it. -/
theorem Names.of_peerChange (hP : P.DeriveInjective) {eid : U32} {key : Pubkey} {bump : U8}
    (hfind : P.findProgramAddress (peerSeeds k eid) = some (key, bump)) {o o' : Option PeerConfig}
    (hchange : PeerChange P env w es key i o o') (hi : i.NamesAs k known)
    (ho : ∀ p, o = some p → p.peerAddress = zero32 ∨ known eid = some p.peerAddress) :
    ∀ p, o' = some p → p.peerAddress = zero32 ∨ known eid = some p.peerAddress := by
  cases hchange with
  | same hother => exact ho
  | @set ctx params store o p bump' hkey hstore hfind' hset =>
    rintro _ ⟨⟩
    obtain ⟨hk, heid, -⟩ := peerSeeds_inj (hP.seeds_eq
      (Platform.createProgramAddress_of_find hfind') (Platform.createProgramAddress_of_find hfind))
    have hold : (o.getD PeerConfig.zero).peerAddress = zero32 ∨
        known eid = some (o.getD PeerConfig.zero).peerAddress := by
      cases o with
      | none => exact .inl rfl
      | some p₀ => exact ho p₀ rfl
    obtain ⟨remoteEid, config⟩ := params
    obtain ⟨address, rfl, rfl⟩ | ⟨_, -, -, rfl⟩ | ⟨_, _, -, rfl⟩ | ⟨_, _, -, -, rfl⟩ |
      ⟨_, _, -, -, rfl⟩ := PeerConfig.set_cases hset
    · obtain rfl : remoteEid = eid := heid
      exact .inr (hi hk)
    · exact hold
    · exact hold
    · exact hold
    · exact hold
  | sent hkey hconsume =>
    rintro _ ⟨⟩
    obtain ⟨-, -, haddress, -⟩ := frame_of_consumeOutbound hconsume
    rw [haddress]
    exact ho _ rfl
  | @received ctx params p p' amount hkey hconsume hamount =>
    rintro _ ⟨⟩
    obtain ⟨inbound, -, outbound, -, rfl⟩ := consumeInbound_eq_ok.mp hconsume
    exact ho p rfl

/-- **One instruction** keeps the peers named. -/
theorem Names.execute (hP : P.DeriveInjective) (hw : Names P k known w) (hi : i.NamesAs k known)
    (h : i.execute P env w = .ok (w', es)) : Names P k known w' := by
  intro eid key bump p hfind hp
  exact Names.of_peerChange hP hfind (i.peerChange h key) hi
    (fun p₀ hp₀ => hw eid key bump p₀ hfind hp₀) p hp

/-- What a store receives comes from one of its peers. -/
theorem Names.sender_of_trace (hP : P.DeriveInjective) (hdata : WellFormed P w.data)
    (hw : Names P k known w) {ctx : LzReceive} {params : LzReceiveParams}
    (t : LzReceive.Trace P env w ctx params w' es) (hk : ctx.oftStore.pubkey = k) :
    params.sender = zero32 ∨ known params.srcEid = some params.sender := by
  subst hk
  rw [← t.accounts.sender_eq]
  exact hw _ _ _ _ (t.accounts.peer_address hP hdata) (World.load_eq_some.mpr t.accounts.peer_data)

end Program

/-! ### The mesh -/

section Mesh

variable {ι : Type} {S : Sites ι} {setup : ι → OFTStore}

/-- The store of a chain, by the id of its endpoint. -/
def Sites.storeOf (S : Sites ι) (eid : U32) : Option Pubkey := (S.chainOf eid).map S.store

/-- The peers of every store are stores of the mesh, unless they were never named. -/
def Mesh.Registered (m : Mesh S) : Prop :=
  ∀ c, Names (S.platform c) (S.store c) S.storeOf (m.oft c).world

/-- Every setting in a history names stores of the mesh. -/
def RegistersStores (S : Sites ι) (h : List (MeshInput ι × List OFTEffect)) : Prop :=
  ∀ c env i stamp es, (.oft c (.call env i) stamp, es) ∈ h → i.NamesAs (S.store c) S.storeOf

variable [DecidableEq ι] {m m' : Mesh S} {i : MeshInput ι} {es : List OFTEffect}

/-- **One step** of the mesh keeps its peers registered. -/
theorem Mesh.Registered.step (hP : ∀ c, (S.platform c).DeriveInjective) (hm : m.Registered)
    (hi : ∀ c env j stamp, i = .oft c (.call env j) stamp → j.NamesAs (S.store c) S.storeOf)
    (h : m.step S i = .ok (m', es)) : m'.Registered := by
  obtain ⟨hprograms, -⟩ := Mesh.step_eq_ok.mp h
  cases i with
  | verify d message =>
    obtain ⟨hoft, -⟩ := Prod.mk.inj (Except.ok.inj hprograms)
    intro c
    rw [← hoft]
    exact hm c
  | stranger d message =>
    obtain ⟨-, hoft⟩ := Mesh.programs_stranger hprograms
    intro c
    rw [hoft]
    exact hm c
  | oft d j stamp =>
    obtain ⟨s, hstep, hupdate⟩ := Mesh.programs_oft_eq_ok.mp hprograms
    intro c
    rw [hupdate]
    by_cases hd : c = d
    · subst hd
      rw [Function.update_self]
      cases j with
      | outside lamports tokens mints deposits =>
        obtain ⟨rfl, -⟩ := Prod.mk.inj (Except.ok.inj hstep)
        exact hm c
      | call env j =>
        obtain ⟨-, hexec⟩ := Instruction.invoke_eq_ok.mp (step_call_eq_ok.mp hstep)
        exact (hm c).execute (hP c) (hi c env j stamp rfl) hexec
    · rw [Function.update_of_ne hd]
      exact hm c

/-- A step of a run whose settings name stores keeps the peers registered. -/
theorem Mesh.Registered.of_transition (hP : ∀ c, (S.platform c).DeriveInjective)
    {oft : (c : ι) → OFTState (S.platform c)} {is : List (MeshInput ι)}
    (hregisters : RegistersStores S (history (Mesh.step S) (.start oft) is))
    {t : Mesh S × MeshInput ι × List OFTEffect}
    (ht : t ∈ transitions (Mesh.step S) (.start oft) is) (hm : t.1.Registered)
    (h : t.1.step S t.2.1 = .ok (m', t.2.2)) : m'.Registered := by
  refine hm.step hP (fun c env j stamp hinput => ?_) h
  have hentry := mem_history_of_mem_transitions ht
  rw [← Prod.mk.eta (p := t.2), hinput] at hentry
  exact hregisters c env j stamp t.2.2 hentry

/-- **Received from the stores.** Take any run of all programs and the wire between them, from peers
that are stores of the mesh, where every setting of a store names the store of the mesh on the chain
it is for. Then:

* the peers of the stores are stores of the mesh in the end, unless they were never named;
* every message that a store receives comes from the store of the chain it says, or from the zero
  address;
* so nothing is received from elsewhere, if no delivery names the zero address as its sender. -/
theorem received_from_stores (S : Sites ι) (hP : ∀ c, (S.platform c).DeriveInjective)
    (oft : (c : ι) → OFTState (S.platform c)) (hstart : (Mesh.start oft).Registered)
    (is : List (MeshInput ι))
    (hregisters : RegistersStores S (history (Mesh.step S) (.start oft) is)) :
    (run (Mesh.step S) (.start oft) is).Registered ∧
    (∀ c env ctx params stamp es, (.oft c (.call env (.lzReceive ctx params)) stamp, es) ∈
        history (Mesh.step S) (.start oft) is → ctx.oftStore.pubkey = S.store c →
      S.FromStore (ctx.clearParams params) ∨ params.sender = zero32) ∧
    ((∀ c env ctx params stamp es, (.oft c (.call env (.lzReceive ctx params)) stamp, es) ∈
        history (Mesh.step S) (.start oft) is → params.sender ≠ zero32) →
      ∀ setup, ∀ e ∈ history (Mesh.step S) (.start oft) is, foreignSd S setup e = 0) := by
  have hreceived : ∀ c env ctx params stamp es, (.oft c (.call env (.lzReceive ctx params)) stamp,
      es) ∈ history (Mesh.step S) (.start oft) is → ctx.oftStore.pubkey = S.store c →
        S.FromStore (ctx.clearParams params) ∨ params.sender = zero32 := by
    intro c env ctx params stamp es hentry hk
    rw [← map_transitions] at hentry
    obtain ⟨t, ht, hentry⟩ := List.mem_map.mp hentry
    have hm : t.1.Registered :=
      of_mem_transitions (fun t ht m' hm h => Mesh.Registered.of_transition hP hregisters ht hm h)
        hstart ht
    obtain ⟨_, _, m', -, -, hstep⟩ := exists_of_mem_transitions ht
    rw [hentry] at hstep
    obtain ⟨s, hcall, -⟩ := Mesh.programs_oft_eq_ok.mp (Mesh.step_eq_ok.mp hstep).1
    obtain ⟨-, hexec⟩ := Instruction.invoke_eq_ok.mp (step_call_eq_ok.mp hcall)
    obtain ⟨tr⟩ := LzReceive.nonempty_trace hexec
    exact ((hm c).sender_of_trace (hP c) (t.1.oft c).wellFormed tr hk).symm
  refine ⟨?_, hreceived, fun hnone setup e he => ?_⟩
  · exact run_invariant_of_transitions
      (fun t ht m' hm h => Mesh.Registered.of_transition hP hregisters ht hm h) hstart
  · obtain ⟨i, es⟩ := e
    unfold foreignSd
    split
    case h_1 c env ctx params stamp es heq =>
      refine if_neg fun hforeign => ?_
      obtain ⟨rfl, rfl⟩ := Prod.mk.inj heq
      exact hforeign.2 ((hreceived _ _ _ _ _ _ he hforeign.1).resolve_right
        (hnone _ _ _ _ _ _ he))
    case h_2 => rfl

end Mesh

theorem sampleAway_injective : sampleAway.DeriveInjective :=
  deriveInjective_of_table rfl (by decide)

/-- The sample mesh before anything was called. -/
def sampleFreshOft : (c : SampleChain) → OFTState (sampleSites.platform c)
  | .home => sampleFresh
  | .away => sampleAwayFresh

/-- Both deployments are set up with each other as their peers, and tokens are transferred. -/
def sampleRegistered : List (MeshInput SampleChain) :=
  (sampleSetup.take 2 ++ [sampleHomePeer]).map (fun i => .oft .home i ⟨0#64, zero32⟩) ++
    sampleAwayInputs.map (fun i => .oft .away i ⟨0#64, zero32⟩) ++ sampleTransfer

/-- All of it goes through, and the peers are the stores then. -/
theorem received_from_stores_sample :
    (history (Mesh.step sampleSites) (.start sampleFreshOft) sampleRegistered).length = 8 ∧
      (run (Mesh.step sampleSites) (.start sampleFreshOft) sampleRegistered).Registered := by
  have hlength : (history (Mesh.step sampleSites) (.start sampleFreshOft)
      sampleRegistered).length = 8 := by
    decide +kernel
  have hP : ∀ c, (sampleSites.platform c).DeriveInjective := by
    rintro (_ | _)
    · exact samplePlatform_injective
    · exact sampleAway_injective
  have hstart : (Mesh.start (S := sampleSites) sampleFreshOft).Registered := by
    rintro (_ | _) eid key bump p - hp <;> cases hp
  refine ⟨hlength, (received_from_stores sampleSites hP sampleFreshOft hstart sampleRegistered
    fun c env i stamp es hentry => ?_).1⟩
  have hinput := mem_of_mem_history hentry
  simp only [sampleRegistered, sampleSetup, sampleHomePeer, sampleAwayInputs, sampleTransfer,
    List.take, List.map_cons, List.map_nil, List.cons_append, List.nil_append,
    List.mem_cons, List.not_mem_nil, or_false] at hinput
  rcases hinput with h | h | h | h | h | h | h | h <;> cases h
  all_goals first | trivial | exact fun _ => rfl

end Oft
