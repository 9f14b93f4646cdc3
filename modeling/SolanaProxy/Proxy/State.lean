import SolanaProxy.Proxy.Codec
import SolanaProxy.Solana.PeerConfig

/-!
# The proxy's accounts

The six kinds of account of the proxy program, the seeds of their addresses, its errors and
its events. `WellPlaced` is the invariant about where accounts are: every account of the
program sits at the canonical address of its own seeds and stores the bump of that address,
the claim data of a user at the user's address. A `ProxyState` is a world with that
invariant.

Under collision freedom an account is then found by what it is for: `WellPlaced.claimData_eq`
and `WellPlaced.peerConfig_eq` turn the `seeds` constraints of the instructions, which check
a stored bump only, into the canonical address.
-/

namespace Proxy

open Solana

/-! ### Errors and events -/

/-- `ProxyError`. -/
inductive ProxyError where
  | invalidProxyAdmin
  | sameAdmin
  | rateLimitExceeded
  | invalidFee
  | invalidMintAuthority
  | proxyPaused
  | invalidUser
  | invalidPayloadType
  | invalidUSDCAccount
  | invalidReceiver
  | invalidLedgerPayloadType
  | invalidSender
  | insufficientMessagingFee
  | insufficientBalance
  | invalidLedgerTokenType
deriving DecidableEq

/-- The parameters of `send_request` and `quote_request`. -/
structure RequestParams where
  payloadType : U8
  payload : Bytes
deriving DecidableEq

/-- The events of the proxy. -/
inductive ProxyEvent where
  | requestSent (guid : ByteArr 32) (request : RequestParams)
  | claimProofSubmitted (user : Pubkey) (distributionId : U32)
      (cumulativeAmount merkleRoot : ByteArr 32)
  | claimRequestSent (guid : ByteArr 32) (user : Pubkey)
      (distributionId cumulativeAmount merkleRoot : ByteArr 32)
  | adminRoleTransferred (oldAdmin newAdmin : Pubkey)
  | proxyPaused (paused : Bool)
deriving DecidableEq

/-! ### Accounts -/

/-- The configuration of the proxy. -/
structure ProxyConfig where
  bump : U8
  endpointProgram : Pubkey
  usdcTokenAccount : Pubkey
  admin : Pubkey
  orderlyEid : U32
  solChainId : U32
  paused : Bool
deriving DecidableEq

/-- The accounts `lz_receive_types` is called with. -/
structure LzReceiveTypesAccounts where
  proxyConfig : Pubkey
  accountList : Pubkey
deriving DecidableEq

/-- The account list that `LzReceiveTypesAccounts` points to. -/
structure AccountList where
  bump : U8
  usdcTokenAccount : Pubkey
deriving DecidableEq

/-- The fees charged for the message that comes back from the ledger. -/
structure BackwardFee where
  bump : U8
  orderBackwardFee : U64
  usdcBackwardFee : U64
deriving DecidableEq

/-- A claim a user has submitted and not yet sent. -/
structure ClaimData where
  bump : U8
  distributionId : ByteArr 32
  amount : ByteArr 32
  root : ByteArr 32
  user : Pubkey
deriving DecidableEq

/-- `ProxyConfig::INIT_SPACE`. -/
def ProxyConfig.initSpace : ℕ := 1 + 32 + 32 + 32 + 4 + 4 + 1

/-- `LzReceiveTypesAccounts::INIT_SPACE`. -/
def LzReceiveTypesAccounts.initSpace : ℕ := 32 + 32

/-- `AccountList::INIT_SPACE`. -/
def AccountList.initSpace : ℕ := 1 + 32

/-- `BackwardFee::INIT_SPACE`. -/
def BackwardFee.initSpace : ℕ := 1 + 8 + 8

/-- `ClaimData::INIT_SPACE`. -/
def ClaimData.initSpace : ℕ := 1 + 32 + 32 + 32 + 32

/-- The configuration before the first write. -/
def ProxyConfig.zero : ProxyConfig := ⟨0, zero32, zero32, zero32, 0#32, 0#32, false⟩

/-- The accounts of `lz_receive_types` before the first write. -/
def LzReceiveTypesAccounts.zero : LzReceiveTypesAccounts := ⟨zero32, zero32⟩

/-- The account list before the first write. -/
def AccountList.zero : AccountList := ⟨0, zero32⟩

/-- The backward fees before the first write. -/
def BackwardFee.zero : BackwardFee := ⟨0, 0#64, 0#64⟩

/-- The claim data before the first write. -/
def ClaimData.zero : ClaimData := ⟨0, zero32, zero32, zero32, zero32⟩

/-- The payload of a claim: distribution id, cumulative amount and Merkle root. -/
def ClaimData.encodeClaimPayload (d : ClaimData) : Bytes :=
  d.distributionId.toList ++ d.amount.toList ++ d.root.toList

/-- The content of an account of the program. -/
inductive ProxyAccount where
  | proxyConfig (c : ProxyConfig)
  | lzReceiveTypesAccounts (t : LzReceiveTypesAccounts)
  | accountList (l : AccountList)
  | backwardFee (f : BackwardFee)
  | peerConfig (p : PeerConfig)
  | claimData (d : ClaimData)
deriving DecidableEq

/-- The configuration among the accounts. -/
def ProxyConfig.kind : AccountKind ProxyAccount ProxyConfig where
  wrap := .proxyConfig
  unwrap | .proxyConfig c => some c | _ => none
  unwrap_eq_some {d _} := by cases d <;> simp

/-- The accounts of `lz_receive_types` among the accounts. -/
def LzReceiveTypesAccounts.kind : AccountKind ProxyAccount LzReceiveTypesAccounts where
  wrap := .lzReceiveTypesAccounts
  unwrap | .lzReceiveTypesAccounts t => some t | _ => none
  unwrap_eq_some {d _} := by cases d <;> simp

/-- The account lists among the accounts. -/
def AccountList.kind : AccountKind ProxyAccount AccountList where
  wrap := .accountList
  unwrap | .accountList l => some l | _ => none
  unwrap_eq_some {d _} := by cases d <;> simp

/-- The backward fees among the accounts. -/
def BackwardFee.kind : AccountKind ProxyAccount BackwardFee where
  wrap := .backwardFee
  unwrap | .backwardFee f => some f | _ => none
  unwrap_eq_some {d _} := by cases d <;> simp

/-- The peers among the accounts. -/
def peerKind : AccountKind ProxyAccount PeerConfig where
  wrap := .peerConfig
  unwrap | .peerConfig p => some p | _ => none
  unwrap_eq_some {d _} := by cases d <;> simp

/-- The claim data among the accounts. -/
def ClaimData.kind : AccountKind ProxyAccount ClaimData where
  wrap := .claimData
  unwrap | .claimData d => some d | _ => none
  unwrap_eq_some {d _} := by cases d <;> simp

@[simp] theorem ProxyConfig.wrap_kind (c : ProxyConfig) : kind.wrap c = .proxyConfig c := rfl

@[simp]
theorem LzReceiveTypesAccounts.wrap_kind (t : LzReceiveTypesAccounts) :
    kind.wrap t = .lzReceiveTypesAccounts t :=
  rfl

@[simp] theorem AccountList.wrap_kind (l : AccountList) : kind.wrap l = .accountList l := rfl

@[simp] theorem BackwardFee.wrap_kind (f : BackwardFee) : kind.wrap f = .backwardFee f := rfl

@[simp] theorem wrap_peerKind (p : PeerConfig) : peerKind.wrap p = .peerConfig p := rfl

@[simp] theorem ClaimData.wrap_kind (d : ClaimData) : kind.wrap d = .claimData d := rfl

/-- The world of the proxy program. -/
abbrev ProxyWorld := World ProxyAccount

/-- The effects of the proxy program. -/
abbrev ProxyEffect := Effect ProxyEvent

/-! ### Seeds -/

/-- The seeds of the configuration. -/
def proxyConfigSeeds : Bytes := ascii "ProxyConfig"

/-- The seeds of the claim data of a user. -/
def claimDataSeeds (user : Pubkey) : Bytes := ascii "ClaimData" ++ user.toList

/-- The seeds of a peer. -/
def peerSeeds (proxyConfig : Pubkey) (eid : U32) : Bytes :=
  ascii "Peer" ++ proxyConfig.toList ++ eid.toBeBytes

/-- The seeds of the backward fees. -/
def backwardFeeSeeds : Bytes := ascii "BackwardFee"

/-- The seeds of the account list. -/
def accountListSeeds (proxyConfig : Pubkey) : Bytes := ascii "AccountList" ++ proxyConfig.toList

/-- The seeds of the accounts of `lz_receive_types`. -/
def lzReceiveTypesSeeds (proxyConfig : Pubkey) : Bytes :=
  ascii "LzReceiveTypes" ++ proxyConfig.toList

/-- Claim data addresses of different users have different seeds. -/
theorem claimDataSeeds_inj {u u' : Pubkey} {b b' : U8}
    (h : claimDataSeeds u ++ [b] = claimDataSeeds u' ++ [b']) : u = u' ∧ b = b' := by
  have hlen : u.toList.length = u'.toList.length := by simp
  simp only [claimDataSeeds, List.append_assoc, List.append_cancel_left_eq] at h
  obtain ⟨hu, hb⟩ := List.append_inj h hlen
  exact ⟨List.Vector.toList_injective hu, List.head_eq_of_cons_eq hb⟩

/-- Peer addresses of different endpoint ids have different seeds. -/
theorem peerSeeds_inj {c c' : Pubkey} {eid eid' : U32} {b b' : U8}
    (h : peerSeeds c eid ++ [b] = peerSeeds c' eid' ++ [b']) : eid = eid' ∧ b = b' := by
  have hlen : c.toList.length = c'.toList.length := by simp
  simp only [peerSeeds, List.append_assoc, List.append_cancel_left_eq] at h
  obtain ⟨-, hrest⟩ := List.append_inj h hlen
  obtain ⟨heid, hb⟩ := List.append_inj hrest (by simp)
  exact ⟨BitVec.toBeBytes_injective (by decide) heid, List.head_eq_of_cons_eq hb⟩

/-! ### Where accounts are -/

/-- The canonical address of the configuration. -/
def configAddress? (P : Platform) : Option Pubkey :=
  (P.findProgramAddress proxyConfigSeeds).map Prod.fst

/-- The account with the given content belongs at the given address. -/
def ProxyAccount.Placed (P : Platform) (k : Pubkey) : ProxyAccount → Prop
  | .proxyConfig c => P.findProgramAddress proxyConfigSeeds = some (k, c.bump)
  | .lzReceiveTypesAccounts _ =>
    ∃ c b, configAddress? P = some c ∧ P.findProgramAddress (lzReceiveTypesSeeds c) = some (k, b)
  | .accountList l =>
    ∃ c, configAddress? P = some c ∧
      P.findProgramAddress (accountListSeeds c) = some (k, l.bump)
  | .backwardFee f => P.findProgramAddress backwardFeeSeeds = some (k, f.bump)
  | .peerConfig p =>
    ∃ c eid, configAddress? P = some c ∧ P.findProgramAddress (peerSeeds c eid) = some (k, p.bump)
  | .claimData d => P.findProgramAddress (claimDataSeeds d.user) = some (k, d.bump)

/-- Every account of the program is at the canonical address of its seeds. -/
def WellPlaced (P : Platform) (w : ProxyWorld) : Prop :=
  ∀ k a, w.data k = some a → a.Placed P k

/-- A world of the proxy program. -/
structure ProxyState (P : Platform) where
  world : ProxyWorld
  placed : WellPlaced P world

namespace WellPlaced

variable {P : Platform} {w w' : ProxyWorld}

theorem of_data_eq (hw : WellPlaced P w) (h : w'.data = w.data) : WellPlaced P w' := by
  intro k a ha
  rw [h] at ha
  exact hw k a ha

/-- Writing an account where it belongs keeps every account where it belongs. -/
theorem update (hw : WellPlaced P w) {k : Pubkey} {a : ProxyAccount}
    (h : w'.data = Function.update w.data k (some a)) (ha : a.Placed P k) : WellPlaced P w' := by
  intro k' a' ha'
  rw [h, Function.update_apply] at ha'
  split at ha'
  case isTrue heq => rwa [heq, ← Option.some.inj ha']
  case isFalse => exact hw k' a' ha'

/-- Removing an account keeps every other account where it belongs. -/
theorem erase (hw : WellPlaced P w) {k : Pubkey}
    (h : w'.data = Function.update w.data k none) : WellPlaced P w' := by
  intro k' a' ha'
  rw [h, Function.update_apply] at ha'
  split at ha'
  case isTrue => cases ha'
  case isFalse => exact hw k' a' ha'

/-- The configuration is at the canonical address. -/
theorem configAddress_eq (hw : WellPlaced P w) {k : Pubkey} {c : ProxyConfig}
    (h : w.data k = some (.proxyConfig c)) : configAddress? P = some k := by
  have hfind : P.findProgramAddress proxyConfigSeeds = some (k, c.bump) := hw k _ h
  rw [configAddress?, hfind]
  rfl

/-- There is one configuration. -/
theorem config_unique (hw : WellPlaced P w) {k k' : Pubkey} {c c' : ProxyConfig}
    (h : w.data k = some (.proxyConfig c)) (h' : w.data k' = some (.proxyConfig c')) :
    k = k' ∧ c = c' := by
  have hk : k = k' :=
    Option.some.inj ((hw.configAddress_eq h).symm.trans (hw.configAddress_eq h'))
  subst hk
  rw [h, Option.some.injEq, ProxyAccount.proxyConfig.injEq] at h'
  exact ⟨rfl, h'⟩

/-- The address of the configuration is taken. -/
theorem ne_none_of_find (hw : WellPlaced P w) {k k' : Pubkey} {c : ProxyConfig} {b : U8}
    (hc : w.data k = some (.proxyConfig c))
    (hfind : P.findProgramAddress proxyConfigSeeds = some (k', b)) : w.data k' ≠ none := by
  have hplaced : P.findProgramAddress proxyConfigSeeds = some (k, c.bump) := hw _ _ hc
  rw [hfind, Option.some.injEq, Prod.mk.injEq] at hplaced
  rw [hplaced.1, hc]
  exact Option.some_ne_none _

/-- There is one table of backward fees. -/
theorem backwardFee_unique (hw : WellPlaced P w) {k k' : Pubkey} {f f' : BackwardFee}
    (h : w.data k = some (.backwardFee f)) (h' : w.data k' = some (.backwardFee f')) :
    f = f' := by
  have hk : P.findProgramAddress backwardFeeSeeds = some (k, f.bump) := hw k _ h
  have hk' : P.findProgramAddress backwardFeeSeeds = some (k', f'.bump) := hw k' _ h'
  rw [hk, Option.some.injEq, Prod.mk.injEq] at hk'
  obtain ⟨rfl, -⟩ := hk'
  rw [h, Option.some.injEq, ProxyAccount.backwardFee.injEq] at h'
  exact h'

/-- **Claim data by user.** Claim data that passes the `seeds` constraint of a user is at the
canonical address of that user and belongs to that user. -/
theorem claimData_eq (hP : P.DeriveInjective) (hw : WellPlaced P w) {k u : Pubkey}
    {d : ClaimData} (h : w.data k = some (.claimData d))
    (hseeds : P.createProgramAddress (claimDataSeeds u ++ [d.bump]) = some k) :
    d.user = u ∧ P.findProgramAddress (claimDataSeeds u) = some (k, d.bump) := by
  have hfind : P.findProgramAddress (claimDataSeeds d.user) = some (k, d.bump) := hw k _ h
  have hderive := Platform.createProgramAddress_of_find hfind
  obtain ⟨rfl, -⟩ := claimDataSeeds_inj (hP.seeds_eq hderive hseeds)
  exact ⟨rfl, hfind⟩

/-- **Peers by endpoint id.** A peer configuration that passes the `seeds` constraint of an
endpoint id is at the canonical address for that id. -/
theorem peerConfig_eq (hP : P.DeriveInjective) (hw : WellPlaced P w) {k c : Pubkey} {eid : U32}
    {p : PeerConfig} (h : w.data k = some (.peerConfig p)) (hc : configAddress? P = some c)
    (hseeds : P.createProgramAddress (peerSeeds c eid ++ [p.bump]) = some k) :
    P.findProgramAddress (peerSeeds c eid) = some (k, p.bump) := by
  obtain ⟨c', eid', hc', hfind⟩ : (ProxyAccount.peerConfig p).Placed P k := hw k _ h
  obtain rfl : c = c' := Option.some.inj (hc.symm.trans hc')
  have hderive := Platform.createProgramAddress_of_find hfind
  obtain ⟨rfl, -⟩ := peerSeeds_inj (hP.seeds_eq hderive hseeds)
  exact hfind

end WellPlaced

end Proxy
