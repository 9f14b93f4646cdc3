import Mathlib.Logic.Relation
import SolanaProxy.Oft.Codec
import SolanaProxy.Solana.PeerConfig

/-!
# The OFT's accounts

The three kinds of account of the OFT program, its errors and events, and the conversions
between local and shared decimals that its store does.

What the program may do to its accounts is said once, as a relation: `AccountWrite` lists the
writes that may happen to one account, and an instruction performs a sequence of them
(`Writes`). Two facts about whole runs then need one case for each kind of write only: every
account is in order (`WellFormed`), and the part of a store that the sources call immutable
never changes (`OFTStore.SameSetup`).
-/

namespace Oft

open Solana

/-! ### Errors and events -/

/-- `OFTError`. -/
inductive OFTError where
  | unauthorized
  | invalidSender
  | invalidDecimals
  | slippageExceeded
  | invalidTokenDest
  | rateLimitExceeded
  | invalidFee
  | invalidMintAuthority
  | paused
deriving DecidableEq

/-- The events of the OFT. -/
inductive OFTEvent where
  | oftSent (guid : ByteArr 32) (dstEid : U32) (source : Pubkey)
      (amountSentLd amountReceivedLd : U64)
  | oftReceived (guid : ByteArr 32) (srcEid : U32) (toAddress : Pubkey) (amountReceivedLd : U64)
deriving DecidableEq

/-! ### Accounts -/

/-- Whether tokens are burnt and minted, or locked and unlocked. -/
inductive OFTType where
  | native
  | adapter
deriving DecidableEq

/-- The configuration of one OFT; everything after `bump` may change. -/
structure OFTStore where
  oftType : OFTType
  ld2sdRate : U64
  tokenMint : Pubkey
  tokenEscrow : Pubkey
  endpointProgram : Pubkey
  bump : U8
  tvlLd : U64
  admin : Pubkey
  defaultFeeBps : U16
  paused : Bool
  pauser : Option Pubkey
  unpauser : Option Pubkey
deriving DecidableEq

/-- The accounts `lz_receive_types` is called with. -/
structure LzReceiveTypesAccounts where
  oftStore : Pubkey
  tokenMint : Pubkey
deriving DecidableEq

/-- `OFTStore::INIT_SPACE`. -/
def OFTStore.initSpace : ℕ := 1 + 8 + 32 + 32 + 32 + 1 + 8 + 32 + 2 + 1 + (1 + 32) + (1 + 32)

/-- `LzReceiveTypesAccounts::INIT_SPACE`. -/
def LzReceiveTypesAccounts.initSpace : ℕ := 32 + 32

/-- A store before the first write. -/
def OFTStore.zero : OFTStore :=
  ⟨.native, 0#64, zero32, zero32, zero32, 0, 0#64, zero32, 0#16, false, none, none⟩

/-- The accounts before the first write. -/
def LzReceiveTypesAccounts.zero : LzReceiveTypesAccounts := ⟨zero32, zero32⟩

namespace OFTStore

/-- Local units in shared ones, rounded down; a zero rate is a panic. -/
def ld2sd (s : OFTStore) (amountLd : U64) : Result OFTError U64 :=
  Except.ofOption .panic (Word.checkedDiv amountLd s.ld2sdRate)

/-- Shared units in local ones; an overflow is a panic. -/
def sd2ld (s : OFTStore) (amountSd : U64) : Result OFTError U64 :=
  Except.ofOption .panic (Word.checkedMul amountSd s.ld2sdRate)

/-- The amount without what is less than a shared unit; a zero rate is a panic. -/
def removeDust (s : OFTStore) (amountLd : U64) : Result OFTError U64 :=
  Except.ofOption .panic
    (if s.ld2sdRate = 0#64 then none else some (amountLd - amountLd % s.ld2sdRate))

variable {s : OFTStore} {a b : U64}

theorem ld2sd_eq_ok :
    s.ld2sd a = .ok b ↔ 0 < s.ld2sdRate.toNat ∧ b.toNat = a.toNat / s.ld2sdRate.toNat := by
  rw [ld2sd, Except.ofOption_eq_ok, Word.checkedDiv_eq_some]

theorem sd2ld_eq_ok : s.sd2ld a = .ok b ↔ b.toNat = a.toNat * s.ld2sdRate.toNat := by
  rw [sd2ld, Except.ofOption_eq_ok, Word.checkedMul_eq_some]

/-- What is left without dust is the whole shared units of the amount. -/
theorem removeDust_eq_ok :
    s.removeDust a = .ok b ↔
      0 < s.ld2sdRate.toNat ∧ b.toNat = a.toNat / s.ld2sdRate.toNat * s.ld2sdRate.toNat := by
  have hsub : (a - a % s.ld2sdRate).toNat = a.toNat / s.ld2sdRate.toNat * s.ld2sdRate.toNat := by
    have hle : a.toNat % s.ld2sdRate.toNat ≤ a.toNat := Nat.mod_le _ _
    have hdiv : s.ld2sdRate.toNat * (a.toNat / s.ld2sdRate.toNat) +
        a.toNat % s.ld2sdRate.toNat = a.toNat := Nat.div_add_mod _ _
    rw [BitVec.toNat_sub_of_le (by rw [BitVec.le_def, BitVec.toNat_umod]; exact hle),
      BitVec.toNat_umod, mul_comm]
    omega
  have hpos : ¬s.ld2sdRate = 0#64 ↔ 0 < s.ld2sdRate.toNat := by
    rw [← BitVec.toNat_inj, BitVec.toNat_ofNat, Nat.zero_mod]
    omega
  rw [removeDust, Except.ofOption_eq_ok, Option.ite_none_left_eq_some, Option.some.injEq, hpos,
    ← BitVec.toNat_inj, hsub]
  exact and_congr_right fun _ => eq_comm

/-- The part of a store that is fixed when it is created. -/
def SameSetup (s s' : OFTStore) : Prop :=
  s'.oftType = s.oftType ∧ s'.ld2sdRate = s.ld2sdRate ∧ s'.tokenMint = s.tokenMint ∧
    s'.tokenEscrow = s.tokenEscrow ∧ s'.endpointProgram = s.endpointProgram ∧ s'.bump = s.bump

theorem SameSetup.refl (s : OFTStore) : s.SameSetup s := ⟨rfl, rfl, rfl, rfl, rfl, rfl⟩

theorem SameSetup.trans {s s' s'' : OFTStore} (h : s.SameSetup s') (h' : s'.SameSetup s'') :
    s.SameSetup s'' := by
  obtain ⟨htype, hrate, hmint, hescrow, hendpoint, hbump⟩ := h
  obtain ⟨htype', hrate', hmint', hescrow', hendpoint', hbump'⟩ := h'
  exact ⟨htype'.trans htype, hrate'.trans hrate, hmint'.trans hmint, hescrow'.trans hescrow,
    hendpoint'.trans hendpoint, hbump'.trans hbump⟩

end OFTStore

/-- The content of an account of the program. -/
inductive OFTAccount where
  | oftStore (s : OFTStore)
  | lzReceiveTypesAccounts (t : LzReceiveTypesAccounts)
  | peerConfig (p : PeerConfig)
deriving DecidableEq

/-- The stores among the accounts. -/
def OFTStore.kind : AccountKind OFTAccount OFTStore where
  wrap := .oftStore
  unwrap | .oftStore s => some s | _ => none
  unwrap_eq_some {d _} := by cases d <;> simp

/-- The accounts of `lz_receive_types` among the accounts. -/
def LzReceiveTypesAccounts.kind : AccountKind OFTAccount LzReceiveTypesAccounts where
  wrap := .lzReceiveTypesAccounts
  unwrap | .lzReceiveTypesAccounts t => some t | _ => none
  unwrap_eq_some {d _} := by cases d <;> simp

/-- The peers among the accounts. -/
def peerKind : AccountKind OFTAccount PeerConfig where
  wrap := .peerConfig
  unwrap | .peerConfig p => some p | _ => none
  unwrap_eq_some {d _} := by cases d <;> simp

@[simp] theorem OFTStore.wrap_kind (s : OFTStore) : kind.wrap s = .oftStore s := rfl

@[simp]
theorem LzReceiveTypesAccounts.wrap_kind (t : LzReceiveTypesAccounts) :
    kind.wrap t = .lzReceiveTypesAccounts t :=
  rfl

@[simp] theorem wrap_peerKind (p : PeerConfig) : peerKind.wrap p = .peerConfig p := rfl

/-- The world of the OFT program. -/
abbrev OFTWorld := World OFTAccount

/-- The effects of the OFT program. -/
abbrev OFTEffect := Effect OFTEvent

/-! ### Seeds -/

/-- The seeds of a store. -/
def oftSeeds (tokenEscrow : Pubkey) : Bytes := ascii "OFT" ++ tokenEscrow.toList

/-- The seeds of a peer. -/
def peerSeeds (oftStore : Pubkey) (eid : U32) : Bytes :=
  ascii "Peer" ++ oftStore.toList ++ eid.toBeBytes

/-- The seeds of the accounts of `lz_receive_types`. -/
def lzReceiveTypesSeeds (oftStore : Pubkey) : Bytes := ascii "LzReceiveTypes" ++ oftStore.toList

/-- The addresses of peers of different stores or endpoint ids have different seeds. -/
theorem peerSeeds_inj {k k' : Pubkey} {eid eid' : U32} {b b' : U8}
    (h : peerSeeds k eid ++ [b] = peerSeeds k' eid' ++ [b']) : k = k' ∧ eid = eid' ∧ b = b' := by
  have hlen : k.toList.length = k'.toList.length := by simp
  simp only [peerSeeds, List.append_assoc, List.append_cancel_left_eq] at h
  obtain ⟨hk, hrest⟩ := List.append_inj h hlen
  obtain ⟨heid, hb⟩ := List.append_inj hrest (by simp)
  exact ⟨List.Vector.toList_injective hk, BitVec.toBeBytes_injective (by decide) heid,
    List.head_eq_of_cons_eq hb⟩

/-! ### Writes -/

/-- The numbers of a store are in order: its rate is a power of ten, its fee is less than
everything, and only an adapter locks value. -/
def OFTStore.InOrder (s : OFTStore) : Prop :=
  (∃ n, s.ld2sdRate.toNat = 10 ^ n) ∧ s.defaultFeeBps < maxFeeBasisPoints ∧
    (s.oftType = .native → s.tvlLd = 0#64)

/-- The fee of a peer, if it has its own, is less than everything. -/
def PeerInOrder (p : PeerConfig) : Prop := ∀ bps ∈ p.feeBps, bps < maxFeeBasisPoints

theorem OFTStore.InOrder.ld2sdRate_pos {s : OFTStore} (hs : s.InOrder) :
    0 < s.ld2sdRate.toNat := by
  obtain ⟨⟨n, hrate⟩, -⟩ := hs
  exact hrate ▸ Nat.pow_pos (by decide)

/-- The fee in force is less than everything, be it the peer's or the default. -/
theorem OFTStore.InOrder.getD_lt {s : OFTStore} {feeBps : Option U16} (hs : s.InOrder)
    (hfee : ∀ bps ∈ feeBps, bps < maxFeeBasisPoints) :
    feeBps.getD s.defaultFeeBps < maxFeeBasisPoints := by
  obtain ⟨-, hdefault, -⟩ := hs
  cases feeBps with
  | none => exact hdefault
  | some bps => exact hfee bps rfl

/-- The content of all accounts of the program. -/
abbrev Contents := Pubkey → Option OFTAccount

section Contents

variable {data : Contents} {k k' : Pubkey} {s s' : OFTStore} {p : PeerConfig}

/-- An account is one store. -/
theorem oftStore_unique (h : data k = some (.oftStore s)) (h' : data k = some (.oftStore s')) :
    s = s' :=
  OFTAccount.oftStore.inj (Option.some.inj (h.symm.trans h'))

/-- A store is no peer. -/
theorem oftStore_ne_peer (h : data k = some (.oftStore s)) (h' : data k' = some (.peerConfig p)) :
    k ≠ k' := by
  rintro rfl
  cases h.symm.trans h'

end Contents

/-- What the program may write to the account at `k`. -/
inductive AccountWrite (P : Platform) (data : Contents) (k : Pubkey) : OFTAccount → Prop
  /-- a new store, at the address for its escrow -/
  | newStore {s : OFTStore} (hnew : data k = none)
      (hfind : P.findProgramAddress (oftSeeds s.tokenEscrow) = some (k, s.bump))
      (horder : s.InOrder) : AccountWrite P data k (.oftStore s)
  /-- the changeable part of a store -/
  | store {s s' : OFTStore} (hold : data k = some (.oftStore s)) (hsetup : s.SameSetup s')
      (horder : s.InOrder → s'.InOrder) : AccountWrite P data k (.oftStore s')
  | newTypes {t : LzReceiveTypesAccounts} {b : U8} (hnew : data k = none)
      (hfind : P.findProgramAddress (lzReceiveTypesSeeds t.oftStore) = some (k, b)) :
      AccountWrite P data k (.lzReceiveTypesAccounts t)
  /-- a peer, new or not, at the address for its store and endpoint id -/
  | newPeer {p : PeerConfig} {oftStore : Pubkey} {eid : U32}
      (hold : data k = none ∨ ∃ p, data k = some (.peerConfig p))
      (hfind : P.findProgramAddress (peerSeeds oftStore eid) = some (k, p.bump))
      (horder : (∀ p', data k = some (.peerConfig p') → PeerInOrder p') → PeerInOrder p) :
      AccountWrite P data k (.peerConfig p)
  /-- a peer that keeps its bump and its fee -/
  | peer {p p' : PeerConfig} (hold : data k = some (.peerConfig p)) (hbump : p'.bump = p.bump)
      (hfee : p'.feeBps = p.feeBps) : AccountWrite P data k (.peerConfig p')

/-- The contents after one write. -/
inductive WriteStep (P : Platform) (data : Contents) : Contents → Prop
  | write {k : Pubkey} {a : OFTAccount} (h : AccountWrite P data k a) :
      WriteStep P data (Function.update data k (some a))

/-- The contents after any number of writes. -/
abbrev Writes (P : Platform) : Contents → Contents → Prop := Relation.ReflTransGen (WriteStep P)

/-! ### Accounts in order -/

/-- The account with the given content belongs at the given address, and is in order. -/
def OFTAccount.WellFormed (P : Platform) (k : Pubkey) : OFTAccount → Prop
  | .oftStore s =>
    P.findProgramAddress (oftSeeds s.tokenEscrow) = some (k, s.bump) ∧ s.InOrder
  | .lzReceiveTypesAccounts t =>
    ∃ b, P.findProgramAddress (lzReceiveTypesSeeds t.oftStore) = some (k, b)
  | .peerConfig p =>
    (∃ oftStore eid, P.findProgramAddress (peerSeeds oftStore eid) = some (k, p.bump)) ∧
      PeerInOrder p

/-- Every account of the program is in order. -/
def WellFormed (P : Platform) (data : Contents) : Prop :=
  ∀ k a, data k = some a → a.WellFormed P k

/-- A world of the OFT program. -/
structure OFTState (P : Platform) where
  world : OFTWorld
  wellFormed : WellFormed P world.data

section Writes

variable {P : Platform} {data data' : Contents}

theorem WellFormed.storeInOrder (hdata : WellFormed P data) {k : Pubkey} {s : OFTStore}
    (hs : data k = some (.oftStore s)) : s.InOrder := by
  obtain ⟨-, horder⟩ : (OFTAccount.oftStore s).WellFormed P k := hdata k _ hs
  exact horder

theorem WellFormed.peerInOrder (hdata : WellFormed P data) {k : Pubkey} {p : PeerConfig}
    (hp : data k = some (.peerConfig p)) : PeerInOrder p := by
  obtain ⟨-, horder⟩ : (OFTAccount.peerConfig p).WellFormed P k := hdata k _ hp
  exact horder

/-- A written account is in order if all accounts were. -/
theorem AccountWrite.wellFormed {k : Pubkey} {a : OFTAccount} (h : AccountWrite P data k a)
    (hdata : WellFormed P data) : a.WellFormed P k := by
  cases h with
  | newStore hnew hfind horder => exact ⟨hfind, horder⟩
  | @store s s' hold hsetup horder =>
    obtain ⟨hfind, hs⟩ : (OFTAccount.oftStore s).WellFormed P k := hdata k _ hold
    obtain ⟨-, -, -, hescrow, -, hbump⟩ := hsetup
    exact ⟨by rw [hescrow, hbump]; exact hfind, horder hs⟩
  | newTypes hnew hfind => exact ⟨_, hfind⟩
  | newPeer hold hfind horder =>
    exact ⟨⟨_, _, hfind⟩, horder fun p' hp' => hdata.peerInOrder hp'⟩
  | @peer p p' hold hbump hfee =>
    obtain ⟨⟨oftStore, eid, hfind⟩, hp⟩ : (OFTAccount.peerConfig p).WellFormed P k :=
      hdata k _ hold
    refine ⟨⟨oftStore, eid, by rw [hbump]; exact hfind⟩, ?_⟩
    rw [PeerInOrder, hfee]
    exact hp

/-- **Order.** Writes keep all accounts in order. -/
theorem Writes.wellFormed (h : Writes P data data') (hdata : WellFormed P data) :
    WellFormed P data' := by
  induction h with
  | refl => exact hdata
  | tail _ hstep ih =>
    cases hstep with
    | write hwrite =>
      intro k a ha
      rw [Function.update_apply] at ha
      split at ha
      case isTrue hk =>
        obtain rfl := Option.some.inj ha
        exact hk ▸ hwrite.wellFormed ih
      case isFalse => exact ih k a ha

/-- **Permanence.** A store stays a store with the same setup. -/
theorem Writes.sameSetup (h : Writes P data data') {k : Pubkey} {s : OFTStore}
    (hs : data k = some (.oftStore s)) :
    ∃ s', data' k = some (.oftStore s') ∧ s.SameSetup s' := by
  induction h with
  | refl => exact ⟨s, hs, .refl s⟩
  | tail _ hstep ih =>
    obtain ⟨s₁, hs₁, hsame⟩ := ih
    cases hstep with
    | @write k' a hwrite =>
      by_cases hk : k = k'
      · subst hk
        rw [Function.update_self]
        -- only another version of the store may be written over it
        cases hwrite with
        | newStore hnew => exact nomatch hnew.symm.trans hs₁
        | store hold hsetup =>
          obtain rfl := oftStore_unique hold hs₁
          exact ⟨_, rfl, hsame.trans hsetup⟩
        | newTypes hnew => exact nomatch hnew.symm.trans hs₁
        | newPeer hold =>
          rcases hold with hnew | ⟨p, hp⟩
          · exact nomatch hnew.symm.trans hs₁
          · exact nomatch hp.symm.trans hs₁
        | peer hold => exact nomatch hold.symm.trans hs₁
      · exact ⟨s₁, by rw [Function.update_of_ne hk, hs₁], hsame⟩

end Writes

end Oft
