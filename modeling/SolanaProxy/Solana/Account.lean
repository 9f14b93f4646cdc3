import SolanaProxy.General.Bytes
import SolanaProxy.General.Word
import SolanaProxy.General.Fallible
import Mathlib.Data.List.Nodup
import Mathlib.Logic.Function.Basic

/-!
# Accounts, derived addresses and account constraints

What an on-chain program sees of the runtime. A `Platform` collects everything that is not
decided by the program's own code: the hash, the derivation of program addresses, the ids
of the programs it calls, the rent rule and the helpers of the `oapp` crate. A `World` is
the state a program acts on: the accounts it owns, by content, and the lamport, token and
mint tables.

The second half is the account constraints: a signature, the `mut` flag, an account loaded
at a program derived address with its stored bump (`loadPda`) or with the canonical bump
(`findPda`), and the two forms of creation, `init` and `init_if_needed`. Each of them has
one theorem that says what its success means (`loadPda_eq_ok`, `findPda_eq_ok`,
`initIfNeeded_eq_ok`, ...); the instructions are read through these alone.

The only assumption about the platform that proofs use is `Platform.DeriveInjective`: the
address derivation does not collide.
-/

namespace Solana

/-- The address of an account. -/
abbrev Pubkey := ByteArr 32

/-- 32 zero bytes, the key `Pubkey::default()`. -/
def zero32 : ByteArr 32 := List.Vector.replicate 32 0

/-- The bytes of an ASCII literal, `b"..."` in the sources. -/
def ascii (s : String) : Bytes := s.toList.map fun c => UInt8.ofNat c.toNat

/-- The seed of the account that may emit events. -/
def eventAuthoritySeeds : Bytes := ascii "__event_authority"

/-- An account as it is handed to an instruction: its address and its two flags. -/
structure AccountInfo where
  pubkey : Pubkey
  isSigner : Bool
  isWritable : Bool
deriving DecidableEq

/-- The account constraints that can be violated. -/
inductive AnchorError where
  | accountNotEnoughKeys
  | accountNotSigner
  | accountNotInitialized
  | accountDidNotSerialize
  | accountDiscriminatorMismatch
  | accountOwnedByWrongProgram
  | invalidProgramId
  | constraintMut
  | constraintSeeds
  | constraintAddress
  | constraintTokenMint
  | constraintTokenOwner
  | constraintTokenTokenProgram
  | constraintMintTokenProgram
  | constraintAssociated
deriving DecidableEq

/-- What can stop an instruction: an error of the program, a violated account constraint, an
invalid argument, a failure of a called program, or a panic. -/
inductive Failure (E : Type) where
  | program (e : E)
  | anchor (e : AnchorError)
  | invalidArgument
  | cpi
  | panic
deriving DecidableEq

/-- The outcome of a computation of a program with errors `E`. -/
abbrev Result (E α : Type) := Except (Failure E) α

/-! ### The platform -/

/-- Everything a program uses that its own code does not decide. -/
structure Platform where
  /-- The id of the program itself. -/
  programId : Pubkey
  /-- The address derived from concatenated seeds for a program, if they derive one. -/
  derive : Bytes → Pubkey → Option Pubkey
  /-- The hash. -/
  keccak : Bytes → ByteArr 32
  systemProgram : Pubkey
  tokenProgram : Pubkey
  token2022Program : Pubkey
  associatedTokenProgram : Pubkey
  /-- The lamports that keep an account of the given size alive. -/
  minimumBalance : ℕ → ℕ
  /-- Whether options are of type 3, in `oapp::options`. -/
  assertType3 : Bytes → Bool
  /-- Enforced options followed by the caller's, in `oapp::options`. -/
  combineOptions : Bytes → Bytes → Option Bytes
  /-- The id of the endpoint program, in `oapp::endpoint`. -/
  endpointId : Pubkey
  /-- The seed of the event authority, in `oapp::endpoint_cpi`. -/
  eventSeed : Bytes
  /-- The number of accounts the endpoint's `clear` takes. -/
  clearMinAccountsLen : ℕ
  /-- The accounts for the endpoint's `clear`: endpoint, receiver, source, sender, nonce. -/
  getAccountsForClear : Pubkey → Pubkey → U32 → ByteArr 32 → U64 → List AccountInfo

namespace Platform

variable (P : Platform)

/-- **Collision freedom.** Different seeds or programs derive different addresses. -/
def DeriveInjective : Prop :=
  ∀ ⦃seeds p seeds' p' k⦄, P.derive seeds p = some k → P.derive seeds' p' = some k →
    seeds = seeds' ∧ p = p'

/-- The address for the given seeds, bump included. -/
def createProgramAddress (seeds : Bytes) : Option Pubkey := P.derive seeds P.programId

/-- The bumps in the order in which they are tried, 255 down to 1. -/
def bumps : List U8 := (List.range 255).map fun i => UInt8.ofNat (255 - i)

/-- The first address on the way down the bumps, for any program. -/
def findAddress (program : Pubkey) (seeds : Bytes) : Option (Pubkey × U8) :=
  bumps.findSome? fun b => (P.derive (seeds ++ [b]) program).map fun k => (k, b)

/-- The canonical address of the program for the given seeds, with its bump. -/
def findProgramAddress (seeds : Bytes) : Option (Pubkey × U8) := P.findAddress P.programId seeds

variable {P}

/-- A found address is the one derived with the found bump. -/
theorem derive_of_findAddress {program k : Pubkey} {seeds : Bytes} {b : U8}
    (h : P.findAddress program seeds = some (k, b)) :
    P.derive (seeds ++ [b]) program = some k := by
  obtain ⟨b', -, hb'⟩ := List.exists_of_findSome?_eq_some h
  obtain ⟨k', hk', heq⟩ := Option.map_eq_some_iff.mp hb'
  obtain ⟨rfl, rfl⟩ := Prod.mk.inj heq
  exact hk'

theorem createProgramAddress_of_find {seeds : Bytes} {k : Pubkey} {b : U8}
    (h : P.findProgramAddress seeds = some (k, b)) :
    P.createProgramAddress (seeds ++ [b]) = some k :=
  derive_of_findAddress h

/-- **Injectivity of addresses.** Two seeds that reach one address agree, bump included. -/
theorem DeriveInjective.seeds_eq (hP : P.DeriveInjective) {seeds seeds' : Bytes} {k : Pubkey}
    (h : P.createProgramAddress seeds = some k) (h' : P.createProgramAddress seeds' = some k) :
    seeds = seeds' :=
  (hP h h').1

end Platform

/-- An address derivation given by a finite table. -/
def tableDerive (table : List ((Bytes × Pubkey) × Pubkey)) (seeds : Bytes) (p : Pubkey) :
    Option Pubkey :=
  (table.find? fun e => e.1 = (seeds, p)).map Prod.snd

/-- A table without repeated addresses derives without collisions. -/
theorem deriveInjective_of_table {P : Platform} {table : List ((Bytes × Pubkey) × Pubkey)}
    (hP : P.derive = tableDerive table) (h : (table.map Prod.snd).Nodup) :
    P.DeriveInjective := by
  have hmem : ∀ {seeds p k}, P.derive seeds p = some k → ((seeds, p), k) ∈ table := by
    intro seeds p k hk
    rw [hP] at hk
    obtain ⟨e, hfind, rfl⟩ := Option.map_eq_some_iff.mp hk
    have hkey : e.1 = (seeds, p) := by simpa using List.find?_some hfind
    rw [← hkey]
    exact List.mem_of_find?_eq_some hfind
  intro seeds p seeds' p' k hk hk'
  have hentry : ((seeds, p), k) = ((seeds', p'), k) :=
    List.inj_on_of_nodup_map h (hmem hk) (hmem hk') rfl
  obtain ⟨hpair, -⟩ := Prod.mk.inj hentry
  exact Prod.mk.inj hpair

/-! ### The state a program acts on -/

/-- A token account: the token program that owns it, its mint, its owner and its balance. -/
structure TokenAccount where
  program : Pubkey
  mint : Pubkey
  owner : Pubkey
  amount : ℕ
deriving DecidableEq

/-- Basis points in one, `ONE_IN_BASIS_POINTS`. -/
def oneInBasisPoints : ℕ := 10000

/-- A transfer fee: basis points of the amount, capped. The token program sets no fee of more
than everything. -/
structure TransferFee where
  epoch : ℕ
  maximumFee : U64
  transferFeeBasisPoints : U16
  basisPoints_le : transferFeeBasisPoints.toNat ≤ oneInBasisPoints
deriving DecidableEq

/-- The transfer fee of a mint and the one that replaces it from its epoch on. -/
structure TransferFeeConfig where
  olderTransferFee : TransferFee
  newerTransferFee : TransferFee
deriving DecidableEq

/-- A mint: the token program that owns it, its decimals, authority and supply, and the
transfer fee extension when it has one. -/
structure Mint where
  program : Pubkey
  decimals : U8
  mintAuthority : Option Pubkey
  supply : ℕ
  transferFeeConfig : Option TransferFeeConfig
deriving DecidableEq

/-- The accounts a program owns, with content in `D`, beside all lamports, token accounts
and mints. -/
@[ext]
structure World (D : Type) where
  data : Pubkey → Option D
  lamports : Pubkey → ℕ
  tokens : Pubkey → Option TokenAccount
  mints : Pubkey → Option Mint

/-- One kind of account among the contents `D`: its content type and how to tell it apart,
the discriminator of the sources. -/
structure AccountKind (D T : Type) where
  wrap : T → D
  unwrap : D → Option T
  unwrap_eq_some : ∀ {d t}, unwrap d = some t ↔ d = wrap t

theorem AccountKind.unwrap_wrap {D T : Type} (K : AccountKind D T) (t : T) :
    K.unwrap (K.wrap t) = some t :=
  K.unwrap_eq_some.mpr rfl

namespace World

variable {D T E : Type}

/-- The content of an account of one kind, if the account is of that kind. -/
def load (K : AccountKind D T) (w : World D) (k : Pubkey) : Option T := (w.data k).bind K.unwrap

/-- The world after the content of one account was written. -/
def store (K : AccountKind D T) (w : World D) (k : Pubkey) (t : T) : World D :=
  { w with data := Function.update w.data k (some (K.wrap t)) }

/-- The world after `n` lamports went from one account to another, if they were there. -/
def transferLamports (w : World D) (src dst : Pubkey) (n : ℕ) : Option (World D) :=
  if n ≤ w.lamports src then
    let paid := Function.update w.lamports src (w.lamports src - n)
    some { w with lamports := Function.update paid dst (paid dst + n) }
  else none

/-- The world after an account of the program was closed and its lamports were given away. -/
def close (w : World D) (k beneficiary : Pubkey) : World D :=
  let emptied := Function.update w.lamports k 0
  { w with
    data := Function.update w.data k none
    lamports := Function.update emptied beneficiary (emptied beneficiary + w.lamports k) }

/-- The world with other accounts of the program. -/
def withData (w : World D) (data : Pubkey → Option D) : World D := { w with data := data }

theorem load_eq_some {K : AccountKind D T} {w : World D} {k : Pubkey} {t : T} :
    w.load K k = some t ↔ w.data k = some (K.wrap t) := by
  rw [load, Option.bind_eq_some_iff]
  constructor
  · rintro ⟨d, hd, hdt⟩
    rw [hd, K.unwrap_eq_some.mp hdt]
  · intro h
    exact ⟨K.wrap t, h, K.unwrap_wrap t⟩

/-- Writing over an account without changing what one kind sees of it changes nothing that
this kind sees. -/
theorem load_of_update {K : AccountKind D T} {w w' : World D} {k : Pubkey} {o : Option D}
    (h : w'.data = Function.update w.data k o) (hk : o.bind K.unwrap = w.load K k) (k' : Pubkey) :
    w'.load K k' = w.load K k' := by
  rw [load, h, Function.update_apply]
  split
  case isTrue heq => rw [heq, hk]
  case isFalse => rfl

/-- What one kind sees after one account was written. -/
theorem load_update {K : AccountKind D T} {w w' : World D} {k : Pubkey} {d : D}
    (h : w'.data = Function.update w.data k (some d)) (k' : Pubkey) :
    w'.load K k' = if k' = k then K.unwrap d else w.load K k' := by
  rw [load, h, Function.update_apply]
  split <;> rfl

theorem load_of_data_eq {K : AccountKind D T} {w w' : World D} (h : w'.data = w.data)
    (k : Pubkey) : w'.load K k = w.load K k := by
  rw [load, load, h]

@[simp]
theorem data_store (K : AccountKind D T) (w : World D) (k : Pubkey) (t : T) :
    (w.store K k t).data = Function.update w.data k (some (K.wrap t)) :=
  rfl

@[simp]
theorem lamports_store (K : AccountKind D T) (w : World D) (k : Pubkey) (t : T) :
    (w.store K k t).lamports = w.lamports :=
  rfl

@[simp]
theorem tokens_store (K : AccountKind D T) (w : World D) (k : Pubkey) (t : T) :
    (w.store K k t).tokens = w.tokens :=
  rfl

@[simp]
theorem mints_store (K : AccountKind D T) (w : World D) (k : Pubkey) (t : T) :
    (w.store K k t).mints = w.mints :=
  rfl

theorem transferLamports_eq_some {w w' : World D} {src dst : Pubkey} {n : ℕ} :
    w.transferLamports src dst n = some w' ↔ n ≤ w.lamports src ∧
      w' = { w with
        lamports :=
          Function.update (Function.update w.lamports src (w.lamports src - n)) dst
            (Function.update w.lamports src (w.lamports src - n) dst + n) } := by
  rw [transferLamports, Option.ite_none_right_eq_some, Option.some.injEq]
  exact and_congr_right fun _ => eq_comm

/-- Moving lamports does not read the accounts of the program. -/
theorem transferLamports_withData {w w' : World D} {src dst : Pubkey} {n : ℕ}
    (h : w.transferLamports src dst n = some w') (data : Pubkey → Option D) :
    (w.withData data).transferLamports src dst n = some (w'.withData data) := by
  obtain ⟨hle, rfl⟩ := transferLamports_eq_some.mp h
  exact if_pos hle

/-- Moving lamports leaves everything else alone. -/
theorem data_of_transferLamports {w w' : World D} {src dst : Pubkey} {n : ℕ}
    (h : w.transferLamports src dst n = some w') :
    w'.data = w.data ∧ w'.tokens = w.tokens ∧ w'.mints = w.mints := by
  obtain ⟨-, rfl⟩ := transferLamports_eq_some.mp h
  exact ⟨rfl, rfl, rfl⟩

/-- `n` lamports went from one account to another, and nothing else moved. -/
structure LamportsMoved (src dst : Pubkey) (n : ℕ) (before after : Pubkey → ℕ) : Prop where
  covered : n ≤ before src
  balance : ∀ k, after k + (if k = src then n else 0) = before k + if k = dst then n else 0

/-- Moving nothing changes nothing. -/
theorem LamportsMoved.zero (src dst : Pubkey) (lamports : Pubkey → ℕ) :
    LamportsMoved src dst 0 lamports lamports where
  covered := Nat.zero_le _
  balance k := by rw [ite_self, ite_self]

/-- Taking lamports from one account, then adding them to another. -/
theorem LamportsMoved.update {src dst : Pubkey} {n : ℕ} {lamports : Pubkey → ℕ}
    (hle : n ≤ lamports src) :
    LamportsMoved src dst n lamports
      (Function.update (Function.update lamports src (lamports src - n)) dst
        (Function.update lamports src (lamports src - n) dst + n)) := by
  refine ⟨hle, fun k => ?_⟩
  simp only [Function.update_apply]
  by_cases hsrc : k = src
  · subst hsrc
    split <;> simp_all
  · by_cases hdst : k = dst
    · subst hdst
      simp [hsrc]
    · simp [hsrc, hdst]

/-- **A payment** moves what it names. -/
theorem moved_of_transferLamports {w w' : World D} {src dst : Pubkey} {n : ℕ}
    (h : w.transferLamports src dst n = some w') :
    LamportsMoved src dst n w.lamports w'.lamports := by
  obtain ⟨hle, rfl⟩ := transferLamports_eq_some.mp h
  exact .update hle

/-- Closing an account moves all it has. -/
theorem moved_close (w : World D) (k beneficiary : Pubkey) :
    LamportsMoved k beneficiary (w.lamports k) w.lamports (w.close k beneficiary).lamports := by
  have hmoved : LamportsMoved k beneficiary (w.lamports k) w.lamports _ := .update le_rfl
  rwa [Nat.sub_self] at hmoved

/-- A payment leaves the lamports of a third account alone. -/
theorem lamports_of_transferLamports {w w' : World D} {src dst k : Pubkey} {n : ℕ}
    (h : w.transferLamports src dst n = some w') (hsrc : src ≠ k) (hdst : dst ≠ k) :
    w'.lamports k = w.lamports k := by
  have hmoved := (moved_of_transferLamports h).balance k
  rwa [if_neg hsrc.symm, if_neg hdst.symm] at hmoved

/-- The payee of a payment gains what the payer loses. -/
theorem lamports_dst_of_transferLamports {w w' : World D} {src dst : Pubkey} {n : ℕ}
    (h : w.transferLamports src dst n = some w') (hne : src ≠ dst) :
    w'.lamports dst = w.lamports dst + n := by
  have hmoved := (moved_of_transferLamports h).balance dst
  rwa [if_neg hne.symm, if_pos rfl] at hmoved

theorem lamports_src_of_transferLamports {w w' : World D} {src dst : Pubkey} {n : ℕ}
    (h : w.transferLamports src dst n = some w') (hne : src ≠ dst) :
    w'.lamports src + n = w.lamports src := by
  have hmoved := (moved_of_transferLamports h).balance src
  rwa [if_pos rfl, if_neg hne] at hmoved

/-- A payment to oneself changes nothing. -/
theorem lamports_self_of_transferLamports {w w' : World D} {k : Pubkey} {n : ℕ}
    (h : w.transferLamports k k n = some w') : w'.lamports k = w.lamports k := by
  have hmoved := (moved_of_transferLamports h).balance k
  exact Nat.add_right_cancel hmoved

end World

/-! ### Account constraints -/

section Constraints

variable {D T E : Type}

/-- `Signer`: the account signed the transaction. -/
def signer (a : AccountInfo) : Result E Unit :=
  Except.require (a.isSigner = true) (.anchor .accountNotSigner)

/-- `mut`: the account may be written. -/
def writable (a : AccountInfo) : Result E Unit :=
  Except.require (a.isWritable = true) (.anchor .constraintMut)

/-- `Program`: the account is the given program. -/
def program (a : AccountInfo) (id : Pubkey) : Result E Unit :=
  Except.require (a.pubkey = id) (.anchor .invalidProgramId)

/-- The `seeds` constraint with a bump that is already known. -/
def checkSeeds (P : Platform) (seeds : Bytes) (bump : U8) (a : AccountInfo) : Result E Unit :=
  Except.require (P.createProgramAddress (seeds ++ [bump]) = some a.pubkey)
    (.anchor .constraintSeeds)

/-- `Account`: the content of an initialized account of one kind. -/
def loadAccount (K : AccountKind D T) (w : World D) (a : AccountInfo) : Result E T :=
  Except.ofOption (.anchor .accountNotInitialized) (w.load K a.pubkey)

/-- `seeds, bump = account.bump`: an account at the address of its seeds and stored bump. -/
def loadPda (P : Platform) (K : AccountKind D T) (bump : T → U8) (w : World D) (seeds : Bytes)
    (a : AccountInfo) : Result E T := do
  let t ← loadAccount K w a
  checkSeeds P seeds (bump t) a
  return t

/-- `seeds, bump`: the account is at the canonical address of its seeds. -/
def findPda (P : Platform) (seeds : Bytes) (a : AccountInfo) : Result E U8 := do
  let (k, bump) ← Except.ofOption .panic (P.findProgramAddress seeds)
  Except.require (a.pubkey = k) (.anchor .constraintSeeds)
  return bump

/-- The payer tops the new account up to its rent. -/
def payRent (P : Platform) (w : World D) (payer a : AccountInfo) (space : ℕ) :
    Result E (World D) :=
  Except.ofOption .cpi
    (w.transferLamports payer.pubkey a.pubkey (P.minimumBalance space - w.lamports a.pubkey))

/-- `sub_lamports` on one account and `add_lamports` on another. -/
def moveLamports (w : World D) (src dst : Pubkey) (n : U64) : Result E (World D) :=
  Except.ofOption .invalidArgument (w.transferLamports src dst n.toNat)

/-- `init, payer, space, seeds, bump`: the account is new, at its canonical address, its rent
is paid, and it starts with the zeroed content `zero`. -/
def init (P : Platform) (K : AccountKind D T) (zero : T) (w : World D) (seeds : Bytes)
    (payer a : AccountInfo) (space : ℕ) : Result E (World D × U8) := do
  let bump ← findPda P seeds a
  writable a
  Except.require (w.data a.pubkey = none) .cpi
  let w' ← payRent P w payer a space
  return (w'.store K a.pubkey zero, bump)

/-- `init_if_needed, payer, space, seeds, bump`: the account is at its canonical address; when
it does not exist yet, its rent is paid and its content is zeroed, otherwise its content is
loaded. The content is written when the instruction ends. -/
def initIfNeeded (P : Platform) (K : AccountKind D T) (zero : T) (w : World D) (seeds : Bytes)
    (payer a : AccountInfo) (space : ℕ) : Result E (World D × T × U8) := do
  let bump ← findPda P seeds a
  writable a
  if w.data a.pubkey = none then
    let w' ← payRent P w payer a space
    return (w', zero, bump)
  else
    let t ← Except.ofOption (.anchor .accountDiscriminatorMismatch) (w.load K a.pubkey)
    return (w, t, bump)

variable {P : Platform} {K : AccountKind D T} {w w' : World D} {seeds : Bytes}
  {a payer : AccountInfo} {t zero : T} {bump : U8} {space : ℕ}

theorem loadPda_eq_ok {bumpOf : T → U8} :
    loadPda (E := E) P K bumpOf w seeds a = .ok t ↔ w.data a.pubkey = some (K.wrap t) ∧
      P.createProgramAddress (seeds ++ [bumpOf t]) = some a.pubkey := by
  simp only [loadPda, loadAccount, checkSeeds, Except.bind_eq_ok, Except.ofOption_eq_ok,
    Except.require_eq_ok, Except.pure_eq_ok, World.load_eq_some]
  constructor
  · rintro ⟨t', hload, -, hseeds, rfl⟩
    exact ⟨hload, hseeds⟩
  · rintro ⟨hload, hseeds⟩
    exact ⟨t, hload, (), hseeds, rfl⟩

/-- Loading an account fails with no error of the program. -/
theorem loadPda_ne_program {bumpOf : T → U8} {e : E} :
    loadPda P K bumpOf w seeds a ≠ .error (.program e) := by
  intro h
  simp only [loadPda, loadAccount, checkSeeds, Except.bind_eq_error, Except.ofOption_eq_error,
    Except.require_eq_error, Except.pure_ne_error, reduceCtorEq, and_false, or_self,
    exists_false] at h

theorem findPda_eq_ok :
    findPda (E := E) P seeds a = .ok bump ↔
      P.findProgramAddress seeds = some (a.pubkey, bump) := by
  simp only [findPda, Except.bind_eq_ok, Except.ofOption_eq_ok, Except.require_eq_ok,
    Except.pure_eq_ok]
  constructor
  · rintro ⟨⟨k, b⟩, hfind, -, rfl, rfl⟩
    exact hfind
  · intro hfind
    exact ⟨(a.pubkey, bump), hfind, (), rfl, rfl⟩

theorem findPda_ne_program {e : E} : findPda P seeds a ≠ .error (.program e) := by
  intro h
  simp only [findPda, Except.bind_eq_error, Except.ofOption_eq_error, Except.require_eq_error,
    Except.pure_ne_error, reduceCtorEq, and_false, or_self, exists_false] at h

theorem payRent_eq_ok :
    payRent (E := E) P w payer a space = .ok w' ↔
      w.transferLamports payer.pubkey a.pubkey
        (P.minimumBalance space - w.lamports a.pubkey) = some w' := by
  rw [payRent, Except.ofOption_eq_ok]

theorem init_eq_ok :
    init (E := E) P K zero w seeds payer a space = .ok (w', bump) ↔
      P.findProgramAddress seeds = some (a.pubkey, bump) ∧ a.isWritable = true ∧
      w.data a.pubkey = none ∧ ∃ w₁,
        w.transferLamports payer.pubkey a.pubkey
          (P.minimumBalance space - w.lamports a.pubkey) = some w₁ ∧
        w' = w₁.store K a.pubkey zero := by
  simp only [init, writable, Except.bind_eq_ok, findPda_eq_ok, Except.require_eq_ok,
    payRent_eq_ok, Except.pure_eq_ok, Prod.mk.injEq]
  constructor
  · rintro ⟨b, hfind, -, hmut, -, hnew, w₁, hpay, rfl, rfl⟩
    exact ⟨hfind, hmut, hnew, w₁, hpay, rfl⟩
  · rintro ⟨hfind, hmut, hnew, w₁, hpay, rfl⟩
    exact ⟨bump, hfind, (), hmut, (), hnew, w₁, hpay, rfl, rfl⟩

/-- **Creation on demand.** The account is at its canonical address and writable, and it is
either created with zeroed content, its rent paid, or loaded. -/
theorem initIfNeeded_eq_ok :
    initIfNeeded (E := E) P K zero w seeds payer a space = .ok (w', t, bump) ↔
      P.findProgramAddress seeds = some (a.pubkey, bump) ∧ a.isWritable = true ∧
      ((w.data a.pubkey = none ∧ t = zero ∧
          w.transferLamports payer.pubkey a.pubkey
            (P.minimumBalance space - w.lamports a.pubkey) = some w') ∨
        (w.data a.pubkey = some (K.wrap t) ∧ w' = w)) := by
  simp only [initIfNeeded, writable, Except.bind_eq_ok, findPda_eq_ok, Except.require_eq_ok]
  by_cases hnew : w.data a.pubkey = none
  · simp only [hnew, if_true, Except.bind_eq_ok, payRent_eq_ok, Except.pure_eq_ok,
      Prod.mk.injEq]
    constructor
    · rintro ⟨b, hfind, -, hmut, w₁, hpay, rfl, rfl, rfl⟩
      exact ⟨hfind, hmut, Or.inl ⟨trivial, rfl, hpay⟩⟩
    · rintro ⟨hfind, hmut, ⟨-, rfl, hpay⟩ | ⟨hsome, -⟩⟩
      · exact ⟨bump, hfind, (), hmut, w', hpay, rfl, rfl, rfl⟩
      · exact nomatch hsome
  · simp only [hnew, if_false, Except.bind_eq_ok, Except.ofOption_eq_ok, World.load_eq_some,
      Except.pure_eq_ok, Prod.mk.injEq]
    constructor
    · rintro ⟨b, hfind, -, hmut, t', hload, rfl, rfl, rfl⟩
      exact ⟨hfind, hmut, Or.inr ⟨hload, rfl⟩⟩
    · rintro ⟨hfind, hmut, ⟨hnone, -, -⟩ | ⟨hload, rfl⟩⟩
      · exact hnone.elim
      · exact ⟨bump, hfind, (), hmut, t, hload, rfl, rfl, rfl⟩

/-- A created account is new and zeroed, and no other account of the program changes. -/
theorem data_of_init (h : init (E := E) P K zero w seeds payer a space = .ok (w', bump)) :
    P.findProgramAddress seeds = some (a.pubkey, bump) ∧ w.data a.pubkey = none ∧
      w'.data = Function.update w.data a.pubkey (some (K.wrap zero)) := by
  obtain ⟨hfind, -, hnew, w₁, hpay, rfl⟩ := init_eq_ok.mp h
  obtain ⟨hdata, -, -⟩ := World.data_of_transferLamports hpay
  exact ⟨hfind, hnew, by rw [World.data_store, hdata]⟩

theorem tokens_of_init (h : init (E := E) P K zero w seeds payer a space = .ok (w', bump)) :
    w'.tokens = w.tokens := by
  obtain ⟨-, -, -, w₁, hpay, rfl⟩ := init_eq_ok.mp h
  exact (World.data_of_transferLamports hpay).2.1

theorem tokens_of_initIfNeeded
    (h : initIfNeeded (E := E) P K zero w seeds payer a space = .ok (w', t, bump)) :
    w'.tokens = w.tokens := by
  obtain ⟨-, -, ⟨-, -, hpay⟩ | ⟨-, rfl⟩⟩ := initIfNeeded_eq_ok.mp h
  · exact (World.data_of_transferLamports hpay).2.1
  · rfl

/-- An account created on demand is at its canonical address, where there was nothing before
or what was loaded; creating it touches lamports at most. -/
theorem data_of_initIfNeeded
    (h : initIfNeeded (E := E) P K zero w seeds payer a space = .ok (w', t, bump)) :
    P.findProgramAddress seeds = some (a.pubkey, bump) ∧
      (w.data a.pubkey = none ∧ t = zero ∨ w.data a.pubkey = some (K.wrap t)) ∧
      w'.data = w.data := by
  obtain ⟨hfind, -, ⟨hnew, ht, hpay⟩ | ⟨hload, rfl⟩⟩ := initIfNeeded_eq_ok.mp h
  · exact ⟨hfind, Or.inl ⟨hnew, ht⟩, (World.data_of_transferLamports hpay).1⟩
  · exact ⟨hfind, Or.inr hload, rfl⟩

/-- Creating an account leaves the lamports of any other account that is not the payer alone. -/
theorem lamports_of_init (h : init (E := E) P K zero w seeds payer a space = .ok (w', bump))
    {k : Pubkey} (hpayer : payer.pubkey ≠ k) (ha : a.pubkey ≠ k) :
    w'.lamports k = w.lamports k := by
  obtain ⟨-, -, -, w₁, hpay, rfl⟩ := init_eq_ok.mp h
  rw [World.lamports_store, World.lamports_of_transferLamports hpay hpayer ha]

/-- A created account has its rent. -/
theorem minimumBalance_le_of_init
    (h : init (E := E) P K zero w seeds payer a space = .ok (w', bump))
    (hpayer : payer.pubkey ≠ a.pubkey) : P.minimumBalance space ≤ w'.lamports a.pubkey := by
  obtain ⟨-, -, -, w₁, hpay, rfl⟩ := init_eq_ok.mp h
  have hlamports := World.lamports_dst_of_transferLamports hpay hpayer
  show P.minimumBalance space ≤ w₁.lamports a.pubkey
  omega

/-- Creating an account on demand leaves the lamports of an account that exists and is not the
payer alone. -/
theorem lamports_of_initIfNeeded
    (h : initIfNeeded (E := E) P K zero w seeds payer a space = .ok (w', t, bump)) {k : Pubkey}
    (hpayer : payer.pubkey ≠ k) (hk : w.data k ≠ none) : w'.lamports k = w.lamports k := by
  obtain ⟨-, -, ⟨hnew, -, hpay⟩ | ⟨-, rfl⟩⟩ := initIfNeeded_eq_ok.mp h
  · have ha : a.pubkey ≠ k := by
      rintro rfl
      exact hk hnew
    exact World.lamports_of_transferLamports hpay hpayer ha
  · rfl

/-- Somebody pays for what happens to the accounts of the program: no tokens move, and the lamports
of every other account of the program that was there stay. -/
structure World.PaidBy (payer : Pubkey) (w w' : World D) : Prop where
  tokens : w'.tokens = w.tokens
  lamports : ∀ k, payer ≠ k → w.data k ≠ none → w'.lamports k = w.lamports k

theorem World.PaidBy.refl (payer : Pubkey) (w : World D) : w.PaidBy payer w where
  tokens := rfl
  lamports _ _ _ := rfl

/-- Writing an account costs nothing. -/
theorem World.PaidBy.store {p : Pubkey} (h : w.PaidBy p w') {S : Type} (K' : AccountKind D S)
    (k : Pubkey) (s : S) : w.PaidBy p (w'.store K' k s) where
  tokens := h.tokens
  lamports := h.lamports

theorem World.PaidBy.of_initIfNeeded
    (h : initIfNeeded (E := E) P K zero w seeds payer a space = .ok (w', t, bump)) :
    w.PaidBy payer.pubkey w' where
  tokens := tokens_of_initIfNeeded h
  lamports _ hpayer hk := lamports_of_initIfNeeded h hpayer hk

end Constraints

end Solana
