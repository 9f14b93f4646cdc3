import SolanaProxy.General.CappedFee
import SolanaProxy.Solana.Account

/-!
# Tokens

The token programs as the two on-chain programs use them: associated token accounts, the
transfer-fee extension of a mint, and transfers. `World.transferTokens` debits the amount,
credits the amount less the transfer fee and touches nothing else
(`transferTokens_eq_some`); a transfer from an account to itself checks the balance and
changes nothing.

`TransferFee.toCappedFee` reads a transfer fee as a `CappedFee`, which is where its laws come
from.
-/

namespace Solana

/-- The associated token address of a wallet for a mint of one token program. -/
def Platform.associatedTokenAddress (P : Platform) (wallet mint tokenProgram : Pubkey) :
    Option Pubkey :=
  (P.findAddress P.associatedTokenProgram
    (wallet.toList ++ tokenProgram.toList ++ mint.toList)).map Prod.fst

/-! ### Transfer fees -/

namespace TransferFee

/-- The fee on an amount: the basis points rounded up, at most the maximum fee. -/
def calculateFee (f : TransferFee) (amount : ℕ) : ℕ :=
  min f.maximumFee.toNat (amount * f.transferFeeBasisPoints.toNat ⌈/⌉ oneInBasisPoints)

/-- What is left of an amount after the fee. -/
def calculatePostFeeAmount (f : TransferFee) (amount : U64) : Option U64 :=
  if f.calculateFee amount.toNat ≤ amount.toNat then
    some (amount - BitVec.ofNat 64 (f.calculateFee amount.toNat))
  else none

/-- A transfer fee as a capped proportional fee. -/
def toCappedFee (f : TransferFee) : CappedFee where
  rate := f.transferFeeBasisPoints.toNat
  scale := oneInBasisPoints
  cap := f.maximumFee.toNat
  scale_pos := by decide
  rate_le := f.basisPoints_le

variable {f : TransferFee}

theorem fee_toCappedFee (f : TransferFee) (amount : ℕ) :
    f.toCappedFee.fee amount = f.calculateFee amount :=
  rfl

theorem calculateFee_le (amount : ℕ) : f.calculateFee amount ≤ amount :=
  CappedFee.fee_le (F := f.toCappedFee) amount

/-- **The amount after the fee** always exists and is what the capped fee leaves. -/
theorem calculatePostFeeAmount_eq (f : TransferFee) (amount : U64) :
    ∃ post, f.calculatePostFeeAmount amount = some post ∧
      post.toNat = f.toCappedFee.post amount.toNat := by
  have hle : f.calculateFee amount.toNat ≤ amount.toNat := calculateFee_le _
  have hfee : (BitVec.ofNat 64 (f.calculateFee amount.toNat)).toNat =
      f.calculateFee amount.toNat := by
    rw [BitVec.toNat_ofNat, Nat.mod_eq_of_lt (hle.trans_lt amount.isLt)]
  refine ⟨_, if_pos hle, ?_⟩
  rw [BitVec.toNat_sub_of_le (by rw [BitVec.le_def, hfee]; exact hle), hfee]
  rfl

end TransferFee

/-- The transfer fee in force at an epoch. -/
def TransferFeeConfig.getEpochFee (c : TransferFeeConfig) (epoch : ℕ) : TransferFee :=
  if c.newerTransferFee.epoch ≤ epoch then c.newerTransferFee else c.olderTransferFee

/-- The transfer fee a mint takes at an epoch, if it has the extension. -/
def Mint.transferFee (m : Mint) (epoch : ℕ) : Option TransferFee :=
  m.transferFeeConfig.map fun c => c.getEpochFee epoch

/-- The fee a mint takes on an amount at an epoch. -/
def Mint.calculateFee (m : Mint) (epoch amount : ℕ) : ℕ :=
  (m.transferFee epoch).elim 0 fun f => f.calculateFee amount

/-- The transfer fee of a mint as a capped proportional fee, free without the extension. -/
def Mint.cappedFee (m : Mint) (epoch : ℕ) : CappedFee :=
  (m.transferFee epoch).elim .free TransferFee.toCappedFee

theorem Mint.fee_cappedFee (m : Mint) (epoch amount : ℕ) :
    (m.cappedFee epoch).fee amount = m.calculateFee epoch amount := by
  rw [cappedFee, calculateFee]
  cases m.transferFee epoch with
  | none => exact CappedFee.fee_free amount
  | some f => exact f.fee_toCappedFee amount

/-! ### Token accounts -/

namespace World

variable {D : Type}

/-- The balance of a token account, zero if there is none. -/
def balance (w : World D) (k : Pubkey) : ℕ := (w.tokens k).elim 0 TokenAccount.amount

/-- The world after one token account was written. -/
def setToken (w : World D) (k : Pubkey) (t : TokenAccount) : World D :=
  { w with tokens := Function.update w.tokens k (some t) }

/-- The world after a transfer of `amount` tokens of which the mint withholds `fee`. -/
def transferTokens (w : World D) (tokenProgram src dst authority : Pubkey) (amount fee : ℕ) :
    Option (World D) := do
  let s ← w.tokens src
  let d ← w.tokens dst
  if s.program = tokenProgram ∧ d.program = tokenProgram ∧ s.mint = d.mint ∧
      s.owner = authority ∧ amount ≤ s.amount then
    if src = dst then
      some w
    else
      some ((w.setToken src { s with amount := s.amount - amount }).setToken dst
        { d with amount := d.amount + (amount - fee) })
  else none

@[simp]
theorem data_setToken (w : World D) (k : Pubkey) (t : TokenAccount) :
    (w.setToken k t).data = w.data :=
  rfl

@[simp]
theorem mints_setToken (w : World D) (k : Pubkey) (t : TokenAccount) :
    (w.setToken k t).mints = w.mints :=
  rfl

@[simp]
theorem lamports_setToken (w : World D) (k : Pubkey) (t : TokenAccount) :
    (w.setToken k t).lamports = w.lamports :=
  rfl

@[simp]
theorem tokens_setToken (w : World D) (k : Pubkey) (t : TokenAccount) :
    (w.setToken k t).tokens = Function.update w.tokens k (some t) :=
  rfl

section Transfer

variable {w w' : World D} {tokenProgram src dst authority : Pubkey} {amount fee : ℕ}

/-- **Transfers.** Both accounts exist under one mint, the authority owns the source, the
source covers the amount, and exactly the two balances move. -/
theorem transferTokens_eq_some :
    w.transferTokens tokenProgram src dst authority amount fee = some w' ↔
      ∃ s d, w.tokens src = some s ∧ w.tokens dst = some d ∧ s.program = tokenProgram ∧
        d.program = tokenProgram ∧ s.mint = d.mint ∧ s.owner = authority ∧ amount ≤ s.amount ∧
        w' = if src = dst then w else
          (w.setToken src { s with amount := s.amount - amount }).setToken dst
            { d with amount := d.amount + (amount - fee) } := by
  simp only [transferTokens, Option.bind_eq_bind, Option.bind_eq_some_iff,
    Option.ite_none_right_eq_some]
  constructor
  · rintro ⟨s, hs, d, hd, ⟨hsp, hdp, hmint, hown, hle⟩, h⟩
    refine ⟨s, d, hs, hd, hsp, hdp, hmint, hown, hle, ?_⟩
    split at h <;> simp_all
  · rintro ⟨s, d, hs, hd, hsp, hdp, hmint, hown, hle, rfl⟩
    refine ⟨s, hs, d, hd, ⟨hsp, hdp, hmint, hown, hle⟩, ?_⟩
    split <;> rfl

/-- A transfer does not read the accounts of the program. -/
theorem transferTokens_withData
    (h : w.transferTokens tokenProgram src dst authority amount fee = some w')
    (data : Pubkey → Option D) :
    (w.withData data).transferTokens tokenProgram src dst authority amount fee =
      some (w'.withData data) := by
  obtain ⟨s, d, hs, hd, hsp, hdp, hmint, hown, hle, rfl⟩ := transferTokens_eq_some.mp h
  refine transferTokens_eq_some.mpr ⟨s, d, hs, hd, hsp, hdp, hmint, hown, hle, ?_⟩
  split <;> rfl

/-- A transfer writes no account of the program, no lamports and no mint. -/
theorem frame_of_transferTokens
    (h : w.transferTokens tokenProgram src dst authority amount fee = some w') :
    w'.data = w.data ∧ w'.lamports = w.lamports ∧ w'.mints = w.mints := by
  obtain ⟨s, d, -, -, -, -, -, -, -, rfl⟩ := transferTokens_eq_some.mp h
  split <;> exact ⟨rfl, rfl, rfl⟩

/-- The source of a transfer loses the amount, unless it is the destination too. -/
theorem tokens_src_of_transferTokens {s : TokenAccount} (hs : w.tokens src = some s)
    (h : w.transferTokens tokenProgram src dst authority amount fee = some w') :
    amount ≤ s.amount ∧ w'.tokens src =
      some { s with amount := if src = dst then s.amount else s.amount - amount } := by
  obtain ⟨s', d, hs', hd, -, -, -, -, hle, rfl⟩ := transferTokens_eq_some.mp h
  obtain rfl : s = s' := Option.some.inj (hs.symm.trans hs')
  refine ⟨hle, ?_⟩
  by_cases hsd : src = dst
  · rw [if_pos hsd, if_pos hsd, hs]
  · rw [if_neg hsd, if_neg hsd, tokens_setToken, Function.update_of_ne hsd, tokens_setToken,
      Function.update_self]

/-- The destination of a transfer from another account gains the amount less the fee. -/
theorem tokens_dst_of_transferTokens (hne : src ≠ dst) {d : TokenAccount}
    (hd : w.tokens dst = some d)
    (h : w.transferTokens tokenProgram src dst authority amount fee = some w') :
    w'.tokens dst = some { d with amount := d.amount + (amount - fee) } := by
  obtain ⟨s, d', -, hd', -, -, -, -, -, rfl⟩ := transferTokens_eq_some.mp h
  obtain rfl : d = d' := Option.some.inj (hd.symm.trans hd')
  rw [if_neg hne, tokens_setToken, Function.update_self]

/-- **Balances of a transfer.** Between different accounts the source loses the amount and
the destination gains the amount less the fee. -/
theorem balance_of_transferTokens (hne : src ≠ dst)
    (h : w.transferTokens tokenProgram src dst authority amount fee = some w') :
    w'.balance src + amount = w.balance src ∧
      w'.balance dst = w.balance dst + (amount - fee) := by
  obtain ⟨s, d, hs, hd, -⟩ := transferTokens_eq_some.mp h
  obtain ⟨hle, hsrc⟩ := tokens_src_of_transferTokens hs h
  have hdst := tokens_dst_of_transferTokens hne hd h
  simp only [balance, hs, hd, hsrc, hdst, if_neg hne, Option.elim_some, and_true]
  omega

/-- A transfer from an account to itself changes nothing. -/
theorem transferTokens_self
    (h : w.transferTokens tokenProgram src src authority amount fee = some w') : w' = w := by
  obtain ⟨s, d, -, -, -, -, -, -, -, rfl⟩ := transferTokens_eq_some.mp h
  exact if_pos rfl

/-- The source of a transfer loses the amount, and gets it back if it is the destination. -/
theorem balance_src_of_transferTokens
    (h : w.transferTokens tokenProgram src dst authority amount fee = some w') :
    w'.balance src + amount = w.balance src + if dst = src then amount else 0 := by
  split
  case isTrue heq =>
    obtain rfl := transferTokens_self (heq ▸ h)
    rfl
  case isFalse hne =>
    obtain ⟨hsrc, -⟩ := balance_of_transferTokens (Ne.symm hne) h
    rw [hsrc, Nat.add_zero]

end Transfer

end World

/-! ### Token constraints -/

section Constraints

variable {D E : Type}

/-- `Interface<TokenInterface>`: the account is one of the two token programs. -/
def tokenInterface (P : Platform) (a : AccountInfo) : Result E Unit :=
  Except.require (a.pubkey = P.tokenProgram ∨ a.pubkey = P.token2022Program)
    (.anchor .invalidProgramId)

/-- `Account<Mint>` with `mint::token_program`: an initialized mint of the token program. -/
def loadMint (w : World D) (a : AccountInfo) (tokenProgram : Pubkey) : Result E Mint := do
  let m ← Except.ofOption (.anchor .accountNotInitialized) (w.mints a.pubkey)
  Except.require (m.program = tokenProgram) (.anchor .constraintMintTokenProgram)
  return m

/-- `token::mint`, `token::authority` and `token::token_program`: a token account of the
given mint, owner and token program. -/
def loadToken (w : World D) (a : AccountInfo) (mint owner tokenProgram : Pubkey) :
    Result E TokenAccount := do
  let t ← Except.ofOption (.anchor .accountNotInitialized) (w.tokens a.pubkey)
  Except.require (t.owner = owner) (.anchor .constraintTokenOwner)
  Except.require (t.mint = mint) (.anchor .constraintTokenMint)
  Except.require (t.program = tokenProgram) (.anchor .constraintTokenTokenProgram)
  return t

/-- `token::mint` and `token::token_program`: a token account of the given mint and token
program, whoever owns it. -/
def loadTokenOfMint (w : World D) (a : AccountInfo) (mint tokenProgram : Pubkey) :
    Result E TokenAccount := do
  let t ← Except.ofOption (.anchor .accountNotInitialized) (w.tokens a.pubkey)
  Except.require (t.mint = mint) (.anchor .constraintTokenMint)
  Except.require (t.program = tokenProgram) (.anchor .constraintTokenTokenProgram)
  return t

/-- `associated_token`: a token account at the associated token address of its owner. -/
def loadAssociated (P : Platform) (w : World D) (a : AccountInfo)
    (mint owner tokenProgram : Pubkey) : Result E TokenAccount := do
  let t ← loadToken w a mint owner tokenProgram
  Except.require (P.associatedTokenAddress owner mint tokenProgram = some a.pubkey)
    (.anchor .constraintAssociated)
  return t

/-- The size of a token account. -/
def tokenAccountLen : ℕ := 165

/-- `init` with `token::mint`, `token::authority` and `token::token_program`: a new token account
at a key that signs, created empty at the payer's expense. -/
def initToken (P : Platform) (w : World D) (payer a : AccountInfo)
    (mint owner tokenProgram : Pubkey) : Result E (World D) := do
  signer a
  writable a
  Except.require (w.tokens a.pubkey = none) .cpi
  let w' ← payRent P w payer a tokenAccountLen
  return w'.setToken a.pubkey ⟨tokenProgram, mint, owner, 0⟩

/-- `init_if_needed` with `associated_token`: the associated token account, created empty at
the payer's expense when it does not exist yet. -/
def initAssociatedIfNeeded (P : Platform) (w : World D) (payer a : AccountInfo)
    (mint owner tokenProgram : Pubkey) : Result E (World D) := do
  writable a
  if w.tokens a.pubkey = none then
    Except.require (P.associatedTokenAddress owner mint tokenProgram = some a.pubkey) .cpi
    let w' ← payRent P w payer a tokenAccountLen
    return w'.setToken a.pubkey ⟨tokenProgram, mint, owner, 0⟩
  else
    let _ ← loadAssociated P w a mint owner tokenProgram
    return w

variable {P : Platform} {w w' : World D} {a payer : AccountInfo}
  {mint owner tokenProgram : Pubkey} {t : TokenAccount} {m : Mint}

theorem loadMint_eq_ok :
    loadMint (E := E) w a tokenProgram = .ok m ↔
      w.mints a.pubkey = some m ∧ m.program = tokenProgram := by
  simp only [loadMint, Except.bind_eq_ok, Except.ofOption_eq_ok, Except.require_eq_ok,
    Except.pure_eq_ok]
  constructor
  · rintro ⟨m', hm, -, hp, rfl⟩
    exact ⟨hm, hp⟩
  · rintro ⟨hm, hp⟩
    exact ⟨m, hm, (), hp, rfl⟩

theorem loadToken_eq_ok :
    loadToken (E := E) w a mint owner tokenProgram = .ok t ↔
      w.tokens a.pubkey = some t ∧ t.owner = owner ∧ t.mint = mint ∧
        t.program = tokenProgram := by
  simp only [loadToken, Except.bind_eq_ok, Except.ofOption_eq_ok, Except.require_eq_ok,
    Except.pure_eq_ok]
  constructor
  · rintro ⟨t', ht, -, ho, -, hm, -, hp, rfl⟩
    exact ⟨ht, ho, hm, hp⟩
  · rintro ⟨ht, ho, hm, hp⟩
    exact ⟨t, ht, (), ho, (), hm, (), hp, rfl⟩

theorem loadTokenOfMint_eq_ok :
    loadTokenOfMint (E := E) w a mint tokenProgram = .ok t ↔
      w.tokens a.pubkey = some t ∧ t.mint = mint ∧ t.program = tokenProgram := by
  simp only [loadTokenOfMint, Except.bind_eq_ok, Except.ofOption_eq_ok, Except.require_eq_ok,
    Except.pure_eq_ok]
  constructor
  · rintro ⟨t', ht, -, hm, -, hp, rfl⟩
    exact ⟨ht, hm, hp⟩
  · rintro ⟨ht, hm, hp⟩
    exact ⟨t, ht, (), hm, (), hp, rfl⟩

theorem loadAssociated_eq_ok :
    loadAssociated (E := E) P w a mint owner tokenProgram = .ok t ↔
      w.tokens a.pubkey = some t ∧ t.owner = owner ∧ t.mint = mint ∧
        t.program = tokenProgram ∧
        P.associatedTokenAddress owner mint tokenProgram = some a.pubkey := by
  simp only [loadAssociated, Except.bind_eq_ok, loadToken_eq_ok, Except.require_eq_ok,
    Except.pure_eq_ok]
  constructor
  · rintro ⟨t', ⟨ht, ho, hm, hp⟩, -, haddr, rfl⟩
    exact ⟨ht, ho, hm, hp, haddr⟩
  · rintro ⟨ht, ho, hm, hp, haddr⟩
    exact ⟨t, ⟨ht, ho, hm, hp⟩, (), haddr, rfl⟩

/-- **Associated token accounts on demand.** The account is writable and at its associated
token address, and it is either created empty or already the right one. -/
theorem initAssociatedIfNeeded_eq_ok :
    initAssociatedIfNeeded (E := E) P w payer a mint owner tokenProgram = .ok w' ↔
      a.isWritable = true ∧ P.associatedTokenAddress owner mint tokenProgram = some a.pubkey ∧
      ((w.tokens a.pubkey = none ∧ ∃ w₁,
          w.transferLamports payer.pubkey a.pubkey
            (P.minimumBalance tokenAccountLen - w.lamports a.pubkey) = some w₁ ∧
          w' = w₁.setToken a.pubkey ⟨tokenProgram, mint, owner, 0⟩) ∨
        (∃ t, w.tokens a.pubkey = some t ∧ t.owner = owner ∧ t.mint = mint ∧
          t.program = tokenProgram ∧ w' = w)) := by
  simp only [initAssociatedIfNeeded, writable, Except.bind_eq_ok, Except.require_eq_ok]
  by_cases hnew : w.tokens a.pubkey = none
  · simp only [hnew, if_true, Except.bind_eq_ok, Except.require_eq_ok, payRent_eq_ok,
      Except.pure_eq_ok]
    constructor
    · rintro ⟨-, hmut, -, haddr, w₁, hpay, rfl⟩
      exact ⟨hmut, haddr, Or.inl ⟨trivial, w₁, hpay, rfl⟩⟩
    · rintro ⟨hmut, haddr, ⟨-, w₁, hpay, rfl⟩ | ⟨t, hsome, -⟩⟩
      · exact ⟨(), hmut, (), haddr, w₁, hpay, rfl⟩
      · cases hsome
  · simp only [hnew, if_false, Except.bind_eq_ok, loadAssociated_eq_ok, Except.pure_eq_ok]
    constructor
    · rintro ⟨-, hmut, t, ⟨ht, ho, hm, hp, haddr⟩, rfl⟩
      exact ⟨hmut, haddr, Or.inr ⟨t, ht, ho, hm, hp, rfl⟩⟩
    · rintro ⟨hmut, haddr, ⟨hnone, -⟩ | ⟨t, ht, ho, hm, hp, rfl⟩⟩
      · exact hnone.elim
      · exact ⟨(), hmut, t, ⟨ht, ho, hm, hp, haddr⟩, rfl⟩

/-- Creating a token account does not read the accounts of the program. -/
theorem initAssociatedIfNeeded_withData
    (h : initAssociatedIfNeeded (E := E) P w payer a mint owner tokenProgram = .ok w')
    (data : Pubkey → Option D) :
    initAssociatedIfNeeded (E := E) P (w.withData data) payer a mint owner tokenProgram =
      .ok (w'.withData data) := by
  obtain ⟨hmut, haddr, ⟨hnew, w₁, hpay, rfl⟩ | ⟨t, ht, ho, hm, hp, rfl⟩⟩ :=
    initAssociatedIfNeeded_eq_ok.mp h
  · have hpay' := World.transferLamports_withData hpay data
    exact initAssociatedIfNeeded_eq_ok.mpr ⟨hmut, haddr, .inl ⟨hnew, _, hpay', rfl⟩⟩
  · exact initAssociatedIfNeeded_eq_ok.mpr ⟨hmut, haddr, .inr ⟨t, ht, ho, hm, hp, rfl⟩⟩

/-- Neither loading a mint or a token account nor creating one fails with an error of the
program. -/
theorem loadMint_ne_program {e : E} : loadMint w a tokenProgram ≠ .error (.program e) := by
  intro h
  simp only [loadMint, Except.bind_eq_error, Except.ofOption_eq_error, Except.require_eq_error,
    Except.pure_ne_error, reduceCtorEq, and_false, or_self, exists_false] at h

theorem loadAssociated_ne_program {e : E} :
    loadAssociated P w a mint owner tokenProgram ≠ .error (.program e) := by
  intro h
  simp only [loadAssociated, loadToken, Except.bind_eq_error, Except.ofOption_eq_error,
    Except.require_eq_error, Except.pure_ne_error, reduceCtorEq, and_false, or_self,
    exists_false] at h

theorem initAssociatedIfNeeded_ne_program {e : E} :
    initAssociatedIfNeeded P w payer a mint owner tokenProgram ≠ .error (.program e) := by
  intro h
  rw [initAssociatedIfNeeded] at h
  by_cases hnew : w.tokens a.pubkey = none
  · simp only [hnew, if_true, writable, payRent, Except.bind_eq_error, Except.require_eq_error,
      Except.ofOption_eq_error, Except.pure_ne_error, reduceCtorEq, and_false, or_self,
      exists_false] at h
  · simp only [hnew, if_false, writable, loadAssociated_ne_program, Except.bind_eq_error,
      Except.require_eq_error, Except.pure_ne_error, reduceCtorEq, and_false, or_self,
      exists_false] at h

/-- **A created token account** is new and empty, and nothing but lamports changes beside it. -/
theorem of_initToken_eq_ok
    (h : initToken (E := E) P w payer a mint owner tokenProgram = .ok w') :
    w.tokens a.pubkey = none ∧ w'.data = w.data ∧
      w'.tokens = Function.update w.tokens a.pubkey (some ⟨tokenProgram, mint, owner, 0⟩) := by
  simp only [initToken, Except.bind_eq_ok, Except.require_eq_ok, payRent_eq_ok,
    Except.pure_eq_ok] at h
  obtain ⟨-, -, -, -, -, hnew, w₁, hpay, rfl⟩ := h
  obtain ⟨hdata, htokens, -⟩ := World.data_of_transferLamports hpay
  exact ⟨hnew, hdata, by rw [World.tokens_setToken, htokens]⟩

/-- Creating a token account touches no account of the program. -/
theorem data_of_initAssociatedIfNeeded
    (h : initAssociatedIfNeeded (E := E) P w payer a mint owner tokenProgram = .ok w') :
    w'.data = w.data := by
  obtain ⟨-, -, ⟨-, w₁, hpay, rfl⟩ | ⟨t, -, -, -, -, rfl⟩⟩ := initAssociatedIfNeeded_eq_ok.mp h
  · exact (World.data_of_transferLamports hpay).1
  · rfl

/-- **The account created on demand** is there afterwards, and no mint changes. -/
theorem exists_token_of_initAssociatedIfNeeded
    (h : initAssociatedIfNeeded (E := E) P w payer a mint owner tokenProgram = .ok w') :
    (∃ t, w'.tokens a.pubkey = some t ∧ t.mint = mint ∧ t.program = tokenProgram) ∧
      w'.mints = w.mints := by
  obtain ⟨-, -, ⟨-, w₁, hpay, rfl⟩ | ⟨t, ht, -, hmint, hprogram, rfl⟩⟩ :=
    initAssociatedIfNeeded_eq_ok.mp h
  · exact ⟨⟨_, Function.update_self .., rfl, rfl⟩, (World.data_of_transferLamports hpay).2.2⟩
  · exact ⟨⟨t, ht, hmint, hprogram⟩, rfl⟩

/-- Creating a token account leaves the lamports of any other account that is not the payer
alone. -/
theorem lamports_of_initAssociatedIfNeeded
    (h : initAssociatedIfNeeded (E := E) P w payer a mint owner tokenProgram = .ok w')
    {k : Pubkey} (hpayer : payer.pubkey ≠ k) (ha : a.pubkey ≠ k) :
    w'.lamports k = w.lamports k := by
  obtain ⟨-, -, ⟨-, w₁, hpay, rfl⟩ | ⟨t, -, -, -, -, rfl⟩⟩ := initAssociatedIfNeeded_eq_ok.mp h
  · rw [World.lamports_setToken, World.lamports_of_transferLamports hpay hpayer ha]
  · rfl

/-- Token accounts there were stay as they are. -/
theorem tokens_of_initAssociatedIfNeeded
    (h : initAssociatedIfNeeded (E := E) P w payer a mint owner tokenProgram = .ok w')
    {k : Pubkey} {t : TokenAccount} (ht : w.tokens k = some t) : w'.tokens k = some t := by
  obtain ⟨-, -, ⟨hnew, w₁, hpay, rfl⟩ | ⟨t', -, -, -, -, rfl⟩⟩ :=
    initAssociatedIfNeeded_eq_ok.mp h
  · have hne : k ≠ a.pubkey := by
      rintro rfl
      exact nomatch hnew.symm.trans ht
    rw [World.tokens_setToken, Function.update_of_ne hne, (World.data_of_transferLamports hpay).2.1,
      ht]
  · exact ht

/-- A created token account is empty, so no balance changes. -/
theorem balance_of_initAssociatedIfNeeded
    (h : initAssociatedIfNeeded (E := E) P w payer a mint owner tokenProgram = .ok w')
    (k : Pubkey) : w'.balance k = w.balance k := by
  obtain ⟨-, -, ⟨hnew, w₁, hpay, rfl⟩ | ⟨t, -, -, -, -, rfl⟩⟩ := initAssociatedIfNeeded_eq_ok.mp h
  · obtain ⟨-, htokens, -⟩ := World.data_of_transferLamports hpay
    rw [World.balance, World.tokens_setToken, htokens, Function.update_apply, World.balance]
    split
    case isTrue hk => rw [hk, hnew]; rfl
    case isFalse => rfl
  · rfl

end Constraints

end Solana
