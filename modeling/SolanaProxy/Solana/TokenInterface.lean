import SolanaProxy.Solana.Endpoint

/-!
# The token interface

Transfers with a fee, burning and minting, as programs call them: `transferChecked`, `burn`
and `mintTo`. Each has one theorem for what its success means and one for what it leaves
alone. The frame that matters to a program holding tokens is `World.Undebited`: a token
account keeps its fields and loses nothing. No call by another authority debits an account
(`undebited_of_transferTokens`).
-/

namespace Solana

namespace World

variable {D : Type}

/-- The supply of a mint, zero if there is none. -/
def supply (w : World D) (k : Pubkey) : ℕ := (w.mints k).elim 0 Mint.supply

/-- Burn tokens of an account: they leave the account and the supply, which has to cover them. -/
def burnTokens (w : World D) (tokenProgram mint src authority : Pubkey) (amount : ℕ) :
    Option (World D) := do
  let s ← w.tokens src
  let m ← w.mints mint
  if s.program = tokenProgram ∧ m.program = tokenProgram ∧ s.mint = mint ∧ s.owner = authority ∧
      amount ≤ s.amount ∧ amount ≤ m.supply then
    some { w.setToken src { s with amount := s.amount - amount } with
      mints := Function.update w.mints mint (some { m with supply := m.supply - amount }) }
  else none

/-- Mint tokens to an account: they enter the account and the supply. -/
def mintTokens (w : World D) (tokenProgram mint dst : Pubkey) (amount : ℕ) :
    Option (World D) := do
  let d ← w.tokens dst
  let m ← w.mints mint
  if d.program = tokenProgram ∧ m.program = tokenProgram ∧ d.mint = mint then
    some { w.setToken dst { d with amount := d.amount + amount } with
      mints := Function.update w.mints mint (some { m with supply := m.supply + amount }) }
  else none

/-- The token account at `k`, if there is one, keeps its fields and loses nothing. -/
def Undebited (w w' : World D) (k : Pubkey) : Prop :=
  ∀ t, w.tokens k = some t → ∃ amount, t.amount ≤ amount ∧
    w'.tokens k = some { t with amount := amount }

section Frame

variable {w w' w'' : World D} {tokenProgram mint src dst authority k : Pubkey} {amount fee : ℕ}

theorem burnTokens_eq_some :
    w.burnTokens tokenProgram mint src authority amount = some w' ↔
      ∃ s m, w.tokens src = some s ∧ w.mints mint = some m ∧ s.program = tokenProgram ∧
        m.program = tokenProgram ∧ s.mint = mint ∧ s.owner = authority ∧ amount ≤ s.amount ∧
        amount ≤ m.supply ∧ w' = { w.setToken src { s with amount := s.amount - amount } with
          mints := Function.update w.mints mint
            (some { m with supply := m.supply - amount }) } := by
  simp only [burnTokens, Option.bind_eq_bind, Option.bind_eq_some_iff,
    Option.ite_none_right_eq_some, Option.some.injEq]
  constructor
  · rintro ⟨s, hs, m, hm, ⟨hsp, hmp, hmint, hown, hle, hsupply⟩, rfl⟩
    exact ⟨s, m, hs, hm, hsp, hmp, hmint, hown, hle, hsupply, rfl⟩
  · rintro ⟨s, m, hs, hm, hsp, hmp, hmint, hown, hle, hsupply, rfl⟩
    exact ⟨s, hs, m, hm, ⟨hsp, hmp, hmint, hown, hle, hsupply⟩, rfl⟩

theorem mintTokens_eq_some :
    w.mintTokens tokenProgram mint dst amount = some w' ↔
      ∃ d m, w.tokens dst = some d ∧ w.mints mint = some m ∧ d.program = tokenProgram ∧
        m.program = tokenProgram ∧ d.mint = mint ∧
        w' = { w.setToken dst { d with amount := d.amount + amount } with
          mints := Function.update w.mints mint
            (some { m with supply := m.supply + amount }) } := by
  simp only [mintTokens, Option.bind_eq_bind, Option.bind_eq_some_iff,
    Option.ite_none_right_eq_some, Option.some.injEq]
  constructor
  · rintro ⟨d, hd, m, hm, ⟨hdp, hmp, hmint⟩, rfl⟩
    exact ⟨d, m, hd, hm, hdp, hmp, hmint, rfl⟩
  · rintro ⟨d, m, hd, hm, hdp, hmp, hmint, rfl⟩
    exact ⟨d, hd, m, hm, ⟨hdp, hmp, hmint⟩, rfl⟩

theorem data_of_burnTokens (h : w.burnTokens tokenProgram mint src authority amount = some w') :
    w'.data = w.data := by
  obtain ⟨s, m, -, -, -, -, -, -, -, -, rfl⟩ := burnTokens_eq_some.mp h
  rfl

theorem data_of_mintTokens (h : w.mintTokens tokenProgram mint dst amount = some w') :
    w'.data = w.data := by
  obtain ⟨d, m, -, -, -, -, -, rfl⟩ := mintTokens_eq_some.mp h
  rfl

theorem supply_of_mints_eq (h : w'.mints = w.mints) (k : Pubkey) : w'.supply k = w.supply k := by
  rw [supply, supply, h]

/-- Burning takes from the source, and lowers nothing of the mint but its supply. -/
theorem tokens_of_burnTokens {s : TokenAccount} (hs : w.tokens src = some s)
    (h : w.burnTokens tokenProgram mint src authority amount = some w') :
    amount ≤ s.amount ∧
      w'.tokens = Function.update w.tokens src (some { s with amount := s.amount - amount }) ∧
      ∀ m, w.mints mint = some m →
        w'.mints mint = some { m with supply := m.supply - amount } := by
  obtain ⟨s', m', hs', hm', -, -, -, -, hle, -, rfl⟩ := burnTokens_eq_some.mp h
  obtain rfl := Option.some.inj (hs.symm.trans hs')
  refine ⟨hle, rfl, fun m hm => ?_⟩
  obtain rfl := Option.some.inj (hm.symm.trans hm')
  exact Function.update_self ..

/-- Burning and minting move the supply of the mint. -/
theorem supply_of_burnTokens (h : w.burnTokens tokenProgram mint src authority amount = some w') :
    w'.supply mint + amount = w.supply mint := by
  obtain ⟨s, m, -, hm, -, -, -, -, -, hle, rfl⟩ := burnTokens_eq_some.mp h
  simp only [supply, Function.update_self, hm, Option.elim_some]
  omega

theorem supply_of_mintTokens (h : w.mintTokens tokenProgram mint dst amount = some w') :
    w'.supply mint = w.supply mint + amount := by
  obtain ⟨d, m, -, hm, -, -, -, rfl⟩ := mintTokens_eq_some.mp h
  simp only [supply, Function.update_self, hm, Option.elim_some]

theorem balance_of_mintTokens (h : w.mintTokens tokenProgram mint dst amount = some w') :
    w'.balance dst = w.balance dst + amount := by
  obtain ⟨d, m, hd, -, -, -, -, rfl⟩ := mintTokens_eq_some.mp h
  simp only [balance, tokens_setToken, Function.update_self, hd, Option.elim_some]

theorem Undebited.refl (w : World D) (k : Pubkey) : Undebited w w k :=
  fun t ht => ⟨t.amount, le_rfl, ht⟩

theorem Undebited.trans (h : Undebited w w' k) (h' : Undebited w' w'' k) :
    Undebited w w'' k := by
  intro t ht
  obtain ⟨amount, hle, ht'⟩ := h t ht
  obtain ⟨amount', hle', ht''⟩ := h' _ ht'
  exact ⟨amount', hle.trans hle', ht''⟩

theorem Undebited.of_tokens_eq (h : w'.tokens k = w.tokens k) : Undebited w w' k :=
  fun t ht => ⟨t.amount, le_rfl, h.trans ht⟩

/-- A token account that was not debited has the owner it had. -/
theorem Undebited.owner_eq (h : Undebited w w' k) {t t' : TokenAccount}
    (ht : w.tokens k = some t) (ht' : w'.tokens k = some t') : t'.owner = t.owner := by
  obtain ⟨amount, -, hamount⟩ := h t ht
  rw [Option.some.inj (ht'.symm.trans hamount)]

/-- Writing a larger balance debits nothing. -/
private theorem undebited_setToken {t : TokenAccount} (ht : w.tokens dst = some t)
    (amount : ℕ) : Undebited w (w.setToken dst { t with amount := t.amount + amount }) k := by
  by_cases hk : k = dst
  · subst hk
    intro t' ht'
    obtain rfl : t = t' := Option.some.inj (ht.symm.trans ht')
    exact ⟨t.amount + amount, Nat.le_add_right _ _, Function.update_self ..⟩
  · exact .of_tokens_eq (Function.update_of_ne hk ..)

/-- **Only the owner debits.** A transfer by another authority, or from another account, debits
nothing. -/
theorem undebited_of_transferTokens
    (hk : ∀ t, w.tokens k = some t → k = src → t.owner ≠ authority)
    (h : w.transferTokens tokenProgram src dst authority amount fee = some w') :
    Undebited w w' k := by
  obtain ⟨s, d, hs, hd, -, -, -, hown, -, rfl⟩ := transferTokens_eq_some.mp h
  have hne : k ≠ src := by
    rintro rfl
    exact hk s hs rfl hown
  split
  case isTrue => exact .refl w k
  case isFalse hsd =>
    have hsrc : Undebited w (w.setToken src { s with amount := s.amount - amount }) k :=
      .of_tokens_eq (Function.update_of_ne hne ..)
    refine hsrc.trans (undebited_setToken ?_ (amount - fee))
    rw [tokens_setToken, Function.update_of_ne (Ne.symm hsd)]
    exact hd

theorem undebited_of_burnTokens (hk : ∀ t, w.tokens k = some t → k = src → t.owner ≠ authority)
    (h : w.burnTokens tokenProgram mint src authority amount = some w') : Undebited w w' k := by
  obtain ⟨s, m, hs, -, -, -, -, hown, -, -, rfl⟩ := burnTokens_eq_some.mp h
  have hne : k ≠ src := by
    rintro rfl
    exact hk s hs rfl hown
  exact .of_tokens_eq (Function.update_of_ne hne ..)

theorem undebited_of_mintTokens (h : w.mintTokens tokenProgram mint dst amount = some w') :
    Undebited w w' k := by
  obtain ⟨d, m, hd, -, -, -, -, rfl⟩ := mintTokens_eq_some.mp h
  exact undebited_setToken hd amount

end Frame

end World

/-! ### Calls -/

section Cpi

variable {D E : Type}

/-- `token_interface::transfer_checked`: the mint's fee of the epoch is withheld. -/
def transferChecked (env : Env) (w : World D) (tokenProgram src mint dst authority : Pubkey)
    (amount : U64) (decimals : U8) : Result E (World D) := do
  let s ← Except.ofOption .cpi (w.tokens src)
  let m ← Except.ofOption .cpi (w.mints mint)
  Except.require (s.mint = mint ∧ m.program = tokenProgram ∧ m.decimals = decimals) .cpi
  Except.ofOption .cpi (w.transferTokens tokenProgram src dst authority amount.toNat
    (m.calculateFee env.epoch amount.toNat))

/-- `token_interface::burn`. -/
def burn (w : World D) (tokenProgram mint src authority : Pubkey) (amount : U64) :
    Result E (World D) :=
  Except.ofOption .cpi (w.burnTokens tokenProgram mint src authority amount.toNat)

/-- `mint_to` with a mint authority that is the signer itself or a multisig account the signer
signs for. -/
def mintTo (env : Env) (w : World D) (tokenProgram mint dst authority signer : Pubkey)
    (amount : U64) : Result E (World D) := do
  let m ← Except.ofOption .cpi (w.mints mint)
  Except.require (m.mintAuthority = some authority ∧
    (authority = signer ∨ env.multisigSigner authority signer = true)) .cpi
  Except.ofOption .cpi (w.mintTokens tokenProgram mint dst amount.toNat)

variable {env : Env} {w w' : World D} {tokenProgram src mint dst authority key : Pubkey}
  {amount : U64} {decimals : U8}

theorem transferChecked_eq_ok :
    transferChecked (E := E) env w tokenProgram src mint dst authority amount decimals =
        .ok w' ↔
      ∃ s m, w.tokens src = some s ∧ w.mints mint = some m ∧ s.mint = mint ∧
        m.program = tokenProgram ∧ m.decimals = decimals ∧
        w.transferTokens tokenProgram src dst authority amount.toNat
          (m.calculateFee env.epoch amount.toNat) = some w' := by
  simp only [transferChecked, Except.bind_eq_ok, Except.ofOption_eq_ok, Except.require_eq_ok]
  constructor
  · rintro ⟨s, hs, m, hm, -, ⟨hmint, hprogram, hdecimals⟩, h⟩
    exact ⟨s, m, hs, hm, hmint, hprogram, hdecimals, h⟩
  · rintro ⟨s, m, hs, hm, hmint, hprogram, hdecimals, h⟩
    exact ⟨s, hs, m, hm, (), ⟨hmint, hprogram, hdecimals⟩, h⟩

/-- **A transfer that goes through**: both accounts are under the mint, the authority owns the
source, and the source covers the amount. -/
theorem exists_transferChecked {s d : TokenAccount} {m : Mint} (hs : w.tokens src = some s)
    (hd : w.tokens dst = some d) (hm : w.mints mint = some m)
    (hmint : s.mint = mint ∧ d.mint = mint)
    (hprogram : s.program = tokenProgram ∧ d.program = tokenProgram ∧ m.program = tokenProgram)
    (howner : s.owner = authority) (hle : amount.toNat ≤ s.amount) :
    ∃ w', transferChecked (E := E) env w tokenProgram src mint dst authority amount m.decimals =
      .ok w' := by
  obtain ⟨hsmint, hdmint⟩ := hmint
  obtain ⟨hsp, hdp, hmp⟩ := hprogram
  have htransfer : ∃ w', w.transferTokens tokenProgram src dst authority amount.toNat
      (m.calculateFee env.epoch amount.toNat) = some w' :=
    ⟨_, World.transferTokens_eq_some.mpr ⟨s, d, hs, hd, hsp, hdp, hsmint.trans hdmint.symm,
      howner, hle, rfl⟩⟩
  obtain ⟨w', hw'⟩ := htransfer
  exact ⟨w', transferChecked_eq_ok.mpr ⟨s, m, hs, hm, hsmint, hmp, rfl, hw'⟩⟩

/-- The token program fails with no error of the program that calls it. -/
theorem transferChecked_ne_program {e : E} :
    transferChecked env w tokenProgram src mint dst authority amount decimals ≠
      .error (.program e) := by
  simp only [transferChecked, ne_eq, Except.bind_eq_error, Except.ofOption_eq_error,
    Except.require_eq_error, reduceCtorEq, and_false, or_self, exists_false, not_false_eq_true]

theorem burn_ne_program {e : E} :
    burn w tokenProgram mint src authority amount ≠ .error (.program e) := by
  simp only [burn, ne_eq, Except.ofOption_eq_error, reduceCtorEq, and_false, not_false_eq_true]

theorem burn_eq_ok :
    burn (E := E) w tokenProgram mint src authority amount = .ok w' ↔
      w.burnTokens tokenProgram mint src authority amount.toNat = some w' := by
  rw [burn, Except.ofOption_eq_ok]

theorem mintTo_eq_ok :
    mintTo (E := E) env w tokenProgram mint dst authority key amount = .ok w' ↔
      ∃ m, w.mints mint = some m ∧ m.mintAuthority = some authority ∧
        (authority = key ∨ env.multisigSigner authority key = true) ∧
        w.mintTokens tokenProgram mint dst amount.toNat = some w' := by
  simp only [mintTo, Except.bind_eq_ok, Except.ofOption_eq_ok, Except.require_eq_ok]
  constructor
  · rintro ⟨m, hm, -, ⟨hauth, hsign⟩, h⟩
    exact ⟨m, hm, hauth, hsign, h⟩
  · rintro ⟨m, hm, hauth, hsign, h⟩
    exact ⟨m, hm, (), ⟨hauth, hsign⟩, h⟩

end Cpi

end Solana
