import SolanaProxy.General.Machine
import SolanaProxy.Oft.Transfer

/-!
# Runs of the OFT program

The machine of the instructions that write: `init_oft`, the settings, `withdraw_fee`, `send` and
`lz_receive`. Between two calls anything may happen outside the program, except that the
program's accounts stay as they are and the token accounts they own only gain: nobody else can
sign for a derived address. For the same reason no account of the program signs a call
(`Instruction.invoke`).

Every instruction performs writes of `AccountWrite` only (`Instruction.writes`), so the states
of a run carry `WellFormed` by construction, and the setup of a store lasts through every run
(`sameSetup_run`).
-/

namespace Oft

open Solana

/-- An instruction with its accounts and parameters. -/
inductive Instruction where
  | initOFT (ctx : InitOFT) (params : InitOFTParams)
  | setOFTConfig (ctx : SetOFTConfig) (params : SetOFTConfigParams)
  | setPause (ctx : SetPause) (params : SetPauseParams)
  | setPeerConfig (ctx : SetPeerConfig) (params : SetPeerConfigParams)
  | withdrawFee (ctx : WithdrawFee) (params : WithdrawFeeParams)
  | send (ctx : Send) (params : SendParams)
  | lzReceive (ctx : LzReceive) (params : LzReceiveParams)

namespace Instruction

/-- The accounts an instruction is called with. -/
def accounts : Instruction → List AccountInfo
  | initOFT c _ =>
    [c.payer, c.oftStore, c.lzReceiveTypesAccounts, c.tokenMint, c.tokenEscrow, c.tokenProgram,
      c.systemProgram] ++ c.remainingAccounts
  | setOFTConfig c _ => [c.admin, c.oftStore] ++ c.remainingAccounts
  | setPause c _ => [c.signer, c.oftStore]
  | setPeerConfig c _ => [c.admin, c.peer, c.oftStore, c.systemProgram]
  | withdrawFee c _ =>
    [c.admin, c.oftStore, c.tokenMint, c.tokenEscrow, c.tokenDest, c.tokenProgram]
  | send c _ =>
    [c.signer, c.peer, c.oftStore, c.tokenSource, c.tokenEscrow, c.tokenMint, c.tokenProgram,
      c.eventAuthority, c.program] ++ c.remainingAccounts
  | lzReceive c _ =>
    [c.payer, c.peer, c.oftStore, c.tokenEscrow, c.toAddress, c.tokenDest, c.tokenMint] ++
      c.mintAuthority.toList ++ [c.tokenProgram, c.associatedTokenProgram, c.systemProgram,
      c.eventAuthority, c.program] ++ c.remainingAccounts

/-- The effect of an instruction on a world. -/
def execute (P : Platform) (env : Env) (w : OFTWorld) :
    Instruction → Result OFTError (OFTWorld × List OFTEffect)
  | initOFT ctx params => ctx.apply P env w params
  | setOFTConfig ctx params => ctx.apply P env w params
  | setPause ctx params => ctx.apply P w params
  | setPeerConfig ctx params => ctx.apply P env w params
  | withdrawFee ctx params => ctx.apply P env w params
  | send ctx params => do
    let (w, es, _) ← ctx.apply P env w params
    return (w, es)
  | lzReceive ctx params => ctx.apply P env w params

/-- A call by the runtime, which lets no derived address sign. -/
def invoke (P : Platform) (env : Env) (w : OFTWorld) (i : Instruction) :
    Result OFTError (OFTWorld × List OFTEffect) := do
  Except.require (∀ a ∈ i.accounts, a.isSigner = true → w.data a.pubkey = none)
    (.anchor .accountNotSigner)
  i.execute P env w

section Invoke

variable {P : Platform} {env : Env} {w w' : OFTWorld} {es : List OFTEffect} {i : Instruction}

theorem invoke_eq_ok :
    i.invoke P env w = .ok (w', es) ↔
      (∀ a ∈ i.accounts, a.isSigner = true → w.data a.pubkey = none) ∧
        i.execute P env w = .ok (w', es) := by
  simp only [invoke, Except.bind_eq_ok, Except.require_eq_ok]
  constructor
  · rintro ⟨-, hsigners, h⟩
    exact ⟨hsigners, h⟩
  · rintro ⟨hsigners, h⟩
    exact ⟨(), hsigners, h⟩

theorem execute_send {ctx : Send} {params : SendParams}
    (h : execute P env w (send ctx params) = .ok (w', es)) :
    ∃ receipt oftReceipt, ctx.apply P env w params = .ok (w', es, receipt, oftReceipt) := by
  simp only [execute, Except.bind_eq_ok, Except.pure_eq_ok, Prod.mk.injEq] at h
  obtain ⟨⟨w₁, es₁, receipt, oftReceipt⟩, hc, rfl, rfl⟩ := h
  exact ⟨receipt, oftReceipt, hc⟩

/-- **Writes.** What an instruction does to the accounts of the program. -/
theorem writes (h : execute P env w i = .ok (w', es)) : Writes P w.data w'.data := by
  cases i with
  | initOFT ctx params => exact InitOFT.writes h
  | setOFTConfig ctx params =>
    obtain ⟨store, store', hstore, hsetup, -, horder, hdata, -⟩ := SetOFTConfig.of_apply_eq_ok h
    exact hdata ▸ .single ⟨.store hstore hsetup horder⟩
  | setPause ctx params =>
    obtain ⟨store, hstore, -, rfl⟩ := SetPause.of_apply_eq_ok h
    exact .single ⟨.store hstore (.refl _) id⟩
  | setPeerConfig ctx params =>
    obtain ⟨peer, hwrite, hdata, -⟩ := SetPeerConfig.of_apply_eq_ok h
    exact hdata ▸ .single ⟨hwrite⟩
  | withdrawFee ctx params =>
    obtain ⟨_, _, _, -, -, -, m, htransfer⟩ := WithdrawFee.of_apply_eq_ok h
    rw [(World.frame_of_transferTokens htransfer).1]
  | send ctx params =>
    obtain ⟨receipt, oftReceipt, hc⟩ := execute_send h
    exact Send.writes hc
  | lzReceive ctx params => exact LzReceive.writes h

end Invoke

end Instruction

/-! ### The machine -/

/-- What a run is made of: calls of the program by anyone, and whatever else happens to
lamports, tokens and mints. -/
inductive Input where
  | call (env : Env) (i : Instruction)
  | outside (lamports : Pubkey → ℕ) (tokens : Pubkey → Option TokenAccount)
      (mints : Pubkey → Option Mint) (deposits : Pubkey → ℕ)

/-- The token accounts after something happened outside: those owned by an account of the
program gained a deposit, the others are arbitrary. -/
def outsideTokens (w : OFTWorld) (tokens : Pubkey → Option TokenAccount) (deposits : Pubkey → ℕ)
    (k : Pubkey) : Option TokenAccount :=
  match w.tokens k with
  | some t =>
    if w.data t.owner = none then tokens k else some { t with amount := t.amount + deposits k }
  | none => tokens k

/-- One input. -/
def step (P : Platform) (s : OFTState P) :
    Input → Except (Failure OFTError) (OFTState P × List OFTEffect)
  | .call env i =>
    match h : i.invoke P env s.world with
    | .ok (w, es) =>
      .ok (⟨w, (i.writes (Instruction.invoke_eq_ok.mp h).2).wellFormed s.wellFormed⟩, es)
    | .error e => .error e
  | .outside lamports tokens mints deposits =>
    .ok (⟨⟨s.world.data, lamports, outsideTokens s.world tokens deposits, mints⟩, s.wellFormed⟩, [])

theorem step_call_eq_ok {P : Platform} {s s' : OFTState P} {env : Env} {i : Instruction}
    {es : List OFTEffect} :
    step P s (.call env i) = .ok (s', es) ↔ i.invoke P env s.world = .ok (s'.world, es) := by
  constructor
  · intro h
    simp only [step] at h
    split at h
    case h_1 w es' hinvoke =>
      obtain ⟨rfl, rfl⟩ := Prod.mk.inj (Except.ok.inj h)
      exact hinvoke
    case h_2 => cases h
  · intro h
    simp only [step]
    split
    case h_1 w es' hinvoke =>
      rw [h] at hinvoke
      obtain ⟨rfl, rfl⟩ := Prod.mk.inj (Except.ok.inj hinvoke)
      rfl
    case h_2 e hinvoke =>
      rw [h] at hinvoke
      cases hinvoke

/-- The world after a run. -/
def worldAfter {P : Platform} (s : OFTState P) (is : List Input) : OFTWorld :=
  (Machine.run (step P) s is).world

/-- The states before the program was ever called. -/
def OFTState.Fresh {P : Platform} (s : OFTState P) : Prop := ∀ k, s.world.data k = none

/-- A world without accounts of the program. -/
def OFTState.fresh (P : Platform) (lamports : Pubkey → ℕ)
    (tokens : Pubkey → Option TokenAccount) (mints : Pubkey → Option Mint) : OFTState P :=
  ⟨⟨fun _ => none, lamports, tokens, mints⟩, fun _ _ h => nomatch h⟩

/-- **Permanence.** The setup of a store lasts through every run. -/
theorem sameSetup_run {P : Platform} {s : OFTState P} {k : Pubkey} {store : OFTStore}
    (hstore : s.world.data k = some (.oftStore store)) (is : List Input) :
    ∃ store', (worldAfter s is).data k = some (.oftStore store') ∧ store.SameSetup store' := by
  refine Machine.run_invariant (P := fun s : OFTState P => ∃ store',
    s.world.data k = some (.oftStore store') ∧ store.SameSetup store') ?_
    ⟨store, hstore, .refl store⟩ is
  rintro s i s' es ⟨store₁, hstore₁, hsame⟩ hstep
  cases i with
  | call env i =>
    obtain ⟨-, hexec⟩ := Instruction.invoke_eq_ok.mp (step_call_eq_ok.mp hstep)
    obtain ⟨store₂, hstore₂, hsame'⟩ := (i.writes hexec).sameSetup hstore₁
    exact ⟨store₂, hstore₂, hsame.trans hsame'⟩
  | outside lamports tokens mints deposits =>
    obtain ⟨rfl, -⟩ := Prod.mk.inj (Except.ok.inj hstep)
    exact ⟨store₁, hstore₁, hsame⟩

/-! ### A deployment

An adapter for a mint with 10 decimals and a transfer fee of one percent, at most 5000000, with
6 shared decimals, one user and one peer. -/

/-- The user who sends. -/
def sampleUser : Pubkey := sampleKey 20

/-- The admin of the store. -/
def sampleAdmin : Pubkey := sampleKey 21

/-- The mint of the token. -/
def sampleMint : Pubkey := sampleKey 22

/-- The wallet tokens are delivered to. -/
def sampleReceiver : Pubkey := sampleKey 24

/-- The endpoint id of the peer. -/
def sampleEid : U32 := 30101#32

/-- The addresses of the deployment, each with its seeds and the first bump tried. -/
def sampleTable : List ((Bytes × Pubkey) × Pubkey) :=
  [((oftSeeds (sampleKey 9) ++ [255], sampleKey 110), sampleKey 1),
    ((lzReceiveTypesSeeds (sampleKey 1) ++ [255], sampleKey 110), sampleKey 2),
    ((peerSeeds (sampleKey 1) sampleEid ++ [255], sampleKey 110), sampleKey 5),
    ((eventAuthoritySeeds ++ [255], sampleKey 110), sampleKey 7),
    ((sampleReceiver.toList ++ (sampleKey 102).toList ++ sampleMint.toList ++ [255],
      sampleKey 103), sampleKey 10)]

/-- The platform of the deployment, with the rent of Solana. -/
def samplePlatform : Platform where
  programId := sampleKey 110
  derive := tableDerive sampleTable
  keccak _ := zero32
  systemProgram := zero32
  tokenProgram := sampleKey 101
  token2022Program := sampleKey 102
  associatedTokenProgram := sampleKey 103
  minimumBalance size := 890880 + 6960 * size
  assertType3 options := options.take 2 == [0, 3]
  combineOptions enforced extra := some (enforced ++ extra.drop 2)
  endpointId := sampleKey 23
  eventSeed := eventAuthoritySeeds
  clearMinAccountsLen := 1
  getAccountsForClear endpoint _ _ _ _ := [⟨endpoint, false, false⟩]

theorem samplePlatform_injective : samplePlatform.DeriveInjective :=
  deriveInjective_of_table rfl (by decide)

/-- The mint, with its transfer fee. -/
def sampleMintState : Mint where
  program := sampleKey 102
  decimals := 10
  mintAuthority := none
  supply := 10 ^ 15
  transferFeeConfig :=
    some ⟨⟨0, 5000000#64, 100#16, by decide⟩, ⟨0, 5000000#64, 100#16, by decide⟩⟩

/-- The state of the sample before anything was called; the user has tokens. -/
def sampleFresh : OFTState samplePlatform :=
  .fresh samplePlatform (fun _ => 10 ^ 12)
    (fun k => if k = sampleKey 30 then some ⟨sampleKey 102, sampleMint, sampleUser, 10 ^ 12⟩ else
      if k = sampleKey 31 then some ⟨sampleKey 102, sampleMint, sampleAdmin, 0⟩ else none)
    fun k => if k = sampleMint then some sampleMintState else none

/-- The accounts of the initialization. -/
def sampleInit : InitOFT :=
  ⟨sampleSigner sampleAdmin, sampleWritable (sampleKey 1), sampleWritable (sampleKey 2),
    ⟨sampleMint, false, false⟩, sampleSigner (sampleKey 9), ⟨sampleKey 102, false, false⟩,
    ⟨zero32, false, false⟩, []⟩

/-- An adapter with 6 shared decimals. -/
def sampleInitParams : InitOFTParams := ⟨.adapter, sampleAdmin, 6, none⟩

/-- The set-up of the deployment: the store, half a percent of fee, and the peer. -/
def sampleSetup : List Input :=
  [.call sampleEnv (.initOFT sampleInit sampleInitParams),
    .call sampleEnv (.setOFTConfig ⟨sampleSigner sampleAdmin, sampleWritable (sampleKey 1), []⟩
      (.defaultFee 50#16)),
    .call sampleEnv (.setPeerConfig ⟨sampleSigner sampleAdmin, sampleWritable (sampleKey 5),
      ⟨sampleKey 1, false, false⟩, ⟨zero32, false, false⟩⟩
      ⟨sampleEid, .peerAddress (sampleKey 40)⟩)]

/-- The accounts of a send of the user. -/
def sampleSend : Send :=
  ⟨sampleSigner sampleUser, sampleWritable (sampleKey 5), sampleWritable (sampleKey 1),
    sampleWritable (sampleKey 30), sampleWritable (sampleKey 9), sampleWritable sampleMint,
    ⟨sampleKey 102, false, false⟩, ⟨sampleKey 7, false, false⟩, ⟨sampleKey 110, false, false⟩,
    [⟨sampleKey 23, false, false⟩, ⟨sampleKey 1, false, false⟩]⟩

/-- A send of one tenth of a token to a remote account. -/
def sampleSendParams : SendParams :=
  ⟨sampleEid, sampleKey 50, 1000000000#64, 0#64, [0, 3], none, 1000#64, 0#64⟩

/-- The accounts of a delivery to the sample receiver. -/
def sampleLzReceive : LzReceive :=
  ⟨sampleSigner sampleUser, sampleWritable (sampleKey 5), sampleWritable (sampleKey 1),
    sampleWritable (sampleKey 9), ⟨sampleReceiver, false, false⟩, sampleWritable (sampleKey 10),
    sampleWritable sampleMint, none, ⟨sampleKey 102, false, false⟩,
    ⟨sampleKey 103, false, false⟩, ⟨zero32, false, false⟩, ⟨sampleKey 7, false, false⟩,
    ⟨sampleKey 110, false, false⟩, [⟨sampleKey 23, false, false⟩]⟩

/-- A delivery to the sample receiver with a number in its amount field. -/
def sampleReceiveParams (field : U256) : LzReceiveParams where
  srcEid := sampleEid
  sender := sampleKey 40
  nonce := 1#64
  guid := sampleKey 60
  message := sampleReceiver.toList ++ field.toBeBytes
  extraData := []

/-- The deployment with tokens in its escrow. -/
def sampleLocked : OFTState samplePlatform :=
  Machine.run (step samplePlatform) sampleFresh
    (sampleSetup ++ [.call sampleEnv (.send sampleSend sampleSendParams)])

end Oft
