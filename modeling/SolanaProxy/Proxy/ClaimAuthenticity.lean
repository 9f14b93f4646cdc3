import SolanaProxy.Proxy.Changes

/-!
# Claim authenticity

What a user's claim account holds, over whole runs. `claimOf` reads the claim a user has
pending in a world. Seen from outside, it is a register that a `submit_proof` of the user
writes and a `send_claim` of the user clears, and that nothing else touches
(`claimOf_execute`); so after any run it holds the parameters of the last successful
`submit_proof` of the user unless a claim was sent since (`claimOf_run`).

`claim_authenticity` puts this together with what the two sending instructions hand to the
endpoint (`sent_of_execute`): every claim message of a user was sent by a `send_claim` of
that user, carries what the user last submitted, and uses it up.
-/

namespace Proxy

open Solana Machine

/-- The claim a user has pending. -/
def claimOf (P : Platform) (w : ProxyWorld) (u : Pubkey) : Option ClaimData := do
  let (k, _) ← P.findProgramAddress (claimDataSeeds u)
  w.load ClaimData.kind k

/-- The claim data that a user's parameters leave behind. -/
def pendingData (P : Platform) (u : Pubkey) (params : SubmitProofParams) : Option ClaimData :=
  (P.findProgramAddress (claimDataSeeds u)).map fun a => params.claimData P u a.2

/-- What an entry of a history does to the pending claim of a user, as a register. -/
def claimWrite (u : Pubkey) : Input × List ProxyEffect → Option (Option SubmitProofParams)
  | (.call _ (.submitProof ctx params), _) =>
    if ctx.user.pubkey = u then some (some params) else none
  | (.call _ (.sendClaim ctx _), _) => if ctx.user.pubkey = u then some none else none
  | _ => none

section ClaimOf

variable {P : Platform} {w w' : ProxyWorld} {u v k : Pubkey} {b : U8}

theorem claimOf_of_find (h : P.findProgramAddress (claimDataSeeds u) = some (k, b)) :
    claimOf P w u = w.load ClaimData.kind k := by
  rw [claimOf, h]
  rfl

/-- Claim accounts of different users are different accounts. -/
theorem claimAddress_ne (hP : P.DeriveInjective) {k' : Pubkey} {b' : U8} (hne : u ≠ v)
    (hu : P.findProgramAddress (claimDataSeeds u) = some (k, b))
    (hv : P.findProgramAddress (claimDataSeeds v) = some (k', b')) : k ≠ k' := by
  rintro rfl
  have hseeds := hP.seeds_eq (Platform.createProgramAddress_of_find hu)
    (Platform.createProgramAddress_of_find hv)
  exact hne (claimDataSeeds_inj hseeds).1

/-- Writing the claim account of one user leaves the claims of the others alone. -/
theorem claimOf_update_of_ne (hP : P.DeriveInjective) {o : Option ProxyAccount} (hne : u ≠ v)
    (hv : P.findProgramAddress (claimDataSeeds v) = some (k, b))
    (h : w'.data = Function.update w.data k o) : claimOf P w' u = claimOf P w u := by
  cases hu : P.findProgramAddress (claimDataSeeds u) with
  | none => rw [claimOf, claimOf, hu]; rfl
  | some a =>
    have hk : a.1 ≠ k := claimAddress_ne hP hne hu hv
    rw [claimOf_of_find hu, claimOf_of_find hu, World.load, World.load, h,
      Function.update_of_ne hk]

/-- The claims of two worlds agree. -/
def SameClaims (w w' : ProxyWorld) : Prop :=
  ∀ k, w'.load ClaimData.kind k = w.load ClaimData.kind k

theorem SameClaims.claimOf_eq (h : SameClaims w w') : claimOf P w' u = claimOf P w u := by
  simp only [claimOf, h _]

theorem SameClaims.of_data_eq (h : w'.data = w.data) : SameClaims w w' :=
  World.load_of_data_eq h

end ClaimOf

section Step

variable {P : Platform} {env : Env} {w w' : ProxyWorld} {es : List ProxyEffect}

/-- A submitted proof is what its user has pending afterwards. -/
private theorem claimOf_submitProof (hP : P.DeriveInjective) {ctx : SubmitProof}
    {params : SubmitProofParams} (h : ctx.apply P w params = .ok (w', es)) (u : Pubkey) :
    claimOf P w' u = if ctx.user.pubkey = u then pendingData P u params else claimOf P w u := by
  obtain ⟨-, config, bump, -, -, hfind, -, hdata, -⟩ := SubmitProof.of_apply_eq_ok h
  split
  case isTrue heq =>
    subst heq
    rw [claimOf_of_find hfind, World.load, hdata, Function.update_self, pendingData, hfind]
    rfl
  case isFalse hne => exact claimOf_update_of_ne hP (Ne.symm hne) hfind hdata

/-- A sent claim is gone afterwards. -/
private theorem claimOf_sendClaim (hP : P.DeriveInjective) (hw : WellPlaced P w)
    {ctx : SendClaim} {fee : MessagingFee} {receipt : MessagingReceipt}
    (h : ctx.apply P env w fee = .ok (w', es, receipt)) (u : Pubkey) :
    claimOf P w' u = if ctx.user.pubkey = u then none else claimOf P w u := by
  obtain ⟨w₁, charged, config, claim, f, sent, hprep, hdata, -, -⟩ := SendClaim.of_apply_eq_ok h
  obtain ⟨peer, fees, hprepared⟩ := SendClaim.of_prepare_eq_ok hprep
  obtain ⟨hload, hseeds⟩ := loadClaimData_eq_ok.mp hprepared.claim_loaded
  obtain ⟨-, hfind⟩ := hw.claimData_eq hP hload hseeds
  split
  case isTrue heq =>
    subst heq
    rw [claimOf_of_find hfind, World.load, hdata, Function.update_self]
    rfl
  case isFalse hne => exact claimOf_update_of_ne hP (Ne.symm hne) hfind hdata

/-- Every instruction other than `submit_proof` and `send_claim` leaves all claims alone. -/
private theorem sameClaims_execute {i : Instruction} (h : i.execute P env w = .ok (w', es))
    (hsubmit : ∀ ctx params, i ≠ .submitProof ctx params)
    (hsend : ∀ ctx fee, i ≠ .sendClaim ctx fee) : SameClaims w w' :=
  fun k => (i.accountChange h k).claim_eq hsubmit hsend

/-- **The claim register.** An instruction writes the pending claim of a user exactly as a
`submit_proof` or a `send_claim` of that user does. -/
theorem claimOf_execute (hP : P.DeriveInjective) (hw : WellPlaced P w) {i : Instruction}
    (h : i.execute P env w = .ok (w', es)) {u : Pubkey} {pending : Option SubmitProofParams}
    (hpending : claimOf P w u = pending.bind (pendingData P u)) :
    claimOf P w' u = (Register.write (claimWrite u) pending (.call env i, es)).bind
      (pendingData P u) := by
  by_cases hsubmit : ∃ ctx params, i = .submitProof ctx params
  · obtain ⟨ctx, params, rfl⟩ := hsubmit
    rw [claimOf_submitProof hP h, Register.write, claimWrite]
    split
    · rfl
    · exact hpending
  by_cases hsend : ∃ ctx fee, i = .sendClaim ctx fee
  · obtain ⟨ctx, fee, rfl⟩ := hsend
    obtain ⟨receipt, hc⟩ := Instruction.execute_sendClaim h
    rw [claimOf_sendClaim hP hw hc, Register.write, claimWrite]
    split
    · rfl
    · exact hpending
  have hnone : claimWrite u (.call env i, es) = none := by
    cases i <;> first | rfl | exact absurd ⟨_, _, rfl⟩ hsubmit | exact absurd ⟨_, _, rfl⟩ hsend
  have hsame : SameClaims w w' := sameClaims_execute h
    (fun ctx params heq => hsubmit ⟨ctx, params, heq⟩) fun ctx fee heq => hsend ⟨ctx, fee, heq⟩
  rw [hsame.claimOf_eq, Register.write, hnone]
  exact hpending

end Step

/-! ### Runs -/

section Run

variable {P : Platform}

/-- **Pending claims over runs.** From a fresh state, a user has pending exactly what the
history of the run says. -/
theorem claimOf_run (hP : P.DeriveInjective) {s₀ : ProxyState P} (h₀ : s₀.Fresh)
    (is : List Input) (u : Pubkey) :
    claimOf P (run (step P) s₀ is).world u =
      (Register.read (claimWrite u) (history (step P) s₀ is)).bind (pendingData P u) := by
  refine run_refines (R := fun (s : ProxyState P) (pending : Option SubmitProofParams) =>
    claimOf P s.world u = pending.bind (pendingData P u)) ?_ ?_ is
  · intro s pending i s' es hpending hstep
    cases i with
    | call env i => exact claimOf_execute hP s.placed (step_call_eq_ok.mp hstep) hpending
    | outside lamports tokens mints =>
      obtain ⟨rfl, rfl⟩ := Prod.mk.inj (Except.ok.inj hstep)
      have hsame : SameClaims s.world ⟨s.world.data, lamports, tokens, mints⟩ := .of_data_eq rfl
      rw [hsame.claimOf_eq]
      exact hpending
  · simp only [claimOf, World.load, h₀ _]
    cases P.findProgramAddress (claimDataSeeds u) <;> rfl

/-- **Messages.** What an instruction hands to the endpoint is the pending claim of its
signer, sent by `send_claim`, or a request of its signer, sent by `send_request`. -/
theorem sent_of_execute {env : Env} {w w' : ProxyWorld} {i : Instruction}
    {es : List ProxyEffect} (h : i.execute P env w = .ok (w', es)) :
    es.filterMap Effect.sent? = [] ∨
      (∃ ctx fee sent claim, i = .sendClaim ctx fee ∧ ctx.user.isSigner = true ∧
        es.filterMap Effect.sent? = [sent] ∧
        loadClaimData P w ctx.user.pubkey ctx.claimData = .ok claim ∧
        sent.message = (claim.message ctx.user.pubkey).encode) ∨
      ∃ ctx params fee sent, i = .sendRequest ctx params fee ∧
        es.filterMap Effect.sent? = [sent] ∧
        (PayloadType.fromU8 params.payloadType).checkRequestPayloadType = true ∧
        sent.message = SolanaVaultOCCMessage.encode ⟨TokenType.placeholder.toU8,
          ctx.user.pubkey, params.payloadType, params.payload⟩ := by
  cases i with
  | sendClaim ctx fee =>
    obtain ⟨receipt, hc⟩ := Instruction.execute_sendClaim h
    obtain ⟨_, _, _, claim, _, sent, hprep, -, hsent, -⟩ := SendClaim.of_apply_eq_ok hc
    obtain ⟨peer, fees, hprepared⟩ := SendClaim.of_prepare_eq_ok hprep
    have hmessage : sent.message = (claim.message ctx.user.pubkey).encode := by
      rw [hprepared.sent_eq]
    exact Or.inr (Or.inl ⟨ctx, fee, sent, claim, rfl, hprepared.user_signed, hsent,
      hprepared.claim_loaded, hmessage⟩)
  | sendRequest ctx params fee =>
    obtain ⟨receipt, hc⟩ := Instruction.execute_sendRequest h
    obtain ⟨_, _, sent, hprep, -, hsent, -⟩ := SendRequest.of_apply_eq_ok hc
    obtain ⟨peer, fees, hprepared⟩ := SendRequest.prepare_eq_ok.mp hprep
    have hmessage : sent.message = SolanaVaultOCCMessage.encode ⟨TokenType.placeholder.toU8,
        ctx.user.pubkey, params.payloadType, params.payload⟩ := by
      rw [hprepared.sent_eq]
    exact Or.inr (Or.inr ⟨ctx, params, fee, sent, rfl, hsent, hprepared.payload_type, hmessage⟩)
  | quoteRequest ctx params => exact Or.inl (Instruction.execute_quoteRequest h).2
  | quoteClaim ctx => exact Or.inl (Instruction.execute_quoteClaim h).2
  | lzReceive ctx params => exact Or.inl (LzReceive.data_of_apply h).2
  | lzReceiveTypes ctx params => exact Or.inl (Instruction.execute_lzReceiveTypes h).2
  | submitProof ctx params =>
    obtain ⟨-, _, _, -, -, -, -, -, rfl⟩ := SubmitProof.of_apply_eq_ok h
    exact Or.inl rfl
  | initProxy ctx params =>
    obtain ⟨_, _, -, -, -, -, -, -, rfl⟩ := InitProxy.of_apply_eq_ok h
    exact Or.inl rfl
  | setBackwardFee ctx params =>
    obtain ⟨-, _, -, -, -, rfl⟩ := SetBackwardFee.of_apply_eq_ok h
    exact Or.inl rfl
  | withdrawFee ctx params =>
    obtain ⟨_, -, -, rfl⟩ := WithdrawFee.of_apply_eq_ok h
    exact Or.inl rfl
  | setPause ctx params =>
    obtain ⟨_, -, -, rfl⟩ := SetPause.of_apply_eq_ok h
    exact Or.inl rfl
  | setAccountList ctx params =>
    obtain ⟨_, _, _, _, -, -, -, -, -, -, rfl⟩ := SetAccountList.of_apply_eq_ok h
    exact Or.inl rfl
  | setPeerConfig ctx params =>
    obtain ⟨-, _, _, _, -, -, -, -, rfl⟩ := SetPeerConfig.of_apply_eq_ok h
    exact Or.inl rfl
  | setDelegate ctx params =>
    obtain ⟨_, -, -, rfl⟩ := SetDelegate.of_apply_eq_ok h
    exact Or.inl rfl
  | transferAdmin ctx params =>
    obtain ⟨_, -, -, rfl⟩ := TransferAdmin.of_apply_eq_ok h
    exact Or.inl rfl

/-- The entry of a history hands the endpoint a claim message of `u` with this payload: type
byte 16 and sender field `u`, with any token byte. -/
def SendsClaim (u : Pubkey) (payload : Bytes) (e : Input × List ProxyEffect) : Prop :=
  ∃ sent ∈ e.2.filterMap Effect.sent?, ∃ token, sent.message = Frame.bytes ⟨token, u, 16, payload⟩

/-- The entry of a history is a `submit_proof` signed by `u` with these parameters. -/
def SubmitsProof (u : Pubkey) (params : SubmitProofParams) (e : Input × List ProxyEffect) :
    Prop :=
  ∃ env ctx, e.1 = .call env (.submitProof ctx params) ∧ ctx.user.pubkey = u ∧
    ctx.user.isSigner = true

/-- The entry of a history is a `send_claim` signed by `u`. -/
def IsSendClaim (u : Pubkey) (e : Input × List ProxyEffect) : Prop :=
  ∃ env ctx fee, e.1 = .call env (.sendClaim ctx fee) ∧ ctx.user.pubkey = u ∧
    ctx.user.isSigner = true

/-- A claim message of a user is sent by a `send_claim` of that user and carries what the
user had pending. -/
theorem claim_of_sendsClaim (hP : P.DeriveInjective) {s s' : ProxyState P} {i : Input}
    {es : List ProxyEffect} (hstep : step P s i = .ok (s', es)) {u : Pubkey} {payload : Bytes}
    (h : SendsClaim u payload (i, es)) :
    IsSendClaim u (i, es) ∧
      ∃ claim, claimOf P s.world u = some claim ∧ payload = claim.encodeClaimPayload := by
  obtain ⟨sent, hmem, token, hmsg⟩ := h
  cases i with
  | outside lamports tokens mints =>
    obtain ⟨rfl, rfl⟩ := Prod.mk.inj (Except.ok.inj hstep)
    exact nomatch hmem
  | call env i =>
    have hexec := step_call_eq_ok.mp hstep
    rcases sent_of_execute hexec with hnone | ⟨ctx, fee, sent', claim, rfl, hsigner, hsent, hclaim,
      hmsg'⟩ | ⟨ctx, params, fee, sent', rfl, hsent, htype, hmsg'⟩
    · rw [hnone] at hmem
      exact nomatch hmem
    · rw [hsent, List.mem_singleton] at hmem
      subst hmem
      rw [hmsg, SolanaVaultOCCMessage.encode_eq_bytes] at hmsg'
      have hframe := Frame.bytes_injective hmsg'
      injection hframe with htoken haddress htype hpayload
      obtain rfl : u = ctx.user.pubkey := haddress
      obtain ⟨hload, hseeds⟩ := loadClaimData_eq_ok.mp hclaim
      obtain ⟨-, hfind⟩ := s.placed.claimData_eq hP hload hseeds
      refine ⟨⟨env, ctx, fee, rfl, rfl, hsigner⟩, claim, ?_, hpayload⟩
      rw [claimOf_of_find hfind, World.load_eq_some]
      exact hload
    · -- a request is never of the claim type
      rw [hsent, List.mem_singleton] at hmem
      subst hmem
      rw [hmsg, SolanaVaultOCCMessage.encode_eq_bytes] at hmsg'
      have hframe := Frame.bytes_injective hmsg'
      injection hframe with htoken haddress htype' hpayload
      have hbyte : params.payloadType = 16 := htype'.symm
      rw [hbyte] at htype
      exact absurd htype (by decide)

/-- A register write of a value is a `submit_proof` of the user. -/
private theorem submitsProof_of_claimWrite {s s' : ProxyState P} {i : Input}
    {es : List ProxyEffect} (hstep : step P s i = .ok (s', es)) {u : Pubkey}
    {params : SubmitProofParams} (h : claimWrite u (i, es) = some (some params)) :
    SubmitsProof u params (i, es) := by
  cases i with
  | outside lamports tokens mints => cases h
  | call env i =>
    cases i <;> try cases h
    case submitProof ctx params' =>
      rw [claimWrite, Option.ite_none_right_eq_some] at h
      obtain ⟨hu, hparams⟩ := h
      obtain rfl : params' = params := Option.some.inj (Option.some.inj hparams)
      obtain ⟨hsigner, -⟩ := SubmitProof.of_apply_eq_ok (step_call_eq_ok.mp hstep)
      exact ⟨env, ctx, rfl, hu, hsigner⟩
    case sendClaim ctx fee =>
      rw [claimWrite, Option.ite_none_right_eq_some] at h
      cases h.2

private theorem claimWrite_of_submitsProof {u : Pubkey} {params : SubmitProofParams}
    {e : Input × List ProxyEffect} (h : SubmitsProof u params e) :
    claimWrite u e = some (some params) := by
  obtain ⟨env, ctx, he, hu, -⟩ := h
  obtain ⟨i, es⟩ := e
  obtain rfl : i = _ := he
  exact if_pos hu

private theorem claimWrite_of_isSendClaim {u : Pubkey} {e : Input × List ProxyEffect}
    (h : IsSendClaim u e) : claimWrite u e = some none := by
  obtain ⟨env, ctx, fee, he, hu, -⟩ := h
  obtain ⟨i, es⟩ := e
  obtain rfl : i = _ := he
  exact if_pos hu

/-- What the parameters of a claim look like on the wire. -/
def claimPayload (P : Platform) (u : Pubkey) (params : SubmitProofParams) : Bytes :=
  let claimData := params.claimData P u 0
  claimData.distributionId.toList ++ claimData.amount.toList ++ claimData.root.toList

theorem length_claimPayload (u : Pubkey) (params : SubmitProofParams) :
    (claimPayload P u params).length = 96 := by
  simp only [claimPayload, List.length_append, List.Vector.toList_length]

/-- The register holds the parameters of every claim message when it is sent. -/
private theorem read_of_sendsClaim (hP : P.DeriveInjective) {s₀ : ProxyState P} (h₀ : s₀.Fresh)
    {is : List Input} {u : Pubkey} {pre post : List (Input × List ProxyEffect)}
    {e : Input × List ProxyEffect} {payload : Bytes}
    (hsplit : history (step P) s₀ is = pre ++ e :: post) (h : SendsClaim u payload e) :
    IsSendClaim u e ∧ ∃ params, Register.read (claimWrite u) pre = some params ∧
      payload = claimPayload P u params := by
  obtain ⟨is₁, is₂, s', rfl, hpre, hstep⟩ := exists_of_history_eq hsplit
  obtain ⟨hsend, claim, hclaim, hpayload⟩ := claim_of_sendsClaim hP hstep h
  rw [claimOf_run hP h₀, hpre, Option.bind_eq_some_iff] at hclaim
  obtain ⟨params, hread, hpending⟩ := hclaim
  obtain ⟨a, -, rfl⟩ := Option.map_eq_some_iff.mp hpending
  exact ⟨hsend, params, hread, hpayload⟩

/-- A step hands the endpoint at most one message. -/
private theorem length_sent_le_one {s s' : ProxyState P} {i : Input} {es : List ProxyEffect}
    (hstep : step P s i = .ok (s', es)) : (es.filterMap Effect.sent?).length ≤ 1 := by
  cases i with
  | outside lamports tokens mints =>
    obtain ⟨-, rfl⟩ := Prod.mk.inj (Except.ok.inj hstep)
    exact Nat.zero_le 1
  | call env i =>
    rcases sent_of_execute (step_call_eq_ok.mp hstep) with hnone | ⟨_, _, _, _, -, -, hone, -⟩ |
      ⟨_, _, _, _, -, hone, -⟩
    · rw [hnone]
      exact Nat.zero_le 1
    · rw [hone, List.length_singleton]
    · rw [hone, List.length_singleton]

/-- The two instructions that write the register of a user are signed by that user. -/
private theorem claimWrite_of_not_signedBy {env : Env} {w w' : ProxyWorld} {i : Instruction}
    {es : List ProxyEffect} (h : i.execute P env w = .ok (w', es)) {u : Pubkey}
    (hsigned : ¬i.SignedBy u) : claimWrite u (.call env i, es) = none := by
  cases i <;> try rfl
  case submitProof ctx params =>
    obtain ⟨hsigner, -⟩ := SubmitProof.of_apply_eq_ok h
    refine if_neg fun hu => hsigned ⟨ctx.user, ?_, hsigner, hu⟩
    simp [Instruction.accounts]
  case sendClaim ctx fee =>
    obtain ⟨receipt, hc⟩ := Instruction.execute_sendClaim h
    obtain ⟨_, _, _, _, _, _, hprep, -⟩ := SendClaim.of_apply_eq_ok hc
    obtain ⟨peer, fees, hprepared⟩ := SendClaim.of_prepare_eq_ok hprep
    refine if_neg fun hu => hsigned ⟨ctx.user, ?_, hprepared.user_signed, hu⟩
    simp [Instruction.accounts]

/-- **Claim authenticity.** In every run from a fresh state and for every user `u`:

* every claim message of `u` is sent by a `send_claim` signed by `u`, and its payload is made
  of the parameters of the last successful `submit_proof` of `u` before it;
* between two claim messages of `u` there is a successful `submit_proof` of `u`, and no entry
  hands over more than one message;
* no instruction that `u` did not sign changes what `u` has pending. -/
theorem claim_authenticity (hP : P.DeriveInjective) {s₀ : ProxyState P} (h₀ : s₀.Fresh)
    (is : List Input) (u : Pubkey) :
    (∀ pre e post payload, history (step P) s₀ is = pre ++ e :: post → SendsClaim u payload e →
      IsSendClaim u e ∧ payload.length = 96 ∧ ∃ pre' submit mid params,
        pre = pre' ++ submit :: mid ∧ SubmitsProof u params submit ∧
        (∀ x ∈ mid, ∀ params', ¬SubmitsProof u params' x) ∧
        payload = (toBytes32 (n := 4) params.distributionId.toBeArr).toList ++
          params.cumulativeAmount.toList ++
          (processProof P.keccak params.merkleProof (calculateLeaf P.keccak
            (solanaToEvmAddress P.keccak u) params.cumulativeAmount)).toList) ∧
    (∀ pre e mid e' post payload payload',
      history (step P) s₀ is = pre ++ e :: (mid ++ e' :: post) → SendsClaim u payload e →
      SendsClaim u payload' e' → ∃ x ∈ mid, ∃ params, SubmitsProof u params x) ∧
    (∀ e ∈ history (step P) s₀ is, (e.2.filterMap Effect.sent?).length ≤ 1) ∧
    (∀ env i s' es, step P (run (step P) s₀ is) (.call env i) = .ok (s', es) → ¬i.SignedBy u →
      claimOf P s'.world u = claimOf P (run (step P) s₀ is).world u) := by
  refine ⟨?_, ?_, ?_, ?_⟩
  · intro pre e post payload hsplit hsends
    obtain ⟨hsend, params, hread, rfl⟩ := read_of_sendsClaim hP h₀ hsplit hsends
    obtain ⟨pre', submit, mid, rfl, hwrite, hmid⟩ := Register.read_eq_some_iff.mp hread
    have hsplit' : history (step P) s₀ is = pre' ++ submit :: (mid ++ e :: post) := by
      rw [hsplit, List.append_assoc, List.cons_append]
    obtain ⟨_, _, _, -, -, hstep⟩ := exists_of_history_eq hsplit'
    refine ⟨hsend, length_claimPayload u params, pre', submit, mid, params, rfl,
      submitsProof_of_claimWrite hstep hwrite, fun x hx params' hsub => ?_, rfl⟩
    have hnone : claimWrite u x = none := hmid x hx
    rw [claimWrite_of_submitsProof hsub] at hnone
    cases hnone
  · intro pre e mid e' post payload payload' hsplit hsends hsends'
    obtain ⟨hsend, -⟩ := read_of_sendsClaim hP h₀ hsplit hsends
    have hsplit' : history (step P) s₀ is = (pre ++ e :: mid) ++ e' :: post := by
      rw [hsplit, List.append_assoc, List.cons_append]
    obtain ⟨-, params, hread, -⟩ := read_of_sendsClaim hP h₀ hsplit' hsends'
    -- the first message emptied the register
    obtain ⟨x, hx, hwrite⟩ := Register.exists_write_of_clear (claimWrite_of_isSendClaim hsend) hread
    obtain ⟨mid₁, mid₂, rfl⟩ := List.append_of_mem hx
    have hsplitx : history (step P) s₀ is = (pre ++ e :: mid₁) ++ x :: (mid₂ ++ e' :: post) := by
      rw [hsplit]
      simp only [List.append_assoc, List.cons_append]
    obtain ⟨_, _, _, -, -, hstep⟩ := exists_of_history_eq hsplitx
    exact ⟨x, hx, params, submitsProof_of_claimWrite hstep hwrite⟩
  · intro e he
    obtain ⟨pre, post, hsplit⟩ := List.append_of_mem he
    obtain ⟨_, _, s', -, -, hstep⟩ := exists_of_history_eq hsplit
    exact length_sent_le_one hstep
  · intro env i s' es hstep hsigned
    have hexec := step_call_eq_ok.mp hstep
    have hrun := claimOf_run hP h₀ is u
    rw [claimOf_execute hP (run (step P) s₀ is).placed hexec hrun, hrun, Register.write,
      claimWrite_of_not_signedBy hexec hsigned, Option.getD_none]

end Run

/-! ### A run that sends a claim -/

/-- The set-up, a submitted proof and the claim sent for it. -/
def sampleClaimRun : List Input :=
  sampleSetup ++
    [.call sampleEnv (.submitProof sampleSubmitProof sampleParams),
      .call sampleEnv (.sendClaim sampleSendClaim ⟨2000#64, 0#64⟩)]

/-- The last entry of the sample run hands over the user's claim message. -/
private theorem sampleClaimRun_sends :
    ∃ pre e, history (step samplePlatform) sampleFresh sampleClaimRun = pre ++ [e] ∧
      SendsClaim sampleUser (claimPayload samplePlatform sampleUser sampleParams) e := by
  have hlast : ((history (step samplePlatform) sampleFresh sampleClaimRun).getLast?.map
      fun e => (e.2.filterMap Effect.sent?).map SendParams.message) = some [Frame.bytes
        ⟨3, sampleUser, 16, claimPayload samplePlatform sampleUser sampleParams⟩] := by
    decide +kernel
  obtain ⟨e, he, hmsg⟩ := Option.map_eq_some_iff.mp hlast
  obtain ⟨sent, hsent, hmessage⟩ := List.map_eq_singleton_iff.mp hmsg
  refine ⟨_, e, (List.dropLast_append_getLast? e he).symm, sent, ?_, 3, hmessage⟩
  rw [hsent]
  exact List.mem_singleton_self sent

/-- The sample run sends a claim, and authenticity holds of it. -/
theorem claim_authenticity_sample :
    ∃ pre e, history (step samplePlatform) sampleFresh sampleClaimRun = pre ++ [e] ∧
      SendsClaim sampleUser (claimPayload samplePlatform sampleUser sampleParams) e ∧
      IsSendClaim sampleUser e ∧
      ∃ submit ∈ pre, ∃ params, SubmitsProof sampleUser params submit := by
  obtain ⟨pre, e, hsplit, hsends⟩ := sampleClaimRun_sends
  obtain ⟨hpayload, -⟩ := claim_authenticity samplePlatform_injective
    (fun _ => rfl : sampleFresh.Fresh) sampleClaimRun sampleUser
  obtain ⟨hsend, -, pre', submit, mid, params, rfl, hsubmit, -⟩ := hpayload pre e [] _ hsplit hsends
  exact ⟨_, e, hsplit, hsends, hsend, submit, by simp, params, hsubmit⟩

end Proxy
