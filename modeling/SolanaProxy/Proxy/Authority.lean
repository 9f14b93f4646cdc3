import SolanaProxy.Proxy.ClaimAuthenticity
import SolanaProxy.Proxy.Lamports

/-!
# Authority and pause

Who may change what, over whole runs from a set-up. Everything the proxy stores but the claims of
its users is a setting; with the delegate at the endpoint and the lamports of the configuration
account it changes only in steps that the stored admin has signed, and the admin changes only when
the admin hands over (`StepAuthorised`). While the proxy is paused the instructions of the users and
the executors fail, until the admin ends the pause (`PauseHolds`).
-/

namespace Proxy

open Solana Machine

/-- The input is an instruction signed by a key. -/
def Input.SignedBy (u : Pubkey) : Input → Prop
  | .call _ i => i.SignedBy u
  | .outside .. => False

/-- The input hands the admin role to a key. -/
def Input.Appoints (u : Pubkey) : Input → Prop
  | .call _ (.transferAdmin _ params) => params.newAdmin = u
  | _ => False

/-- The input ends a pause. -/
def Input.Unpauses : Input → Prop
  | .call _ (.setPause _ params) => params.paused = false
  | _ => False

/-- The instructions that a pause stops. -/
def Instruction.Pausable : Instruction → Prop
  | .submitProof .. | .sendClaim .. | .sendRequest .. | .quoteClaim .. | .quoteRequest ..
  | .lzReceive .. => True
  | _ => False

/-- The delegates that effects name at the endpoint. -/
def delegated (es : List ProxyEffect) : List Pubkey :=
  (es.filterMap Effect.called?).filterMap EndpointCall.delegate?

/-- There is an account, and it is no claim. -/
def IsSetting (o : Option ProxyAccount) : Prop := ∃ a ∈ o, ClaimData.kind.unwrap a = none

/-- A step changes what is set: an account that is no claim before or after it, the delegate at the
endpoint, or, where the runtime permits the step, the lamports of the configuration account by
taking some. -/
inductive ChangesSetting {P : Platform} (k : Pubkey) (s : ProxyState P) (i : Input)
    (es : List ProxyEffect) (s' : ProxyState P) : Prop
  | account (k' : Pubkey) (hne : s'.world.data k' ≠ s.world.data k')
      (hsetting : IsSetting (s.world.data k') ∨ IsSetting (s'.world.data k'))
  | delegate (hne : delegated es ≠ [])
  | lamports (hpermitted : Permitted k s i) (hlt : s'.world.lamports k < s.world.lamports k)

/-- What a step does is authorised: what is set changes when the stored admin has signed, and the
stored admin changes when it hands over. -/
structure StepAuthorised {P : Platform} (k : Pubkey) (s : ProxyState P) (i : Input)
    (es : List ProxyEffect) (s' : ProxyState P) : Prop where
  setting : ChangesSetting k s i es s' →
    ∃ c, s.world.data k = some (.proxyConfig c) ∧ i.SignedBy c.admin
  admin : ∀ c c', s.world.data k = some (.proxyConfig c) →
    s'.world.data k = some (.proxyConfig c') → c'.admin ≠ c.admin → i.SignedBy c.admin ∧
      ∃ env ctx params, i = .call env (.transferAdmin ctx params) ∧ c'.admin = params.newAdmin

/-- There is a configuration at `k`, and it is paused. -/
def Paused {P : Platform} (k : Pubkey) (s : ProxyState P) : Prop :=
  ∃ c, s.world.data k = some (.proxyConfig c) ∧ c.paused = true

/-- A step sends no message, leaves the claims alone and, when it is a call, the tokens, too. -/
structure Quiet {P : Platform} (s : ProxyState P) (i : Input) (es : List ProxyEffect)
    (s' : ProxyState P) : Prop where
  sends : es.filterMap Effect.sent? = []
  claims : SameClaims s.world s'.world
  tokens : ∀ env instruction, i = .call env instruction → s'.world.tokens = s.world.tokens

/-- The pause at a state: what it stops fails, and until the pause is ended every step is quiet. -/
structure PauseHolds {P : Platform} (k : Pubkey) (s : ProxyState P) : Prop where
  fails : ∀ env (i : Instruction), i.Pausable → ∃ e, step P s (.call env i) = .error e
  lasts : ∀ js : List Input, (∀ e ∈ history (step P) s js, ¬e.1.Unpauses) →
    Paused k (run (step P) s js) ∧
      ∀ t ∈ transitions (step P) s js, Quiet t.1 t.2.1 t.2.2 (next (step P) t.1 t.2.1)

/-! ### One instruction -/

section Step

variable {P : Platform} {env : Env} {w w' : ProxyWorld} {es : List ProxyEffect} {i : Instruction}
  {k : Pubkey} {c : ProxyConfig}

/-- **Settings** change in steps that the admin has signed. -/
theorem AccountChange.signedBy (hw : WellPlaced P w) (hc : w.data k = some (.proxyConfig c))
    {k' : Pubkey} {o o' : Option ProxyAccount} (h : AccountChange P env w k' i o o') (hne : o' ≠ o)
    (hsetting : IsSetting o ∨ IsSetting o') : i.SignedBy c.admin := by
  have hadmin : ∀ {config : ProxyConfig}, i.ByAdmin P w config → i.SignedBy c.admin := by
    intro config h
    rw [← h.config_eq hw hc]
    exact h.signedBy
  have hclaim : ∀ d, ¬IsSetting (some (.claimData d)) := by
    rintro d ⟨a, ha, hunwrap⟩
    obtain rfl := Option.some.inj ha
    cases hunwrap
  have hnone : ¬IsSetting none := by
    rintro ⟨a, ha, -⟩
    cases ha
  cases h with
  | same => exact absurd rfl hne
  | created hnew hfind _ =>
    -- a second set-up would need the address of the configuration to be free
    exact absurd hnew (hw.ne_none_of_find hc hfind)
  | submitted _ _ _ hold =>
    rcases hold with rfl | ⟨d, rfl⟩
    · exact (hsetting.elim hnone (hclaim _)).elim
    · exact (hsetting.elim (hclaim _) (hclaim _)).elim
  | sent => exact (hsetting.elim (hclaim _) hnone).elim
  | backwardFee _ h _ => exact hadmin h
  | pointer _ h => exact hadmin h
  | accountList _ h _ => exact hadmin h
  | peer _ h _ _ => exact hadmin h
  | pause h => exact hadmin h
  | admin h => exact hadmin h

/-- Only a set-up and `set_delegate` name a delegate. -/
theorem delegated_of_execute (h : i.execute P env w = .ok (w', es))
    (hinit : ∀ ctx params, i ≠ .initProxy ctx params)
    (hdelegate : ∀ ctx params, i ≠ .setDelegate ctx params) : delegated es = [] := by
  rw [delegated, i.called_of_execute h]
  cases i with
  | initProxy ctx params => exact absurd rfl (hinit ctx params)
  | setDelegate ctx params => exact absurd rfl (hdelegate ctx params)
  | _ => rfl

/-- **Pausable instructions** succeed only while the proxy is not paused. -/
theorem unpaused_of_execute (hw : WellPlaced P w) (hc : w.data k = some (.proxyConfig c))
    (hi : i.Pausable) (h : i.execute P env w = .ok (w', es)) : c.paused = false := by
  have hloaded : ∀ {a : AccountInfo} {config : ProxyConfig}, loadConfig P w a = .ok config →
      config.paused = false → c.paused = false := by
    intro a config hload hunpaused
    obtain ⟨-, rfl⟩ := hw.config_unique (loadConfig_eq_ok.mp hload).1 hc
    exact hunpaused
  cases i with
  | sendRequest ctx params fee =>
    obtain ⟨receipt, happly⟩ := Instruction.execute_sendRequest h
    obtain ⟨_, _, _, hprep, -⟩ := SendRequest.of_apply_eq_ok happly
    obtain ⟨peer, fees, hprepared⟩ := SendRequest.prepare_eq_ok.mp hprep
    exact hloaded hprepared.config_loaded hprepared.unpaused
  | sendClaim ctx fee =>
    obtain ⟨receipt, happly⟩ := Instruction.execute_sendClaim h
    obtain ⟨_, _, _, _, _, _, hprep, -⟩ := SendClaim.of_apply_eq_ok happly
    obtain ⟨peer, fees, hprepared⟩ := SendClaim.of_prepare_eq_ok hprep
    exact hloaded hprepared.config_loaded hprepared.unpaused
  | quoteRequest ctx params =>
    simp only [Instruction.execute, Except.bind_eq_ok, Except.pure_eq_ok, Prod.mk.injEq] at h
    obtain ⟨⟨es₁, fee⟩, hquote, -⟩ := h
    obtain ⟨_, _, _, _, hprep, -⟩ := QuoteRequest.of_apply_eq_ok hquote
    obtain ⟨-, hconfig, hunpaused, -⟩ := QuoteRequest.prepare_eq_ok.mp hprep
    exact hloaded hconfig hunpaused
  | quoteClaim ctx =>
    simp only [Instruction.execute, Except.bind_eq_ok, Except.pure_eq_ok, Prod.mk.injEq] at h
    obtain ⟨⟨es₁, fee⟩, hquote, -⟩ := h
    obtain ⟨_, _, _, _, hprep, -⟩ := QuoteClaim.of_apply_eq_ok hquote
    obtain ⟨hconfig, hunpaused, -⟩ := QuoteClaim.of_prepare_eq_ok hprep
    exact hloaded hconfig hunpaused
  | submitProof ctx params =>
    obtain ⟨-, config, _, hconfig, hunpaused, -⟩ := SubmitProof.of_apply_eq_ok h
    exact hloaded hconfig hunpaused
  | lzReceive ctx params =>
    obtain ⟨tr⟩ := LzReceive.nonempty_trace h
    exact hloaded tr.accounts.config_loaded tr.unpaused
  | _ => exact hi.elim

end Step

/-! ### Steps -/

section Runs

variable {P : Platform} {s s' : ProxyState P} {i : Input} {is : List Input}
  {es : List ProxyEffect} {k : Pubkey} {c : ProxyConfig}

/-- Lamports leave the configuration account with a withdrawal only. -/
private theorem withdrawn_of_lt (hP : P.DeriveInjective) (hs : Configured k c s)
    (hpermitted : Permitted k s i) (h : step P s i = .ok (s', es))
    (hlt : s'.world.lamports k < s.world.lamports k) :
    ∃ env ctx params, i = .call env (.withdrawFee ctx params) := by
  have hstep := lamports_step hP hs hpermitted h
  have hwithdrawn : withdrawnIn k (s, i, es) ≠ 0 := by omega
  cases i with
  | outside lamports tokens mints => exact absurd rfl hwithdrawn
  | call env i =>
    cases i with
    | withdrawFee ctx params => exact ⟨env, ctx, params, rfl⟩
    | _ => exact absurd rfl hwithdrawn

/-- **Authority of one step.** -/
theorem stepAuthorised (hP : P.DeriveInjective) (hs : Configured k c s)
    (h : step P s i = .ok (s', es)) : StepAuthorised k s i es s' := by
  have hconfigured := hs
  obtain ⟨c', hc', -⟩ := hs
  cases i with
  | outside lamports tokens mints =>
    obtain ⟨rfl, rfl⟩ := Prod.mk.inj (Except.ok.inj h)
    refine ⟨fun hchange => ?_, fun c₁ c₂ h₁ h₂ hne => ?_⟩
    · cases hchange with
      | account k' hne _ => exact absurd rfl hne
      | delegate hne => exact absurd rfl hne
      | lamports hpermitted hlt => exact absurd hpermitted (Nat.not_le.mpr hlt)
    · obtain ⟨-, heq⟩ := s.placed.config_unique h₂ h₁
      exact absurd (congrArg ProxyConfig.admin heq) hne
  | call env i =>
    have hexec := step_call_eq_ok.mp h
    refine ⟨fun hchange => ⟨c', hc', ?_⟩, fun c₁ c₂ h₁ h₂ hne => ?_⟩
    · have hadmin : ∀ {config : ProxyConfig}, i.ByAdmin P s.world config → i.SignedBy c'.admin := by
        intro config hadmin
        rw [← hadmin.config_eq s.placed hc']
        exact hadmin.signedBy
      -- an account, the delegate or the lamports: each has its own instructions
      cases hchange with
      | account k' hne hsetting =>
        exact (i.accountChange hexec k').signedBy s.placed hc' hne hsetting
      | delegate hne =>
        by_cases hdelegate : ∃ ctx params, i = .setDelegate ctx params
        · obtain ⟨ctx, params, rfl⟩ := hdelegate
          obtain ⟨config, hconfig, -⟩ := SetDelegate.of_apply_eq_ok hexec
          exact hadmin ⟨_, rfl, hconfig⟩
        · refine absurd (delegated_of_execute hexec (hconfigured.not_initProxy hexec) ?_) hne
          intro ctx params heq
          exact hdelegate ⟨ctx, params, heq⟩
      | lamports hpermitted hlt =>
        obtain ⟨_, ctx, params, hi⟩ := withdrawn_of_lt hP hconfigured hpermitted h hlt
        obtain ⟨-, rfl⟩ := Input.call.inj hi
        obtain ⟨config, hconfig, -⟩ := WithdrawFee.of_apply_eq_ok hexec
        exact hadmin ⟨_, rfl, hconfig⟩
    · have hchange := i.accountChange hexec k
      rw [h₁] at hchange
      obtain ⟨c₃, h₃, hconfig⟩ := hchange.configChange
      obtain ⟨-, rfl⟩ := s'.placed.config_unique h₂ h₃
      cases hconfig with
      | same => exact absurd rfl hne
      | pause hadmin => exact absurd rfl hne
      | admin hadmin => exact ⟨hadmin.signedBy, env, _, _, rfl, rfl⟩

/-- **Pause, one instruction.** What a pause stops fails while it lasts. -/
theorem fails_of_paused (hs : Paused k s) {env : Env} {i : Instruction} (hi : i.Pausable) :
    ∃ e, step P s (.call env i) = .error e := by
  obtain ⟨c, hc, hpaused⟩ := hs
  cases h : step P s (.call env i) with
  | error e => exact ⟨e, rfl⟩
  | ok r =>
    have hunpaused := unpaused_of_execute s.placed hc hi (step_call_eq_ok.mp h)
    rw [hpaused] at hunpaused
    cases hunpaused

/-- A step of a paused proxy is quiet, and it leaves the pause unless it ends it. -/
theorem quiet_of_paused (hs : Paused k s) (h : step P s i = .ok (s', es)) :
    Quiet s i es s' ∧ (¬i.Unpauses → Paused k s') := by
  have hpaused := hs
  obtain ⟨c, hc, hp⟩ := hs
  have hconfigured : Configured k c s := ⟨c, hc, .refl c⟩
  cases i with
  | outside lamports tokens mints =>
    obtain ⟨rfl, rfl⟩ := Prod.mk.inj (Except.ok.inj h)
    refine ⟨⟨rfl, .of_data_eq rfl, ?_⟩, fun _ => ⟨c, hc, hp⟩⟩
    intro env i hi
    cases hi
  | call env i =>
    have hexec := step_call_eq_ok.mp h
    -- the step succeeded, so it is none of those that the pause stops
    have hrunning : ¬i.Pausable := by
      intro hi
      obtain ⟨e, herror⟩ : ∃ e, step P s (.call env i) = .error e := fails_of_paused hpaused hi
      rw [h] at herror
      cases herror
    refine ⟨⟨?_, ?_, ?_⟩, fun hunpauses => ?_⟩
    · rcases sent_of_execute hexec with hnone | ⟨_, _, _, _, rfl, -⟩ | ⟨_, _, _, _, rfl, -⟩
      · exact hnone
      · exact absurd trivial hrunning
      · exact absurd trivial hrunning
    · intro k'
      refine (i.accountChange hexec k').claim_eq ?_ ?_
      · rintro ctx params rfl
        exact hrunning trivial
      · rintro ctx fee rfl
        exact hrunning trivial
    · intro _ _ _
      refine i.tokens_of_execute hexec (hconfigured.not_initProxy hexec) ?_
      rintro ctx params rfl
      exact hrunning trivial
    · have hchange := i.accountChange hexec k
      rw [hc] at hchange
      obtain ⟨c', hc', hconfig⟩ := hchange.configChange
      refine ⟨c', hc', ?_⟩
      cases hconfig with
      | same => exact hp
      | pause hadmin => exact Bool.eq_true_of_not_eq_false hunpauses
      | admin hadmin => exact hp

/-- **Pause.** It holds from every paused state on. -/
theorem Paused.holds (hs : Paused k s) : PauseHolds k s where
  fails env i hi := fails_of_paused hs hi
  lasts js hjs := by
    have hstep : ∀ t ∈ transitions (step P) s js, ∀ s', Paused k t.1 →
        step P t.1 t.2.1 = .ok (s', t.2.2) → Paused k s' := by
      intro t ht s' hpaused h
      exact (quiet_of_paused hpaused h).2 (hjs _ (mem_history_of_mem_transitions ht))
    refine ⟨run_invariant_of_transitions hstep hs, fun t ht => ?_⟩
    obtain ⟨_, _, s', -, -, h⟩ := exists_of_mem_transitions ht
    rw [next_of_ok h]
    exact (quiet_of_paused (of_mem_transitions hstep hs ht) h).1

/-- Somebody else than `a` is the admin. -/
def Replaced {P : Platform} (k a : Pubkey) (s : ProxyState P) : Prop :=
  ∃ c, s.world.data k = some (.proxyConfig c) ∧ c.admin ≠ a

/-- A replaced admin stays replaced unless a step appoints it again. -/
theorem Replaced.step {a : Pubkey} (hs : Replaced k a s) (h : Proxy.step P s i = .ok (s', es))
    (happoints : ¬i.Appoints a) : Replaced k a s' := by
  obtain ⟨c, hc, hne⟩ := hs
  cases i with
  | outside lamports tokens mints =>
    obtain ⟨rfl, rfl⟩ := Prod.mk.inj (Except.ok.inj h)
    exact ⟨c, hc, hne⟩
  | call env i =>
    have hchange := i.accountChange (step_call_eq_ok.mp h) k
    rw [hc] at hchange
    obtain ⟨c', hc', hconfig⟩ := hchange.configChange
    refine ⟨c', hc', ?_⟩
    cases hconfig with
    | same => exact hne
    | pause hadmin => exact hne
    | admin hadmin => exact happoints

/-- **Authority and pause.** In every run from a successful set-up:

* a step changes what is set only with the signature of the stored admin, and the admin only by
  handing over;
* an admin that was replaced changes nothing by its own signature until it is appointed again;
* the setup is that of the set-up;
* while the proxy is paused, what the pause stops fails, until the admin ends the pause. -/
theorem authority_and_pause (hP : P.DeriveInjective) {s₀ : ProxyState P} {env₀ : Env}
    {ctx : InitProxy} {params : InitProxyParams} {es₀ : List ProxyEffect}
    (hinit : step P s₀ (.call env₀ (.initProxy ctx params)) = .ok (s, es₀)) (is : List Input) :
    (∀ t ∈ transitions (step P) s is,
      StepAuthorised ctx.proxyConfig.pubkey t.1 t.2.1 t.2.2 (next (step P) t.1 t.2.1)) ∧
    (∀ (a : Pubkey) (js : List Input), Replaced ctx.proxyConfig.pubkey a (run (step P) s is) →
      (∀ e ∈ history (step P) (run (step P) s is) js, ¬e.1.Appoints a) →
      ∀ t ∈ transitions (step P) (run (step P) s is) js, (∀ u, t.2.1.SignedBy u → u = a) →
        ¬ChangesSetting ctx.proxyConfig.pubkey t.1 t.2.1 t.2.2 (next (step P) t.1 t.2.1)) ∧
    (∃ bump, P.findProgramAddress proxyConfigSeeds = some (ctx.proxyConfig.pubkey, bump) ∧
      Configured ctx.proxyConfig.pubkey (params.config bump) (run (step P) s is)) ∧
    (Paused ctx.proxyConfig.pubkey (run (step P) s is) →
      PauseHolds ctx.proxyConfig.pubkey (run (step P) s is)) := by
  obtain ⟨bump, hfind, hdata⟩ := configured_of_init hinit
  have hconfigured : Configured ctx.proxyConfig.pubkey (params.config bump) s := ⟨_, hdata, .refl _⟩
  have hrun : Configured ctx.proxyConfig.pubkey (params.config bump) (run (step P) s is) :=
    run_invariant (fun s i s' es hs h => hs.step h) hconfigured is
  have hauthorised : ∀ {s₁ : ProxyState P} {js : List Input},
      Configured ctx.proxyConfig.pubkey (params.config bump) s₁ →
      ∀ t ∈ transitions (step P) s₁ js,
        StepAuthorised ctx.proxyConfig.pubkey t.1 t.2.1 t.2.2 (next (step P) t.1 t.2.1) := by
    intro s₁ js hs₁ t ht
    have hs := of_mem_transitions (fun t _ s' hs h => hs.step h) hs₁ ht
    obtain ⟨_, _, s', -, -, h⟩ := exists_of_mem_transitions ht
    rw [next_of_ok h]
    exact stepAuthorised hP hs h
  refine ⟨hauthorised hconfigured, fun a js hreplaced hjs t ht hsigners hchange => ?_,
    ⟨bump, hfind, hrun⟩, Paused.holds⟩
  obtain ⟨c, hc, hsigned⟩ := (hauthorised hrun t ht).setting hchange
  obtain ⟨c', hc', hne⟩ : Replaced ctx.proxyConfig.pubkey a t.1 := by
    refine of_mem_transitions (fun t ht s' hs h => ?_) hreplaced ht
    exact hs.step h (hjs _ (mem_history_of_mem_transitions ht))
  obtain ⟨-, rfl⟩ := t.1.placed.config_unique hc hc'
  exact hne (hsigners _ hsigned)

end Runs

/-- The admin of the sample pauses and hands over to the user. -/
def sampleHandover : List Input :=
  [.call sampleEnv (.setPause ⟨sampleSigner sampleAdmin, sampleWritable (sampleKey 1)⟩ ⟨true⟩),
    .call sampleEnv (.transferAdmin ⟨sampleSigner sampleAdmin, sampleWritable (sampleKey 1),
      ⟨zero32, false, false⟩⟩ ⟨sampleUser⟩)]

/-- Afterwards the sample is paused, and the old admin cannot change that. -/
theorem authority_and_pause_sample :
    ∃ s es, step samplePlatform sampleFresh (.call sampleEnv (.initProxy sampleInit
        sampleInitParams)) = .ok (s, es) ∧
      PauseHolds (sampleKey 1) (run (step samplePlatform) s sampleHandover) ∧
      ∀ i es' s', step samplePlatform (run (step samplePlatform) s sampleHandover) i =
        .ok (s', es') → ¬i.Appoints sampleAdmin → (∀ u, i.SignedBy u → u = sampleAdmin) →
          ¬ChangesSetting (sampleKey 1) (run (step samplePlatform) s sampleHandover) i es' s' := by
  have hok : (step samplePlatform sampleFresh (.call sampleEnv (.initProxy sampleInit
      sampleInitParams))).map (fun r => ((run (step samplePlatform) r.1 sampleHandover).world.load
        ProxyConfig.kind (sampleKey 1)).map fun c => (c.paused, c.admin)) =
      .ok (some (true, sampleUser)) := by
    decide +kernel
  obtain ⟨⟨s, es⟩, hinit, hconfig⟩ := Except.map_eq_ok.mp hok
  obtain ⟨c, hload, hc⟩ := Option.map_eq_some_iff.mp hconfig
  obtain ⟨hpaused, hadmin⟩ := Prod.mk.inj hc
  have hdata := World.load_eq_some.mp hload
  obtain ⟨-, hreplaced, -, hpause⟩ := authority_and_pause samplePlatform_injective hinit
    sampleHandover
  refine ⟨s, es, hinit, hpause ⟨c, hdata, hpaused⟩, fun i es' s' h happoints hsigners => ?_⟩
  have hother : Replaced (sampleKey 1) sampleAdmin
      (run (step samplePlatform) s sampleHandover) := by
    refine ⟨c, hdata, ?_⟩
    rw [hadmin]
    decide
  have happoints' : ∀ e ∈ history (step samplePlatform) (run (step samplePlatform) s
      sampleHandover) [i], ¬e.1.Appoints sampleAdmin := by
    intro e he
    rwa [List.mem_singleton.mp (mem_of_mem_history he)]
  have hmem : (run (step samplePlatform) s sampleHandover, i, es') ∈
      transitions (step samplePlatform) (run (step samplePlatform) s sampleHandover) [i] := by
    rw [transitions_cons_of_ok h]
    exact List.mem_cons_self
  have hone := hreplaced sampleAdmin [i] hother happoints' _ hmem hsigners
  rwa [next_of_ok h] at hone

end Proxy
