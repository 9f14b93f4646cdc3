import SolanaProxy.General.Mailbox
import SolanaProxy.Solana.Token

/-!
# The messaging endpoint

The endpoint is a program of its own and is modelled by its answers: an `Endpoint` says
what each call returns and which lamports it moves. It writes no account of the calling
program and no token account. An `Env` is the outside of one instruction: the endpoint's
answers at that moment, the clock, the epoch and the multisig accounts.

What an instruction does beyond its own accounts is recorded as a list of `Effect`s in
order, so that a run has a list of everything that was handed to the endpoint, paid or
transferred.

What the endpoint knows of the messages to deliver is an `Inbox`: the hash of the payload of every
message that it has verified, until the message is cleared. `Endpoint.withInbox` is an endpoint
that clears a message only when the stored hash is that of the message.
-/

namespace Solana

/-- A messaging fee. -/
structure MessagingFee where
  nativeFee : U64
  lzTokenFee : U64
deriving DecidableEq

/-- What the endpoint returns for a message it has sent. -/
structure MessagingReceipt where
  guid : ByteArr 32
  nonce : U64
  fee : MessagingFee
deriving DecidableEq

/-- What an endpoint gives a message that it takes. -/
structure Stamp where
  nonce : U64
  guid : ByteArr 32

/-- The parameters of the endpoint's `send`. -/
structure SendParams where
  dstEid : U32
  receiver : ByteArr 32
  message : Bytes
  options : Bytes
  nativeFee : U64
  lzTokenFee : U64
deriving DecidableEq

/-- The parameters of the endpoint's `quote`. -/
structure QuoteParams where
  sender : Pubkey
  dstEid : U32
  receiver : ByteArr 32
  message : Bytes
  payInLzToken : Bool
  options : Bytes
deriving DecidableEq

/-- The parameters of the endpoint's `clear`. -/
structure ClearParams where
  receiver : Pubkey
  srcEid : U32
  sender : ByteArr 32
  nonce : U64
  guid : ByteArr 32
  message : Bytes
deriving DecidableEq

/-- The parameters of the endpoint's `send_compose`. -/
structure SendComposeParams where
  toAddress : Pubkey
  guid : ByteArr 32
  index : U16
  message : Bytes
deriving DecidableEq

/-- The parameters of a delivery, `LzReceiveParams` of both programs. -/
structure LzReceiveParams where
  srcEid : U32
  sender : ByteArr 32
  nonce : U64
  guid : ByteArr 32
  message : Bytes
  extraData : Bytes
deriving DecidableEq

/-- The calls to the endpoint whose result is not used. -/
inductive EndpointCall where
  | registerOapp (delegate : Pubkey)
  | setDelegate (delegate : Pubkey)
  | clear (params : ClearParams)
  | sendCompose (params : SendComposeParams)
deriving DecidableEq

namespace EndpointCall

/-- The delegate a call names, if it does. -/
def delegate? : EndpointCall → Option Pubkey
  | registerOapp delegate => some delegate
  | setDelegate delegate => some delegate
  | _ => none

/-- The message a call clears, if it does. -/
def cleared? : EndpointCall → Option ClearParams
  | clear params => some params
  | _ => none

end EndpointCall

/-- The endpoint's answers: to a quote, to a message, and to the other calls. Each call
names the endpoint program and passes accounts; a call that changes something also names
the calling account and sees and returns the lamport table. -/
structure Endpoint where
  quote : Pubkey → List AccountInfo → QuoteParams → Option MessagingFee
  send : Pubkey → Pubkey → List AccountInfo → SendParams → (Pubkey → ℕ) →
    Option (MessagingReceipt × (Pubkey → ℕ))
  call : Pubkey → Pubkey → List AccountInfo → EndpointCall → (Pubkey → ℕ) →
    Option (Pubkey → ℕ)

/-- The endpoint takes no lamports from the account at `k`. -/
structure Endpoint.NoDebit (e : Endpoint) (k : Pubkey) : Prop where
  send : ∀ program sender accounts params lamports receipt lamports',
    e.send program sender accounts params lamports = some (receipt, lamports') →
      lamports k ≤ lamports' k
  call : ∀ program sender accounts call lamports lamports',
    e.call program sender accounts call lamports = some lamports' → lamports k ≤ lamports' k

/-- The outside of one instruction, with the accounts that sign for a multisig account alone. -/
structure Env where
  endpoint : Endpoint
  unixTimestamp : ℤ
  epoch : ℕ
  multisigSigner : Pubkey → Pubkey → Bool

/-- What an instruction does beyond the accounts of its own program, with events in `Ev`. -/
inductive Effect (Ev : Type) where
  | endpointQuote (program : Pubkey) (accounts : List AccountInfo) (params : QuoteParams)
  | endpointSend (program sender : Pubkey) (accounts : List AccountInfo) (params : SendParams)
  | endpointCall (program sender : Pubkey) (accounts : List AccountInfo) (call : EndpointCall)
  | transferLamports (src dst : Pubkey) (lamports : U64)
  | transferTokens (src dst authority : Pubkey) (amount : U64)
  | mintTokens (mint dst : Pubkey) (amount : U64)
  | burnTokens (mint src authority : Pubkey) (amount : U64)
  | event (e : Ev)
deriving DecidableEq

namespace Effect

variable {Ev : Type}

/-- The parameters of the message an effect hands to the endpoint, if it is one. -/
def sent? : Effect Ev → Option SendParams
  | endpointSend _ _ _ params => some params
  | _ => none

/-- The call to the endpoint whose result is not used an effect is, if it is one. -/
def called? : Effect Ev → Option EndpointCall
  | endpointCall _ _ _ call => some call
  | _ => none

/-- The accounts and the amount of the token transfer an effect is, if it is one. -/
def transferred? : Effect Ev → Option (Pubkey × Pubkey × ℕ)
  | transferTokens src dst _ amount => some (src, dst, amount.toNat)
  | _ => none

/-- The mint, the account and the amount an effect mints, if it does. -/
def minted? : Effect Ev → Option (Pubkey × Pubkey × ℕ)
  | mintTokens mint dst amount => some (mint, dst, amount.toNat)
  | _ => none

/-- The lamports an effect moves from one account to another. -/
def lamportsPaid (src dst : Pubkey) : Effect Ev → ℕ
  | transferLamports src' dst' n => if src' = src ∧ dst' = dst then n.toNat else 0
  | _ => 0

/-- The effect is a quote, a message, a payment of lamports or an event. -/
def Routine : Effect Ev → Prop
  | endpointQuote .. | endpointSend .. | transferLamports .. | event .. => True
  | _ => False

/-- Routine effects call nothing else and move no tokens. -/
theorem Routine.none {e : Effect Ev} (h : e.Routine) :
    e.called? = Option.none ∧ e.transferred? = Option.none := by
  cases e with
  | endpointQuote | endpointSend | transferLamports | event => exact ⟨rfl, rfl⟩
  | endpointCall | transferTokens | mintTokens | burnTokens => exact h.elim

end Effect

section Cpi

variable {D E : Type}

/-- `endpoint_cpi::quote`. -/
def endpointQuote (env : Env) (program : Pubkey) (accounts : List AccountInfo)
    (params : QuoteParams) : Result E MessagingFee :=
  Except.ofOption .cpi (env.endpoint.quote program accounts params)

/-- `endpoint_cpi::send`. -/
def endpointSend (env : Env) (w : World D) (program sender : Pubkey)
    (accounts : List AccountInfo) (params : SendParams) :
    Result E (World D × MessagingReceipt) := do
  let (receipt, lamports) ← Except.ofOption .cpi
    (env.endpoint.send program sender accounts params w.lamports)
  return ({ w with lamports := lamports }, receipt)

/-- The other functions of `endpoint_cpi`. -/
def endpointCall (env : Env) (w : World D) (program sender : Pubkey)
    (accounts : List AccountInfo) (call : EndpointCall) : Result E (World D) := do
  let lamports ← Except.ofOption .cpi
    (env.endpoint.call program sender accounts call w.lamports)
  return { w with lamports := lamports }

/-- `system_instruction::transfer`, invoked with both accounts. -/
def systemTransfer (w : World D) (src dst : Pubkey) (n : U64) : Result E (World D) :=
  Except.ofOption .cpi (w.transferLamports src dst n.toNat)

variable {env : Env} {w w' : World D} {program sender : Pubkey} {accounts : List AccountInfo}

theorem endpointQuote_eq_ok {params : QuoteParams} {fee : MessagingFee} :
    endpointQuote (E := E) env program accounts params = .ok fee ↔
      env.endpoint.quote program accounts params = some fee := by
  rw [endpointQuote, Except.ofOption_eq_ok]

theorem endpointSend_eq_ok {params : SendParams} {receipt : MessagingReceipt} :
    endpointSend (E := E) env w program sender accounts params = .ok (w', receipt) ↔
      ∃ lamports, env.endpoint.send program sender accounts params w.lamports =
        some (receipt, lamports) ∧ w' = { w with lamports := lamports } := by
  simp only [endpointSend, Except.bind_eq_ok, Except.ofOption_eq_ok, Except.pure_eq_ok,
    Prod.mk.injEq]
  constructor
  · rintro ⟨⟨receipt', lamports⟩, hsend, rfl, rfl⟩
    exact ⟨lamports, hsend, rfl⟩
  · rintro ⟨lamports, hsend, rfl⟩
    exact ⟨(receipt, lamports), hsend, rfl, rfl⟩

/-- The endpoint fails with no error of the program that calls it. -/
theorem endpointQuote_ne_program {params : QuoteParams} {e : E} :
    endpointQuote env program accounts params ≠ .error (.program e) := by
  simp only [endpointQuote, ne_eq, Except.ofOption_eq_error, reduceCtorEq, and_false,
    not_false_eq_true]

theorem endpointSend_ne_program {params : SendParams} {e : E} :
    endpointSend env w program sender accounts params ≠ .error (.program e) := by
  simp only [endpointSend, ne_eq, Except.bind_eq_error, Except.ofOption_eq_error,
    Except.pure_ne_error, reduceCtorEq, and_false, or_self, exists_false, not_false_eq_true]

theorem endpointCall_eq_ok {call : EndpointCall} :
    endpointCall (E := E) env w program sender accounts call = .ok w' ↔
      ∃ lamports, env.endpoint.call program sender accounts call w.lamports = some lamports ∧
        w' = { w with lamports := lamports } := by
  simp only [endpointCall, Except.bind_eq_ok, Except.ofOption_eq_ok, Except.pure_eq_ok]
  exact exists_congr fun _ => and_congr_right fun _ => eq_comm

/-- The endpoint does not read the accounts of the program. -/
theorem endpointCall_withData {call : EndpointCall}
    (h : endpointCall (E := E) env w program sender accounts call = .ok w')
    (data : Pubkey → Option D) :
    endpointCall (E := E) env (w.withData data) program sender accounts call =
      .ok (w'.withData data) := by
  obtain ⟨lamports, hcall, rfl⟩ := endpointCall_eq_ok.mp h
  exact endpointCall_eq_ok.mpr ⟨lamports, hcall, rfl⟩

theorem systemTransfer_eq_ok {src dst : Pubkey} {n : U64} :
    systemTransfer (E := E) w src dst n = .ok w' ↔
      w.transferLamports src dst n.toNat = some w' := by
  rw [systemTransfer, Except.ofOption_eq_ok]

end Cpi

/-! ### Stored payloads -/

/-- Where the endpoint stores the payload hash of a message. -/
structure PayloadSlot where
  receiver : Pubkey
  srcEid : U32
  sender : ByteArr 32
  nonce : U64
deriving DecidableEq

namespace ClearParams

/-- The slot a message is cleared from. -/
def slot (params : ClearParams) : PayloadSlot :=
  ⟨params.receiver, params.srcEid, params.sender, params.nonce⟩

/-- The payload of a message: its identifier and its bytes. -/
def payload (params : ClearParams) : Bytes := params.guid.toList ++ params.message

/-- A message is known by its slot and its payload. -/
theorem eq_of_payload_eq {params params' : ClearParams} (hslot : params.slot = params'.slot)
    (hpayload : params.payload = params'.payload) : params = params' := by
  obtain ⟨receiver, srcEid, sender, nonce, guid, message⟩ := params
  obtain ⟨receiver', srcEid', sender', nonce', guid', message'⟩ := params'
  simp only [slot, PayloadSlot.mk.injEq] at hslot
  obtain ⟨rfl, rfl, rfl, rfl⟩ := hslot
  have hlength : guid.toList.length = guid'.toList.length := by
    rw [List.Vector.toList_length, List.Vector.toList_length]
  obtain ⟨hguid, rfl⟩ := List.append_inj hpayload hlength
  obtain rfl : guid = guid' := List.Vector.eq _ _ hguid
  rfl

end ClearParams

/-- The payload hashes of the messages to deliver. -/
abbrev Inbox := Mailbox PayloadSlot (ByteArr 32)

/-- The endpoint, but it clears a message only when its payload hash is stored. -/
def Endpoint.withInbox (P : Platform) (inbox : Inbox) (e : Endpoint) : Endpoint where
  quote := e.quote
  send := e.send
  call program sender accounts call lamports :=
    match call with
    | .clear params =>
      if inbox params.slot = .holds (P.keccak params.payload) then
        e.call program sender accounts call lamports
      else none
    | call => e.call program sender accounts call lamports

/-- **Clearing** takes the stored hash of the message. -/
theorem Endpoint.clear_withInbox_eq_some {P : Platform} {inbox : Inbox} {e : Endpoint}
    {program sender : Pubkey} {accounts : List AccountInfo} {params : ClearParams}
    {lamports lamports' : Pubkey → ℕ} :
    (e.withInbox P inbox).call program sender accounts (.clear params) lamports = some lamports' ↔
      inbox params.slot = .holds (P.keccak params.payload) ∧
        e.call program sender accounts (.clear params) lamports = some lamports' := by
  simp only [withInbox, Option.ite_none_right_eq_some]

/-! ### A sample endpoint

Keys, flags and an endpoint on which instructions can be played. -/

/-- The key with 32 equal bytes. -/
def sampleKey (b : Byte) : Pubkey := List.Vector.replicate 32 b

/-- An endpoint that quotes 1000 lamports for every message and sends what pays as much. -/
def sampleEndpoint : Endpoint where
  quote _ _ _ := some ⟨1000#64, 0#64⟩
  send _ _ _ params lamports :=
    if 1000#64 ≤ params.nativeFee then
      some (⟨zero32, 1#64, ⟨1000#64, 0#64⟩⟩, lamports)
    else none
  call _ _ _ _ lamports := some lamports

/-- A call at some time, with the sample endpoint and no multisignature. -/
def sampleEnv : Env := ⟨sampleEndpoint, 1700000000, 700, fun _ _ => false⟩

/-- An account passed as a paying signer. -/
def sampleSigner (k : Pubkey) : AccountInfo := ⟨k, true, true⟩

/-- An account passed to be written. -/
def sampleWritable (k : Pubkey) : AccountInfo := ⟨k, false, true⟩

end Solana
