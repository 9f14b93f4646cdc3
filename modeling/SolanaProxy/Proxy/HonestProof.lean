import SolanaProxy.Proxy.ClaimAuthenticity

/-!
# Honest proofs

A root is published for a tree of entitlements. `merkleProof` is the proof that a user entitled by
one of its leaves is given, and `honest_proof_stores_root` says what it is worth: submitted by
that user together with the amount of the leaf, it is accepted whenever anything is, and what is
stored is the published root. The root then stays with the claim: a user who has pending what was
submitted so has the published root pending (`root_of_claimOf`).
-/

namespace Proxy

open Solana Machine

variable {P : Platform} {T : Merkle.Tree (ByteArr 20 × ByteArr 32)}

/-- What the user at a leaf of a tree submits. -/
def honestParams (P : Platform) (distributionId : U32) (p : T.Position) : SubmitProofParams where
  distributionId := distributionId
  cumulativeAmount := p.data.2
  merkleProof := merkleProof P.keccak p

/-- The honest parameters of a user lead to the root of the tree. -/
theorem root_honestParams {user : Pubkey} {p : T.Position}
    (huser : p.data.1 = solanaToEvmAddress P.keccak user) (distributionId : U32) :
    (honestParams P distributionId p).root P user = merkleRoot P.keccak T := by
  rw [SubmitProofParams.root, honestParams, ← huser, processProof_merkleProof]

/-- **Honest proofs.** The leaves of a tree are its positions. For every tree and every position,
folding the proof for the position from its leaf leads to the root of the tree. A user whose
address is at the position and who submits this proof with the amount of the leaf gets through
whenever any submission with these accounts does, and then the claim of the user holds the root
of the tree and the amount. -/
theorem honest_proof_stores_root (P : Platform) (T : Merkle.Tree (ByteArr 20 × ByteArr 32)) :
    (∀ e, e ∈ T.leaves ↔ ∃ p : T.Position, p.data = e) ∧
    ∀ p : T.Position,
      processProof P.keccak (merkleProof P.keccak p)
        (calculateLeaf P.keccak p.data.1 p.data.2) = merkleRoot P.keccak T ∧
      ∀ (w : ProxyWorld) (ctx : SubmitProof) (distributionId : U32),
        p.data.1 = solanaToEvmAddress P.keccak ctx.user.pubkey →
        (∀ params w₁ es₁, ctx.apply P w params = .ok (w₁, es₁) →
          ∃ w' es, ctx.apply P w (honestParams P distributionId p) = .ok (w', es)) ∧
        ∀ w' es, ctx.apply P w (honestParams P distributionId p) = .ok (w', es) →
          ∃ claim, w'.load ClaimData.kind ctx.claimData.pubkey = some claim ∧
            claimOf P w' ctx.user.pubkey = some claim ∧ claim.root = merkleRoot P.keccak T ∧
            claim.amount = p.data.2 ∧ claim.user = ctx.user.pubkey ∧
            es = [.event (.claimProofSubmitted ctx.user.pubkey distributionId p.data.2
              (merkleRoot P.keccak T))] := by
  refine ⟨fun e => Merkle.Tree.mem_leaves_iff, fun p => ⟨processProof_merkleProof p, ?_⟩⟩
  intro w ctx distributionId huser
  have hroot := root_honestParams huser distributionId
  refine ⟨fun params w₁ es₁ h => SubmitProof.exists_apply_of_apply h, fun w' es h => ?_⟩
  obtain ⟨-, config, bump, -, -, hfind, -, hdata, hes⟩ := SubmitProof.of_apply_eq_ok h
  have hload : w'.load ClaimData.kind ctx.claimData.pubkey =
      some ((honestParams P distributionId p).claimData P ctx.user.pubkey bump) := by
    rw [World.load_eq_some, hdata, Function.update_self]
    rfl
  refine ⟨_, hload, (claimOf_of_find hfind).trans hload, hroot, rfl, rfl, ?_⟩
  rw [hes, hroot]
  rfl

/-- **Over runs.** A user whose last submission was honest, and not sent since, has the root of
the tree pending. -/
theorem root_of_claimOf (hP : P.DeriveInjective) {s₀ : ProxyState P} (h₀ : s₀.Fresh)
    (is : List Input) {user : Pubkey} {p : T.Position} {distributionId : U32}
    (huser : p.data.1 = solanaToEvmAddress P.keccak user)
    (hread : Register.read (claimWrite user) (history (step P) s₀ is) =
      some (honestParams P distributionId p))
    {claim : ClaimData} (hclaim : claimOf P (run (step P) s₀ is).world user = some claim) :
    claim.root = merkleRoot P.keccak T := by
  rw [claimOf_run hP h₀, hread, Option.bind_some] at hclaim
  obtain ⟨a, -, rfl⟩ := Option.map_eq_some_iff.mp hclaim
  exact root_honestParams huser distributionId

/-! ### A submitted proof -/

/-- Three entitlements, the second of which is the sample user's. -/
def sampleTree : Merkle.Tree (ByteArr 20 × ByteArr 32) :=
  .node (.leaf (List.Vector.replicate 20 1, sampleKey 70))
    (.node (.leaf (solanaToEvmAddress sampleHash sampleUser, sampleKey 71))
      (.leaf (List.Vector.replicate 20 3, sampleKey 72)))

/-- The leaf of the sample user. -/
def samplePosition : sampleTree.Position := .right _ (.left _ (.here _))

/-- The sample user submits the proof for the second leaf, and the root is stored. -/
theorem honest_proof_stores_root_sample :
    ∃ w' es claim,
      SubmitProof.apply samplePlatform sampleDeployed.world ⟨sampleSigner sampleUser,
          ⟨sampleKey 1, false, false⟩, sampleWritable (sampleKey 6), ⟨zero32, false, false⟩⟩
        (honestParams samplePlatform 7#32 samplePosition) = .ok (w', es) ∧
      claimOf samplePlatform w' sampleUser = some claim ∧
      claim.root = merkleRoot samplePlatform.keccak sampleTree ∧ claim.amount = sampleKey 71 := by
  obtain ⟨⟨w₁, es₁⟩, hany⟩ := Except.exists_of_isOk (x := SubmitProof.apply samplePlatform
    sampleDeployed.world ⟨sampleSigner sampleUser, ⟨sampleKey 1, false, false⟩,
      sampleWritable (sampleKey 6), ⟨zero32, false, false⟩⟩ sampleParams) (by decide +kernel)
  obtain ⟨-, hposition⟩ := honest_proof_stores_root samplePlatform sampleTree
  obtain ⟨-, hsubmit⟩ := hposition samplePosition
  obtain ⟨hgoes, hstores⟩ := hsubmit sampleDeployed.world ⟨sampleSigner sampleUser,
    ⟨sampleKey 1, false, false⟩, sampleWritable (sampleKey 6), ⟨zero32, false, false⟩⟩ 7#32 rfl
  obtain ⟨w', es, happly⟩ := hgoes sampleParams w₁ es₁ hany
  obtain ⟨claim, -, hclaim, hroot, hamount, -⟩ := hstores w' es happly
  exact ⟨w', es, claim, happly, hclaim, hroot, hamount⟩

end Proxy
