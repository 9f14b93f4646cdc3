import SolanaProxy.General.Merkle
import SolanaProxy.Proxy.State

/-!
# The Merkle proof of a claim

The hashing of `send_claim.rs`: the leaf of an address and an amount, hashed twice, the
pair hash that sorts its two arguments, and the fold of a proof. The hash is a parameter.

`merkleRoot` is the root of a tree of entitlements under the same leaf and pair hashes, and
`processProof_sound` says that a proof that folds to it proves an entitlement of the tree or
exhibits two strings with one digest among those hashed on either side. It rests on the
library's `Merkle.PairHash.fold_sound`: leaf preimages have 32 bytes and pair preimages 64.

`merkleProof` is the proof that belongs to a leaf of a tree, and `processProof_merkleProof` says
that it folds to the root, by `Merkle.PairHash.fold_siblings`.
-/

namespace Proxy

open Solana

/-- Leading zeros up to 32 bytes. -/
def toBytes32 {n : ℕ} (bytes : ByteArr n) (h : n ≤ 32 := by decide) : ByteArr 32 :=
  ⟨List.replicate (32 - n) 0 ++ bytes.toList, by simp only [List.length_append,
    List.length_replicate, List.Vector.toList_length]; omega⟩

theorem toBytes32_injective {n : ℕ} (h : n ≤ 32) :
    Function.Injective fun bytes : ByteArr n => toBytes32 bytes h := by
  intro a b hab
  have hlist : List.replicate (32 - n) 0 ++ a.toList = List.replicate (32 - n) 0 ++ b.toList :=
    congrArg List.Vector.toList hab
  exact List.Vector.toList_injective (List.append_cancel_left hlist)

section Hash

variable (H : Bytes → ByteArr 32)

/-- The preimage of a leaf's first hash: the padded address and the amount. -/
def leafData (evmAddress : ByteArr 20) (cumulativeAmount : ByteArr 32) : Bytes :=
  (toBytes32 evmAddress).toList ++ cumulativeAmount.toList

/-- A leaf is hashed twice. -/
def calculateLeaf (evmAddress : ByteArr 20) (cumulativeAmount : ByteArr 32) : ByteArr 32 :=
  H (H (leafData evmAddress cumulativeAmount)).toList

/-- The last 20 bytes of the hash of a key. -/
def solanaToEvmAddress (solanaAddress : Pubkey) : ByteArr 20 :=
  ⟨(H solanaAddress.toList).toList.drop 12, by simp⟩

/-- The hash of a pair, in the order given. -/
def efficientHash (a b : ByteArr 32) : ByteArr 32 := H (a.toList ++ b.toList)

/-- Arrays compare as in the source, byte by byte from the left. -/
def hashPair (a b : ByteArr 32) : ByteArr 32 :=
  if a.toList < b.toList then efficientHash H a b else efficientHash H b a

/-- The leaf hashed with the proof's digests one by one. -/
def processProof (proof : List (ByteArr 32)) (leaf : ByteArr 32) : ByteArr 32 :=
  proof.foldl (hashPair H) leaf

/-! ### Trees of entitlements -/

/-- The root of a tree of addresses and amounts. -/
def merkleRoot : Merkle.Tree (ByteArr 20 × ByteArr 32) → ByteArr 32
  | .leaf (evmAddress, cumulativeAmount) => calculateLeaf H evmAddress cumulativeAmount
  | .node l r => hashPair H (merkleRoot l) (merkleRoot r)

/-- The proof for a leaf of a tree: the digests beside its way up to the root. -/
def merkleProof :
    {T : Merkle.Tree (ByteArr 20 × ByteArr 32)} → T.Position → List (ByteArr 32)
  | _, .here _ => []
  | _, .left r p => merkleProof p ++ [merkleRoot H r]
  | _, .right l p => merkleProof p ++ [merkleRoot H l]

/-- The string hashed for a pair. -/
def pairData (a b : ByteArr 32) : Bytes :=
  if a.toList < b.toList then a.toList ++ b.toList else b.toList ++ a.toList

/-- The two strings hashed for a leaf. -/
def hashedForLeaf (evmAddress : ByteArr 20) (cumulativeAmount : ByteArr 32) : List Bytes :=
  [leafData evmAddress cumulativeAmount, (H (leafData evmAddress cumulativeAmount)).toList]

/-- The strings hashed while building a tree. -/
def hashedInTree : Merkle.Tree (ByteArr 20 × ByteArr 32) → List Bytes
  | .leaf (evmAddress, cumulativeAmount) => hashedForLeaf H evmAddress cumulativeAmount
  | .node l r => pairData (merkleRoot H l) (merkleRoot H r) :: (hashedInTree l ++ hashedInTree r)

/-- The strings hashed while folding a proof. -/
def hashedInProof (leaf : ByteArr 32) : List (ByteArr 32) → List Bytes
  | [] => []
  | p :: ps => pairData leaf p :: hashedInProof (hashPair H leaf p) ps

end Hash

theorem pairData_comm (a b : ByteArr 32) : pairData a b = pairData b a := by
  simp only [pairData]
  split <;> split
  case isTrue.isTrue hab hba => exact absurd hba (List.lt_asymm hab)
  case isFalse.isFalse hab hba => rw [List.le_antisymm hab hba]
  all_goals rfl

theorem pairData_inj {a b c d : ByteArr 32} (h : pairData a b = pairData c d) :
    a = c ∧ b = d ∨ a = d ∧ b = c := by
  have hsplit : ∀ {x y z t : ByteArr 32}, x.toList ++ y.toList = z.toList ++ t.toList →
      x = z ∧ y = t := by
    intro x y z t hxy
    obtain ⟨hx, hy⟩ := List.append_inj hxy (by simp)
    exact ⟨List.Vector.toList_injective hx, List.Vector.toList_injective hy⟩
  simp only [pairData] at h
  split at h <;> split at h
  · exact Or.inl (hsplit h)
  · exact Or.inr (hsplit h)
  · exact Or.inr (hsplit h).symm
  · exact Or.inl (hsplit h).symm

theorem length_pairData (a b : ByteArr 32) : (pairData a b).length = 64 := by
  simp only [pairData]
  split <;> simp

theorem leafData_inj {a a' : ByteArr 20} {m m' : ByteArr 32} (h : leafData a m = leafData a' m') :
    a = a' ∧ m = m' := by
  obtain ⟨ha, hm⟩ := List.append_inj h (by simp)
  have hpad : toBytes32 a = toBytes32 a' := List.Vector.toList_injective ha
  exact ⟨toBytes32_injective (by decide) hpad, List.Vector.toList_injective hm⟩

/-! ### Soundness and completeness -/

/-- The pair hash of the source as an order-forgetting pair hash. -/
def pairHash (H : Bytes → ByteArr 32) : Merkle.PairHash Bytes (ByteArr 32) where
  hash := H
  pair := pairData
  pair_comm := pairData_comm
  pair_inj := pairData_inj

section Soundness

variable {H : Bytes → ByteArr 32}

theorem hashPair_eq_combine (a b : ByteArr 32) : hashPair H a b = (pairHash H).combine a b := by
  have hpair : (pairHash H).combine a b = H (pairData a b) := rfl
  rw [hpair, hashPair, pairData]
  split <;> rfl

/-- The message hashed last for a leaf: the digest of the leaf's data. -/
private def leafMsg (H : Bytes → ByteArr 32) (e : ByteArr 20 × ByteArr 32) : Bytes :=
  (H (leafData e.1 e.2)).toList

private theorem processProof_eq_fold (proof : List (ByteArr 32)) (leaf : ByteArr 32) :
    processProof H proof leaf = (pairHash H).fold leaf proof := by
  have hcombine : hashPair H = (pairHash H).combine := by
    funext a b
    exact hashPair_eq_combine a b
  rw [processProof, hcombine]
  rfl

private theorem merkleRoot_eq_root (T : Merkle.Tree (ByteArr 20 × ByteArr 32)) :
    merkleRoot H T = (pairHash H).root (leafMsg H) T := by
  induction T with
  | leaf e => rfl
  | node l r ihl ihr => rw [merkleRoot, hashPair_eq_combine, ihl, ihr, Merkle.PairHash.root]

private theorem merkleProof_eq_siblings {T : Merkle.Tree (ByteArr 20 × ByteArr 32)}
    (p : T.Position) : merkleProof H p = (pairHash H).siblings (leafMsg H) p := by
  induction p with
  | here e => rfl
  | left r p ih => rw [merkleProof, ih, merkleRoot_eq_root, Merkle.PairHash.siblings]
  | right l p ih => rw [merkleProof, ih, merkleRoot_eq_root, Merkle.PairHash.siblings]

/-- **Merkle completeness.** The proof for a leaf of a tree leads from the leaf to the root. -/
theorem processProof_merkleProof {T : Merkle.Tree (ByteArr 20 × ByteArr 32)} (p : T.Position) :
    processProof H (merkleProof H p) (calculateLeaf H p.data.1 p.data.2) = merkleRoot H T := by
  rw [processProof_eq_fold, merkleProof_eq_siblings, merkleRoot_eq_root]
  exact Merkle.PairHash.fold_siblings (leafMsg H) p

private theorem hashed_subset (T : Merkle.Tree (ByteArr 20 × ByteArr 32)) :
    (pairHash H).hashed (leafMsg H) T ⊆ hashedInTree H T := by
  induction T with
  | leaf e =>
    intro x hx
    obtain rfl := List.mem_singleton.mp hx
    exact List.mem_cons_of_mem _ (List.mem_singleton.mpr rfl)
  | node l r ihl ihr =>
    rw [Merkle.PairHash.hashed, hashedInTree, ← merkleRoot_eq_root, ← merkleRoot_eq_root]
    exact List.cons_subset_cons _ (List.append_subset.mpr
      ⟨fun x hx => List.mem_append_left _ (ihl hx),
        fun x hx => List.mem_append_right _ (ihr hx)⟩)

private theorem folded_eq (leaf : ByteArr 32) (proof : List (ByteArr 32)) :
    (pairHash H).folded leaf proof = hashedInProof H leaf proof := by
  induction proof generalizing leaf with
  | nil => rfl
  | cons p ps ih => rw [Merkle.PairHash.folded, hashedInProof, ih, hashPair_eq_combine]; rfl

/-- The data of a leaf of the tree was hashed while building the tree. -/
private theorem leafData_mem {T : Merkle.Tree (ByteArr 20 × ByteArr 32)}
    {e : ByteArr 20 × ByteArr 32} (he : e ∈ T.leaves) : leafData e.1 e.2 ∈ hashedInTree H T := by
  induction T with
  | leaf e' =>
    obtain rfl := List.mem_singleton.mp he
    exact List.mem_cons_self
  | node l r ihl ihr =>
    refine List.mem_cons_of_mem _ ?_
    rcases List.mem_append.mp he with he | he
    · exact List.mem_append_left _ (ihl he)
    · exact List.mem_append_right _ (ihr he)

/-- A proof that leads to the root of a tree proves an entitlement of the tree, or two of the
strings hashed on the way collide. -/
private theorem mem_leaves_or_collision {T : Merkle.Tree (ByteArr 20 × ByteArr 32)}
    {evmAddress : ByteArr 20} {cumulativeAmount : ByteArr 32} {proof : List (ByteArr 32)}
    (h : processProof H proof (calculateLeaf H evmAddress cumulativeAmount) = merkleRoot H T) :
    (evmAddress, cumulativeAmount) ∈ T.leaves ∨
      Merkle.Collision H (hashedForLeaf H evmAddress cumulativeAmount ++
        hashedInProof H (calculateLeaf H evmAddress cumulativeAmount) proof ++
        hashedInTree H T) := by
  have hlen : ∀ (d : ByteArr 32) x y, d.toList ≠ pairData x y := fun d x y heq => by
    have hd : d.toList.length = 64 := by rw [heq, length_pairData]
    rw [d.toList_length] at hd
    cases hd
  rw [processProof_eq_fold, merkleRoot_eq_root] at h
  have hsound := Merkle.PairHash.fold_sound (P := pairHash H) (leafMsg H) (fun _ => hlen _)
    (m := leafMsg H (evmAddress, cumulativeAmount)) (hlen _) T proof h
  rcases hsound with ⟨e, he, hmsg⟩ | hcol
  · -- the second hashes have one preimage, so the first ones agree
    have hdigest : H (leafData e.1 e.2) = H (leafData evmAddress cumulativeAmount) :=
      List.Vector.toList_injective hmsg
    rcases Merkle.eq_or_collision (l := hashedForLeaf H evmAddress cumulativeAmount ++
        hashedInProof H (calculateLeaf H evmAddress cumulativeAmount) proof ++ hashedInTree H T)
      (List.mem_append_right _ (leafData_mem he)) (by simp [hashedForLeaf]) hdigest
      with hdata | hcol
    · obtain ⟨haddr, hamount⟩ := leafData_inj hdata
      have hpair : e = (evmAddress, cumulativeAmount) := Prod.ext haddr hamount
      exact Or.inl (hpair ▸ he)
    · exact Or.inr hcol
  · refine Or.inr (hcol.mono (List.append_subset.mpr ⟨?_, fun x hx => ?_⟩))
    · rintro x (_ | ⟨_, hx⟩)
      · simp [hashedForLeaf, leafMsg]
      · rw [folded_eq] at hx
        exact List.mem_append_left _ (List.mem_append_right _ hx)
    · exact List.mem_append_right _ (hashed_subset T hx)

/-- **Merkle soundness.** A proof of any length that leads from the leaf of an address and an
amount to the root of a tree proves an entitlement of the tree, or two of the strings hashed
on the way collide. -/
theorem processProof_sound (T : Merkle.Tree (ByteArr 20 × ByteArr 32)) (evmAddress : ByteArr 20)
    (cumulativeAmount : ByteArr 32) (proof : List (ByteArr 32))
    (h : processProof H proof (calculateLeaf H evmAddress cumulativeAmount) = merkleRoot H T) :
    (evmAddress, cumulativeAmount) ∈ T.leaves ∨
      Merkle.Collision H (hashedForLeaf H evmAddress cumulativeAmount ++
        hashedInProof H (calculateLeaf H evmAddress cumulativeAmount) proof ++
        hashedInTree H T) :=
  mem_leaves_or_collision h

/-- What a proof proves where no two of the strings hashed on the way collide. -/
theorem mem_leaves_of_processProof {T : Merkle.Tree (ByteArr 20 × ByteArr 32)}
    {evmAddress : ByteArr 20} {cumulativeAmount : ByteArr 32} {proof : List (ByteArr 32)}
    (hcollision : ¬Merkle.Collision H (hashedForLeaf H evmAddress cumulativeAmount ++
      hashedInProof H (calculateLeaf H evmAddress cumulativeAmount) proof ++ hashedInTree H T))
    (h : processProof H proof (calculateLeaf H evmAddress cumulativeAmount) = merkleRoot H T) :
    (evmAddress, cumulativeAmount) ∈ T.leaves :=
  (mem_leaves_or_collision h).resolve_right hcollision

/-- A hash for examples: the number of the string, spread out and cut to 32 bytes. -/
def sampleHash (b : Bytes) : ByteArr 32 :=
  ⟨BigEndian.encode 32 (BigEndian.decode b * 1000003 + b.length), BigEndian.length_encode _ _⟩

/-- The honest proof of the left one of two entitlements. -/
theorem processProof_sound_two_leaves :
    let e₁ : ByteArr 20 × ByteArr 32 := (List.Vector.replicate 20 1, List.Vector.replicate 32 2)
    let e₂ : ByteArr 20 × ByteArr 32 := (List.Vector.replicate 20 3, List.Vector.replicate 32 4)
    let T : Merkle.Tree (ByteArr 20 × ByteArr 32) := .node (.leaf e₁) (.leaf e₂)
    let proof := [calculateLeaf sampleHash e₂.1 e₂.2]
    processProof sampleHash proof (calculateLeaf sampleHash e₁.1 e₁.2) = merkleRoot sampleHash T ∧
      (e₁ ∈ T.leaves ∨
        Merkle.Collision sampleHash (hashedForLeaf sampleHash e₁.1 e₁.2 ++
          hashedInProof sampleHash (calculateLeaf sampleHash e₁.1 e₁.2) proof ++
          hashedInTree sampleHash T)) := by
  intro e₁ e₂ T proof
  have hroot : processProof sampleHash proof (calculateLeaf sampleHash e₁.1 e₁.2) =
      merkleRoot sampleHash T := by
    simp only [T, proof, processProof, merkleRoot, List.foldl_cons, List.foldl_nil]
  exact ⟨hroot, processProof_sound T e₁.1 e₁.2 proof hroot⟩

end Soundness

end Proxy
