import Mathlib.Data.List.Induction
import Mathlib.Tactic.TypeStar

/-!
# Merkle trees with order-forgetting pair hashing

A `PairHash` hashes messages to digests and writes two digests as one message without
recording their order: `pair_comm` makes the two orders one message and `pair_inj` says
that nothing else is lost. `Tree.root` hashes a binary tree of any shape and `fold` is the
verifier's computation: start from a digest and combine it with the proof elements in turn.

`fold_sound` is the soundness theorem. Leaf messages are never pair messages (the two
kinds are told apart, for instance by their length); then a fold that starts from the hash
of such a message and ends in the root either started from a leaf message of the tree or
exhibits a collision among the messages hashed on the way. No assumption links the length
of the proof to the depth of the tree.

`fold_siblings` is completeness. A `Tree.Position` is the way down to one leaf, and the fold over
the siblings beside that way leads from the leaf to the root, on whichever side they stand.
-/

namespace Merkle

variable {M D α : Type*}

/-- Two different messages of the list with the same digest. -/
def Collision (H : M → D) (l : List M) : Prop := ∃ x ∈ l, ∃ y ∈ l, x ≠ y ∧ H x = H y

theorem Collision.mono {H : M → D} {l l' : List M} (hsub : l ⊆ l') (h : Collision H l) :
    Collision H l' := by
  obtain ⟨x, hx, y, hy, hne, heq⟩ := h
  exact ⟨x, hsub hx, y, hsub hy, hne, heq⟩

/-- Equal digests of two messages in the list: the messages agree or collide. -/
theorem eq_or_collision {H : M → D} {l : List M} {x y : M} (hx : x ∈ l) (hy : y ∈ l)
    (h : H x = H y) : x = y ∨ Collision H l := by
  by_cases hxy : x = y
  · exact Or.inl hxy
  · exact Or.inr ⟨x, hx, y, hy, hxy, h⟩

/-- A binary tree with data at its leaves. -/
inductive Tree (α : Type*) where
  | leaf (a : α)
  | node (l r : Tree α)

/-- The data at the leaves, left to right. -/
def Tree.leaves : Tree α → List α
  | .leaf a => [a]
  | .node l r => l.leaves ++ r.leaves

namespace Tree

/-- The leaves of a tree, each by the way down to it. -/
inductive Position : Tree α → Type _ where
  | here (a : α) : Position (.leaf a)
  | left {l : Tree α} (r : Tree α) (p : Position l) : Position (.node l r)
  | right (l : Tree α) {r : Tree α} (p : Position r) : Position (.node l r)

/-- The data at a position. -/
def Position.data : {T : Tree α} → T.Position → α
  | _, .here a => a
  | _, .left _ p => p.data
  | _, .right _ p => p.data

/-- The positions reach the leaves and nothing else. -/
theorem mem_leaves_iff {T : Tree α} {a : α} : a ∈ T.leaves ↔ ∃ p : T.Position, p.data = a := by
  constructor
  · intro h
    induction T with
    | leaf b =>
      obtain rfl := List.mem_singleton.mp h
      exact ⟨.here a, rfl⟩
    | node l r ihl ihr =>
      rcases List.mem_append.mp h with hl | hr
      · obtain ⟨p, hp⟩ := ihl hl
        exact ⟨.left r p, hp⟩
      · obtain ⟨p, hp⟩ := ihr hr
        exact ⟨.right l p, hp⟩
  · rintro ⟨p, rfl⟩
    induction p with
    | here a => exact List.mem_singleton.mpr rfl
    | left r p ih => exact List.mem_append_left _ ih
    | right l p ih => exact List.mem_append_right _ ih

end Tree

/-- A hash on messages and an order-forgetting way to write two digests as a message. -/
structure PairHash (M D : Type*) where
  hash : M → D
  pair : D → D → M
  pair_comm : ∀ a b, pair a b = pair b a
  pair_inj : ∀ {a b c d}, pair a b = pair c d → a = c ∧ b = d ∨ a = d ∧ b = c

namespace PairHash

variable (P : PairHash M D)

/-- The digest of an inner node. -/
def combine (a b : D) : D := P.hash (P.pair a b)

/-- The digest computed from `d` and a proof. -/
def fold (d : D) (proof : List D) : D := proof.foldl P.combine d

/-- The messages hashed while folding a proof. -/
def folded (d : D) : List D → List M
  | [] => []
  | p :: ps => P.pair d p :: folded (P.combine d p) ps

/-- The root of a tree whose leaf `a` is the message `leafMsg a`. -/
def root (leafMsg : α → M) : Tree α → D
  | .leaf a => P.hash (leafMsg a)
  | .node l r => P.combine (root leafMsg l) (root leafMsg r)

/-- The digests beside the way from a leaf up to the root. -/
def siblings (leafMsg : α → M) : {T : Tree α} → T.Position → List D
  | _, .here _ => []
  | _, .left r p => siblings leafMsg p ++ [P.root leafMsg r]
  | _, .right l p => siblings leafMsg p ++ [P.root leafMsg l]

/-- The messages hashed while building a tree. -/
def hashed (leafMsg : α → M) : Tree α → List M
  | .leaf a => [leafMsg a]
  | .node l r =>
    P.pair (P.root leafMsg l) (P.root leafMsg r) :: (hashed leafMsg l ++ hashed leafMsg r)

variable {P}

theorem fold_concat (d : D) (ps : List D) (p : D) :
    P.fold d (ps ++ [p]) = P.combine (P.fold d ps) p := by
  simp only [fold, List.foldl_append, List.foldl_cons, List.foldl_nil]

theorem folded_concat (d : D) (ps : List D) (p : D) :
    P.folded d (ps ++ [p]) = P.folded d ps ++ [P.pair (P.fold d ps) p] := by
  induction ps generalizing d with
  | nil => rfl
  | cons q ps ih => simp only [List.cons_append, folded, ih]; rfl

theorem combine_comm (a b : D) : P.combine a b = P.combine b a := by
  rw [combine, combine, P.pair_comm]

/-- **Completeness.** From any leaf the fold over its siblings leads to the root. -/
theorem fold_siblings (leafMsg : α → M) {T : Tree α} (p : T.Position) :
    P.fold (P.hash (leafMsg p.data)) (P.siblings leafMsg p) = P.root leafMsg T := by
  induction p with
  | here a => rfl
  | left r p ih =>
    rw [siblings, fold_concat, Tree.Position.data, ih, root]
  | right l p ih =>
    -- a sibling on the left is combined from the right
    rw [siblings, fold_concat, Tree.Position.data, ih, root, combine_comm]

/-- **Soundness.** A fold from the hash of a message that is no pair message ends in the
root of a tree only if the message is one of the tree's leaf messages, or two of the
messages hashed on the way collide. -/
theorem fold_sound (leafMsg : α → M) (hleaf : ∀ a x y, leafMsg a ≠ P.pair x y) {m : M}
    (hm : ∀ x y, m ≠ P.pair x y) (T : Tree α) (proof : List D)
    (h : P.fold (P.hash m) proof = P.root leafMsg T) :
    (∃ a ∈ T.leaves, leafMsg a = m) ∨
      Collision P.hash (m :: P.folded (P.hash m) proof ++ P.hashed leafMsg T) := by
  induction T generalizing proof with
  | leaf a =>
    induction proof using List.reverseRecOn with
    | nil =>
      -- both digests are leaf digests
      have hd : P.hash m = P.hash (leafMsg a) := h
      rcases eq_or_collision (l := m :: P.folded (P.hash m) [] ++ P.hashed leafMsg (.leaf a))
        (by simp) (by simp [hashed]) hd with heq | hcol
      · exact Or.inl ⟨a, List.mem_singleton.mpr rfl, heq.symm⟩
      · exact Or.inr hcol
    | append_singleton ps p _ =>
      -- the last fold step hashed a pair, the tree a leaf: the messages differ
      rw [fold_concat] at h
      refine Or.inr ⟨P.pair (P.fold (P.hash m) ps) p, ?_, leafMsg a, ?_,
        fun heq => hleaf a _ _ heq.symm, h⟩
      · simp [folded_concat]
      · simp [hashed]
  | node l r ihl ihr =>
    have hsubl : P.hashed leafMsg l ⊆ P.hashed leafMsg (.node l r) := fun x hx => by
      simp [hashed, hx]
    have hsubr : P.hashed leafMsg r ⊆ P.hashed leafMsg (.node l r) := fun x hx => by
      simp [hashed, hx]
    induction proof using List.reverseRecOn with
    | nil =>
      -- an empty proof claims that the leaf is the root itself
      refine Or.inr ⟨m, by simp, P.pair (P.root leafMsg l) (P.root leafMsg r), ?_, hm _ _, h⟩
      simp [hashed]
    | append_singleton ps p _ =>
      rw [fold_concat] at h
      have hfold : m :: P.folded (P.hash m) ps ⊆ m :: P.folded (P.hash m) (ps ++ [p]) := by
        rw [folded_concat, ← List.cons_append]
        exact List.subset_append_left _ _
      rcases eq_or_collision
        (l := m :: P.folded (P.hash m) (ps ++ [p]) ++ P.hashed leafMsg (.node l r))
        (by simp [folded_concat]) (by simp [hashed]) h with hpair | hcol
      · -- the last step met the tree at its root: descend on the side it came from
        rcases P.pair_inj hpair with ⟨hd, -⟩ | ⟨hd, -⟩
        · rcases ihl ps hd with ⟨a, ha, ham⟩ | hcol
          · exact Or.inl ⟨a, List.mem_append_left _ ha, ham⟩
          · exact Or.inr (hcol.mono (List.append_subset.mpr
              ⟨fun x hx => List.mem_append_left _ (hfold hx),
                fun x hx => List.mem_append_right _ (hsubl hx)⟩))
        · rcases ihr ps hd with ⟨a, ha, ham⟩ | hcol
          · exact Or.inl ⟨a, List.mem_append_right _ ha, ham⟩
          · exact Or.inr (hcol.mono (List.append_subset.mpr
              ⟨fun x hx => List.mem_append_left _ (hfold hx),
                fun x hx => List.mem_append_right _ (hsubr hx)⟩))
      · exact Or.inr hcol

end PairHash

end Merkle
