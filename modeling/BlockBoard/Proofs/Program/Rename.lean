import Mathlib.Data.Set.Function
import BlockBoard.Proofs.Program.Flatten

/-!
# Renaming the blocks of a program

Two programs are the same up to the names of their blocks if a one-to-one renaming takes one to the
other (`SameUpToNames`). A renaming that is one-to-one on the blocks of a program makes no
difference to that (`sameUpToNames_map_iff`). The steps of a tree mark blocks of the tree only
(`markedIds_flatten_subset`).
-/

namespace BlockBoard

/-! ### The names in a program -/

/-- The block that a step marks. -/
def Step.block? : Step → Option BlockId
  | highlight id | unhighlight id => some id
  | move _ | fill _ => none

/-- The blocks that steps mark. -/
def markedIds (steps : List Step) : List BlockId :=
  steps.filterMap Step.block?

/-- The step for another block. -/
def Step.rename (ρ : BlockId → BlockId) : Step → Step
  | highlight id => highlight (ρ id)
  | unhighlight id => unhighlight (ρ id)
  | move direction => move direction
  | fill color => fill color

/-- Some steps are others under a renaming of blocks that is one-to-one on them. -/
def SameUpToNames (xs ys : List Step) : Prop :=
  ∃ ρ : BlockId → BlockId, Set.InjOn ρ {k | k ∈ markedIds xs} ∧ ys = xs.map (Step.rename ρ)

theorem SameUpToNames.refl (xs : List Step) : SameUpToNames xs xs := by
  refine ⟨id, Set.injOn_id _, ?_⟩
  have same : Step.rename id = id := funext fun step => by cases step <;> rfl
  rw [same, List.map_id]

section Renaming

variable {ρ σ : BlockId → BlockId} {xs ys : List Step}

theorem Step.rename_rename (step : Step) : (step.rename σ).rename ρ = step.rename (ρ ∘ σ) := by
  cases step <;> rfl

theorem map_rename_map (xs : List Step) :
    (xs.map (Step.rename σ)).map (Step.rename ρ) = xs.map (Step.rename (ρ ∘ σ)) := by
  rw [List.map_map]
  exact List.map_congr_left fun step _ => step.rename_rename

theorem Step.rename_eq_self {step : Step} (h : ∀ k, step.block? = some k → ρ k = k) :
    step.rename ρ = step := by
  cases step with
  | highlight k => rw [rename, h k rfl]
  | unhighlight k => rw [rename, h k rfl]
  | move | fill => rfl

theorem markedIds_map_rename (xs : List Step) :
    markedIds (xs.map (Step.rename ρ)) = (markedIds xs).map ρ := by
  rw [markedIds, markedIds, List.filterMap_map, List.map_filterMap]
  refine List.filterMap_congr fun step _ => ?_
  cases step <;> rfl

/-- Only what a renaming does to the blocks of the steps counts. -/
theorem map_rename_eq_self (h : ∀ k ∈ markedIds xs, ρ k = k) : xs.map (Step.rename ρ) = xs := by
  refine (List.map_congr_left fun step hs => ?_).trans (List.map_id xs)
  exact Step.rename_eq_self fun k hk => h k (List.mem_filterMap.2 ⟨step, hs, hk⟩)

/-- A one-to-one renaming of the blocks of a program changes nothing but names. -/
theorem sameUpToNames_map_iff (inj : Set.InjOn ρ {k | k ∈ markedIds ys}) :
    SameUpToNames xs (ys.map (Step.rename ρ)) ↔ SameUpToNames xs ys := by
  constructor
  · rintro ⟨σ, injσ, same⟩
    -- Going back along `ρ` turns the renaming to the renamed steps into one to the steps.
    have back : ∀ k ∈ markedIds ys, Function.invFunOn ρ {k | k ∈ markedIds ys} (ρ k) = k :=
      fun k hk => inj.leftInvOn_invFunOn hk
    have ids : (markedIds xs).map σ = (markedIds ys).map ρ := by
      rw [← markedIds_map_rename, ← markedIds_map_rename, same]
    refine ⟨Function.invFunOn ρ {k | k ∈ markedIds ys} ∘ σ, fun a ha b hb eq => ?_, ?_⟩
    · obtain ⟨a', ha', hσa⟩ := List.mem_map.1 (ids ▸ List.mem_map_of_mem ha)
      obtain ⟨b', hb', hσb⟩ := List.mem_map.1 (ids ▸ List.mem_map_of_mem hb)
      rw [Function.comp_apply, Function.comp_apply, ← hσa, ← hσb, back a' ha', back b' hb'] at eq
      exact injσ ha hb (by rw [← hσa, ← hσb, eq])
    · rw [← map_rename_map, ← same, map_rename_map]
      exact (map_rename_eq_self back).symm
  · rintro ⟨σ, injσ, rfl⟩
    refine ⟨ρ ∘ σ, fun a ha b hb eq => injσ ha hb (inj ?_ ?_ eq), map_rename_map xs⟩
    · exact (markedIds_map_rename xs) ▸ List.mem_map_of_mem ha
    · exact (markedIds_map_rename xs) ▸ List.mem_map_of_mem hb

end Renaming

/-! ### Renaming trees -/

theorem Block.expand_rename {ρ : BlockId → BlockId} {b b' : Block} (id : b'.id = ρ b.id)
    (kind : b'.kind = b.kind) (xs : List Step) :
    b'.expand (xs.map (Step.rename ρ)) = (b.expand xs).map (Step.rename ρ) := by
  unfold expand
  rw [kind, id]
  cases b.kind with
  | start | move | fill => rfl
  | repetition times => rw [List.map_flatten, List.map_replicate]

/-- A block marks only itself and what its body marks. -/
theorem Block.mem_markedIds_expand {b : Block} {xs : List Step} {k : BlockId}
    (h : k ∈ markedIds (b.expand xs)) : k = b.id ∨ k ∈ markedIds xs := by
  unfold expand at h
  split at h
  case h_1 => exact Or.inr h
  case h_2 | h_3 => exact Or.inl (by simpa [markedIds, Step.block?, eq_comm] using h)
  case h_4 =>
    obtain ⟨step, hs, hk⟩ := List.mem_filterMap.1 h
    obtain ⟨copy, hcopy, inCopy⟩ := List.mem_flatten.1 hs
    rw [List.eq_of_mem_replicate hcopy] at inCopy
    exact Or.inr (List.mem_filterMap.2 ⟨step, inCopy, hk⟩)

theorem markedIds_flatMap_subset {f : Tree → List Step}
    (one : ∀ tree, markedIds (f tree) ⊆ listIds [tree]) (trees : List Tree) :
    markedIds (trees.flatMap f) ⊆ listIds trees := by
  intro k hk
  rw [markedIds, List.filterMap_flatMap, List.mem_flatMap] at hk
  obtain ⟨tree, ht, hk⟩ := hk
  have inTree := one tree hk
  rw [listIds, listBlocks_eq_flatMap, List.flatMap_singleton] at inTree
  obtain ⟨b, hb, rfl⟩ := List.mem_map.1 inTree
  rw [listIds, listBlocks_eq_flatMap]
  exact List.mem_map_of_mem (List.mem_flatMap.2 ⟨tree, ht, hb⟩)

/-- A flattening marks only blocks of the trees. -/
theorem markedIds_flatten_subset (levels : ℕ) (trees : List Tree) :
    markedIds (trees.flatMap (Tree.flatten levels)) ⊆ listIds trees := by
  refine markedIds_flatMap_subset ?_ trees
  induction levels with
  | zero =>
    rintro ⟨b, cut, body⟩ k hk
    rw [listIds_cons, List.mem_cons]
    exact (Block.mem_markedIds_expand hk).imp_right nofun
  | succ levels ih =>
    rintro ⟨b, cut, body⟩ k hk
    rw [listIds_cons, List.mem_cons, List.mem_append]
    exact (Block.mem_markedIds_expand hk).imp_right fun hk =>
      Or.inl (markedIds_flatMap_subset ih body hk)

/-- Flattening for some levels sees no more than pruning to them leaves. -/
theorem flatten_prune {levels more : ℕ} (le : levels ≤ more) (tree : Tree) :
    (tree.prune levels).flatten more = tree.flatten levels := by
  induction levels generalizing more tree with
  | zero => cases more <;> rfl
  | succ levels ih =>
    obtain ⟨more, rfl⟩ := Nat.exists_eq_add_of_le' le
    have same : (fun tree => (Tree.prune levels tree).flatten (more + levels)) =
        Tree.flatten levels := funext fun tree => ih (Nat.le_add_left _ _) tree
    show tree.block.expand ((tree.body.map (Tree.prune levels)).flatMap
      (Tree.flatten (more + levels))) = _
    rw [List.flatMap_map, same]
    rfl

theorem flatMap_flatten_prune {levels more : ℕ} (le : levels ≤ more) (trees : List Tree) :
    (trees.map (Tree.prune levels)).flatMap (Tree.flatten more) =
      trees.flatMap (Tree.flatten levels) := by
  rw [List.flatMap_map]
  congr 1
  exact funext (flatten_prune le)

end BlockBoard
