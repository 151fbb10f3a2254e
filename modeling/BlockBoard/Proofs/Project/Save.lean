import BlockBoard.Project.Save
import BlockBoard.Proofs.Program.Rename
import BlockBoard.Proofs.Project.Build

/-!
# What saving writes

The nodes of a save have the shape and the types of the trees that they are made of, and the name of
each is the new name of its block (`Saves`). If the renaming numbers the blocks in depth first
order, as `savedNames` does, the stacks of a document are saved like that
(`forall₂_saves_stacksToNodes`).
-/

namespace BlockBoard

open Workspace

/-! ### Nodes that stand for trees -/

/-- Nodes stand for trees whose blocks were renamed. -/
inductive Saves (ρ : BlockId → BlockId) : List Node → List Tree → Prop
  | nil : Saves ρ [] []
  | cons {node : Node} {nodes : List Node} {b : Block} {cut : Bool} {body trees : List Tree} :
      node.id = ρ b.id → node.kind = b.kind → Saves ρ node.body body → Saves ρ nodes trees →
      Saves ρ (node :: nodes) (.node b cut body :: trees)

namespace Saves

variable {ρ : BlockId → BlockId} {nodes : List Node} {trees : List Tree}

theorem listIds_eq (h : Saves ρ nodes trees) :
    listIds (listTrees nodes) = (listIds trees).map ρ := by
  induction h with
  | nil => rfl
  | cons id kind _ _ ihBody ihRest =>
    rw [ids_cons, listIds_cons, ihBody, ihRest, id, List.map_cons, List.map_append]

theorem kinds_eq (h : Saves ρ nodes trees) :
    (listBlocks (listTrees nodes)).map Block.kind = (listBlocks trees).map Block.kind := by
  induction h with
  | nil => rfl
  | cons id kind _ _ ihBody ihRest =>
    rw [blocks_cons, listBlocks_cons, List.map_cons, List.map_cons, List.map_append,
      List.map_append, ihBody, ihRest, ← kind]
    rfl

/-- The nodes have the flattening of the trees, up to the renaming. -/
theorem flatten_eq (h : Saves ρ nodes trees) (levels : ℕ) :
    (listTrees nodes).flatMap (Tree.flatten levels) =
      (trees.flatMap (Tree.flatten levels)).map (Step.rename ρ) := by
  induction h generalizing levels with
  | nil => rfl
  | @cons node nodes b cut body trees id kind _ _ ihBody ihRest =>
    rw [listTrees_cons, List.flatMap_cons, List.flatMap_cons, List.map_append, ihRest]
    congr 1
    have expand : ∀ xs, (node.block (headId nodes)).expand (xs.map (Step.rename ρ)) =
        (b.expand xs).map (Step.rename ρ) := Block.expand_rename id kind
    cases levels with
    | zero => exact expand []
    | succ levels =>
      show (node.block (headId nodes)).expand
        ((listTrees node.body).flatMap (Tree.flatten levels)) = _
      rw [ihBody]
      exact expand _

end Saves

/-! ### Numbered names -/

/-- A renaming numbers some blocks from a number on. -/
def Numbers (stamp : String) (ρ : BlockId → BlockId) (n : ℕ) (ids : List BlockId) : Prop :=
  ∀ i (h : i < ids.length), ρ ids[i] = savedName stamp (n + i)

variable {stamp : String} {ρ : BlockId → BlockId} {n : ℕ}

theorem numbers_cons {k : BlockId} {ids : List BlockId} (h : Numbers stamp ρ n (k :: ids)) :
    ρ k = savedName stamp n ∧ Numbers stamp ρ (n + 1) ids := by
  refine ⟨h 0 (Nat.zero_lt_succ _), fun i hi => ?_⟩
  rw [Nat.add_assoc, Nat.add_comm 1 i]
  exact h (i + 1) (Nat.succ_lt_succ hi)

theorem numbers_append {ids ids' : List BlockId} (h : Numbers stamp ρ n (ids ++ ids')) :
    Numbers stamp ρ n ids ∧ Numbers stamp ρ (n + ids.length) ids' := by
  constructor
  · intro i hi
    have := h i (by rw [List.length_append]; omega)
    rwa [List.getElem_append_left hi] at this
  · intro i hi
    have := h (ids.length + i) (by rw [List.length_append]; omega)
    rwa [List.getElem_append_right (Nat.le_add_right _ _), ← Nat.add_assoc,
      getElem_congr_idx (Nat.add_sub_cancel_left _ _)] at this

/-- The names that a save gives to blocks that it meets in the given order. -/
def savedNames (stamp : String) (ids : List BlockId) (k : BlockId) : BlockId :=
  savedName stamp (ids.idxOf k)

theorem savedName_injective (stamp : String) : Function.Injective (savedName stamp) := by
  intro m n h
  have : toString m = toString n := by
    simpa [savedName] using h
  exact Nat.repr_inj.1 this

/-- Blocks that were met got names of their own. -/
theorem savedNames_inj {ids : List BlockId} {a b : BlockId} (ha : a ∈ ids)
    (h : savedNames stamp ids a = savedNames stamp ids b) : a = b :=
  (List.idxOf_inj ha).1 (savedName_injective stamp h)

theorem numbers_savedNames {ids : List BlockId} (nodup : ids.Nodup) :
    Numbers stamp (savedNames stamp ids) 0 ids := by
  intro i hi
  rw [savedNames, nodup.idxOf_getElem, Nat.zero_add]

/-! ### Writing nodes -/

/-- Only blocks that may have a body have one. -/
inductive Bodied : List Tree → Prop
  | nil : Bodied []
  | cons {b : Block} {cut : Bool} {body trees : List Tree} :
      (b.kind.hasBody ∨ body = []) → Bodied body → Bodied trees →
      Bodied (.node b cut body :: trees)

/-- The node of a type. -/
def Kind.node (id : BlockId) (body : List Node) : Kind → Node
  | .start => .start id body
  | .move direction => .move id direction
  | .fill color => .fill id color
  | .repetition times => .repetition id times body

@[simp]
theorem id_node (id : BlockId) (body : List Node) (kind : Kind) : (kind.node id body).id = id := by
  cases kind <;> rfl

@[simp]
theorem kind_node (id : BlockId) (body : List Node) (kind : Kind) :
    (kind.node id body).kind = kind := by
  cases kind <;> rfl

theorem body_node (id : BlockId) {body : List Node} {kind : Kind}
    (bodied : kind.hasBody ∨ body = []) : (kind.node id body).body = body := by
  cases kind with
  | start | repetition => rfl
  | move | fill => exact (bodied.resolve_left Bool.false_ne_true).symm

theorem Tree.toNode_eq {b : Block} {cut : Bool} {body : List Tree}
    (bodied : b.kind.hasBody ∨ body = []) :
    (Tree.node b cut body).toNode stamp n =
      (b.kind.node (savedName stamp n) (listToNodes stamp (n + 1) body).1,
        (listToNodes stamp (n + 1) body).2) := by
  rw [Tree.toNode]
  cases hb : b.kind with
  | start | repetition => rfl
  | move | fill =>
    obtain rfl : body = [] := bodied.resolve_left (by simp [hb, Kind.hasBody])
    rfl

/-- Writing trees gives nodes that stand for them, and goes on with the next number. -/
theorem Bodied.saves_listToNodes {trees : List Tree} (h : Bodied trees)
    (numbers : Numbers stamp ρ n (listIds trees)) :
    Saves ρ (listToNodes stamp n trees).1 trees ∧
      (listToNodes stamp n trees).2 = n + (listIds trees).length := by
  induction h generalizing n with
  | nil => exact ⟨.nil, rfl⟩
  | @cons b cut body trees bodied _ _ ihBody ihRest =>
    rw [listIds_cons] at numbers
    obtain ⟨name, numbers⟩ := numbers_cons numbers
    obtain ⟨inside, after⟩ := numbers_append numbers
    obtain ⟨savesBody, next⟩ := ihBody inside
    obtain ⟨savesRest, last⟩ := ihRest (next ▸ after)
    have bodied' : b.kind.hasBody ∨ (listToNodes stamp (n + 1) body).1 = [] :=
      bodied.imp_right fun none => by rw [none]; rfl
    rw [listToNodes, Tree.toNode_eq bodied]
    refine ⟨.cons ?_ ?_ ?_ savesRest, ?_⟩
    · rw [id_node, name]
    · rw [kind_node]
    · rwa [body_node _ bodied']
    · rw [last, next, listIds_cons, List.length_cons, List.length_append]
      omega

/-- Writing stacks gives nodes that stand for them. -/
theorem forall₂_saves_stacksToNodes {lists : List (List Tree)} (h : ∀ trees ∈ lists, Bodied trees)
    (numbers : Numbers stamp ρ n (lists.flatMap listIds)) :
    List.Forall₂ (Saves ρ) (stacksToNodes stamp n lists) lists := by
  induction lists generalizing n with
  | nil => exact .nil
  | cons trees lists ih =>
    rw [List.flatMap_cons] at numbers
    obtain ⟨first, rest⟩ := numbers_append numbers
    obtain ⟨saves, next⟩ := (h trees List.mem_cons_self).saves_listToNodes first
    rw [stacksToNodes]
    exact .cons saves (ih (fun t ht => h t (List.mem_cons_of_mem _ ht)) (next ▸ rest))

end BlockBoard
