import BlockBoard.Proofs.Project.Rebuild

/-!
# Saving what was built

A document that is built and saved again comes back under new names, which number its nodes in depth
first order. Empty stacks are gone, and a stack with an empty start block follows if there was no
start block (`Document.blocks_resave`).
-/

namespace BlockBoard

open Workspace

/-! ### Renamed nodes -/

mutual

/-- The node under another name, with its body. -/
def Node.rename (ρ : BlockId → BlockId) : Node → Node
  | .start id body => .start (ρ id) (renameNodes ρ body)
  | .move id direction => .move (ρ id) direction
  | .fill id color => .fill (ρ id) color
  | .repetition id times body => .repetition (ρ id) times (renameNodes ρ body)

/-- The nodes under other names. -/
def renameNodes (ρ : BlockId → BlockId) : List Node → List Node
  | [] => []
  | node :: nodes => node.rename ρ :: renameNodes ρ nodes

end

section Nodes

variable {ρ : BlockId → BlockId} {nodes nodes' : List Node}

theorem Node.rename_eq (ρ : BlockId → BlockId) (node : Node) :
    node.rename ρ = node.kind.node (ρ node.id) (renameNodes ρ node.body) := by
  cases node <;> rw [rename] <;> rfl

theorem Node.node_kind (node : Node) : node.kind.node node.id node.body = node := by
  cases node <;> rfl

/-- Nodes that stand for the trees of others are the others under new names. -/
theorem Saves.eq_renameNodes (h : Saves ρ nodes' (listTrees nodes)) :
    nodes' = renameNodes ρ nodes := by
  induction nodes using nodes_induction generalizing nodes' with
  | nil =>
    cases h
    rw [renameNodes]
  | cons node nodes ihBody ihRest =>
    rw [listTrees_cons] at h
    cases h with
    | @cons node' nodes' _ _ _ _ id kind savesBody savesRest =>
      have first : node.kind.node (ρ node.id) node'.body = node' := by
        have same := node'.node_kind
        rwa [id, kind] at same
      rw [renameNodes, ← ihRest savesRest, Node.rename_eq, ← ihBody savesBody, first]

theorem eq_map_of_saves {written lists : List (List Node)}
    (h : List.Forall₂ (Saves ρ) written (lists.map listTrees)) :
    written = lists.map (renameNodes ρ) := by
  induction lists generalizing written with
  | nil =>
    cases h
    rfl
  | cons nodes lists ih =>
    cases h with
    | cons first rest => rw [List.map_cons, first.eq_renameNodes, ih rest]

/-! ### Nodes that are not too deep -/

/-- If no node lies deeper than the levels that are kept, pruning changes nothing. -/
theorem map_prune_listTrees {depth levels : ℕ} {first : Bool} (le : depth ≤ levels)
    (shallow : ∀ u ∈ listEntries depth first nodes, u.depth ≤ levels) :
    (listTrees nodes).map (Tree.prune (levels - depth)) = listTrees nodes := by
  induction nodes using nodes_induction generalizing depth first with
  | nil => rfl
  | cons node nodes ihBody ihRest =>
    rw [listEntries_cons, List.forall_mem_cons, List.forall_mem_append] at shallow
    obtain ⟨-, inside, after⟩ := shallow
    rw [listTrees_cons, List.map_cons, ihRest le after, prune_node_eq_self]
    · intro n level
      obtain rfl : n = levels - (depth + 1) := by omega
      exact ihBody (by omega) inside
    · intro last
      have bodiless : node.body = [] := by
        cases hb : node.body with
        | nil => rfl
        | cons child rest =>
          rw [hb, listEntries_cons, List.forall_mem_cons] at inside
          have := inside.1
          dsimp only at this
          omega
      exact ⟨congrArg headId bodiless, congrArg listTrees bodiless⟩

end Nodes

/-! ### Stacks that are saved -/

section Stacks

variable {lists : List (List Node)}

/-- Stacks alone, none of which is too deep, are saved as they are, but for the empty ones. -/
theorem Workspace.Stacked.stackTrees_eq {ws : Workspace} (h : Stacked empty lists ws)
    (shallow : ∀ stack ∈ lists, ∀ u ∈ listEntries 0 true stack, u.depth ≤ maxDepth) :
    ws.stackTrees = (lists.filter fun stack => !stack.isEmpty).map listTrees := by
  rw [stackTrees, h.topBlocks_eq, List.map_filterMap, ← List.filterMap_eq_map,
    List.filterMap_filter]
  refine List.filterMap_congr fun stack hs => ?_
  have unfolds := h.unfolds hs
  have whole := map_prune_listTrees (Nat.zero_le maxDepth) (shallow stack hs)
  cases stack with
  | nil => rfl
  | cons node nodes =>
    have forest := unfolds.forest_eq h.coherent maxDepth
    rw [Nat.sub_zero] at whole
    rw [whole] at forest
    rw [listTrees_cons] at forest ⊢
    simp only [List.isEmpty_cons, Bool.not_false, if_true, Function.comp_apply, listTrees_cons]
    exact congrArg some forest

theorem flatMap_listIds_filter (lists : List (List Node)) :
    ((lists.filter fun stack => !stack.isEmpty).map listTrees).flatMap listIds =
      stackIds lists := by
  induction lists with
  | nil => rfl
  | cons stack lists ih =>
    have ids : stackIds (stack :: lists) = listIds (listTrees stack) ++ stackIds lists :=
      List.flatMap_cons
    rw [ids, ← ih]
    cases stack <;> rfl

end Stacks

/-! ### Numbers of nodes -/

section Numbers

variable {stamp : String} {ρ : BlockId → BlockId} {ids : List BlockId}

theorem map_of_numbers (numbers : Numbers stamp ρ 0 ids) :
    ids.map ρ = (List.range ids.length).map (savedName stamp) := by
  refine List.ext_getElem (by simp) fun i hi _ => ?_
  rw [List.length_map] at hi
  rw [List.getElem_map, List.getElem_map, List.getElem_range, numbers i hi, Nat.zero_add]

/-- A block that was not met gets the number behind those that were. -/
theorem savedNames_of_not_mem {k : BlockId} (hk : k ∉ ids) :
    savedNames stamp ids k = savedName stamp ids.length := by
  rw [savedNames, List.idxOf_eq_length hk]

theorem numbers_savedNames_concat (nodup : ids.Nodup) {k : BlockId} (hk : k ∉ ids) :
    Numbers stamp (savedNames stamp ids) 0 (ids ++ [k]) := by
  intro i hi
  rw [Nat.zero_add]
  rcases Nat.lt_or_ge i ids.length with lt | ge
  · rw [List.getElem_append_left lt, numbers_savedNames nodup i lt, Nat.zero_add]
  · obtain rfl : i = ids.length := by
      rw [List.length_append, List.length_singleton] at hi
      omega
    rw [List.getElem_append_right ge, List.getElem_singleton, savedNames_of_not_mem hk]

end Numbers

/-- A document that is built and saved again gives its stacks but the empty ones, under names that
number the blocks in depth first order. They are followed by one stack with an empty start block,
exactly if the document has none. No name is written twice. -/
theorem Document.blocks_resave {d : Document} {ws : Workspace} (built : d.build = .ok ws)
    (shallow : ∀ u ∈ d.entries, u.depth ≤ maxDepth) (stamp : String) (b : Board) :
    (ofWorkspace stamp ws b).blocks =
      (d.blocks.filter fun stack => !stack.isEmpty).map
          (renameNodes (savedNames stamp (d.entries.map Entry.id))) ++
        (if ∃ u ∈ d.entries, u.kind = .start then []
          else [[.start (savedName stamp d.entries.length) []]]) ∧
    (ofWorkspace stamp ws b).entries.map Entry.id =
      (List.range (ofWorkspace stamp ws b).entries.length).map (savedName stamp) ∧
    ((ofWorkspace stamp ws b).entries.map Entry.id).Nodup := by
  obtain ⟨extra, completion, stacked⟩ := exists_stacked_of_build built
  have nodup := (exists_build_eq_ok_iff.1 ⟨ws, built⟩).1
  have flat : ∀ stack ∈ d.blocks ++ extra, ∀ u ∈ listEntries 0 true stack, u.depth ≤ maxDepth := by
    intro stack hs u hu
    rcases List.mem_append.1 hs with hs | hs
    · exact shallow u (List.mem_flatMap.2 ⟨stack, hs, hu⟩)
    · cases completion with
      | none => cases hs
      | start =>
        obtain rfl := List.mem_singleton.1 hs
        obtain rfl := List.mem_singleton.1 hu
        exact Nat.zero_le _
  have trees := stacked.stackTrees_eq flat
  have numbers : Numbers stamp (savedNames stamp (d.entries.map Entry.id)) 0
      (ws.stackTrees.flatMap listIds) := by
    rw [trees, flatMap_listIds_filter, stackIds, List.flatMap_append]
    show Numbers _ _ 0 (stackIds d.blocks ++ stackIds extra)
    rw [← d.map_id_entries]
    cases completion with
    | none =>
      rw [stackIds, List.flatMap_nil, List.append_nil]
      exact numbers_savedNames nodup
    | start _ fresh => exact numbers_savedNames_concat nodup fresh
  have saves : List.Forall₂ (Saves _) (ofWorkspace stamp ws b).blocks ws.stackTrees :=
    forall₂_saves_stacksToNodes (fun _ => stacked.coherent.bodied_of_mem) numbers
  have ids : (ofWorkspace stamp ws b).entries.map Entry.id =
      (List.range (ofWorkspace stamp ws b).entries.length).map (savedName stamp) := by
    have named := (map_id_entries _).trans (stackIds_of_saves saves)
    have length := congrArg List.length named
    rw [List.length_map, List.length_map] at length
    rw [named, map_of_numbers numbers, length]
  refine ⟨?_, ids, ?_⟩
  · rw [trees] at saves
    rw [eq_map_of_saves saves, List.filter_append, List.map_append]
    congr 1
    cases completion with
    | none start => rw [if_pos start]; rfl
    | @start id noStart fresh =>
      have none : ¬ ∃ u ∈ d.entries, u.kind = .start := by
        rintro ⟨u, hu, start⟩
        exact noStart u hu start
      rw [if_neg none, ← List.length_map (f := Entry.id), ← savedNames_of_not_mem fresh]
      rfl
  · rw [ids]
    exact List.nodup_range.map (savedName_injective stamp)

/-- A document with an empty stack and without a start block. -/
def unstarted : Document where
  blocks := [[], [.move "a" "UP", .repetition "b" 2 [.fill "c" "red"], .fill "d" "blue"]]

theorem Document.blocks_resave_unstarted :
    ∃ ws, unstarted.build = .ok ws ∧ (∀ u ∈ unstarted.entries, u.depth ≤ maxDepth) ∧
      (ofWorkspace "7" ws Board.standard).blocks =
        [[.move "b0_7" "UP", .repetition "b1_7" 2 [.fill "b2_7" "red"], .fill "b3_7" "blue"],
          [.start "b4_7" []]] := by
  obtain ⟨ws, built⟩ := (exists_build_eq_ok_iff (d := unstarted)).2
    ⟨by decide, by unfold StartsFirst; decide⟩
  have shallow : ∀ u ∈ unstarted.entries, u.depth ≤ maxDepth := by decide
  exact ⟨ws, built, shallow, (blocks_resave built shallow "7" Board.standard).1⟩

end BlockBoard
