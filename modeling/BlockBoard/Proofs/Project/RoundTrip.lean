import BlockBoard.Proofs.Project.Save

/-!
# Building what was saved

The stacks of a coherent workspace are saved and built again under new names. The bodies below a
start block are saved for `maxDepth - 1` levels, one less than are compiled, so the program that is
built again is the flattening to these levels (`Coherent.compile_rebuilt`). It is the same up to
names exactly if what the last level adds makes no difference to the first `maxSteps` steps. This is
so if the save reports no body that it leaves out, and it is not for `deep`.
-/

namespace BlockBoard

open Workspace

/-! ### Stacks that stand for others -/

section Saves

variable {ρ : BlockId → BlockId} {nodes : List Node} {trees : List Tree}

/-- If start blocks come first only, they do so in the nodes of a save. -/
theorem Saves.headId_of_start (h : Saves ρ nodes trees)
    (first : ∀ b ∈ (listBlocks trees).tail, b.kind ≠ .start) {b : Block}
    (hb : b ∈ listBlocks (listTrees nodes)) (start : b.kind = .start) :
    headId nodes = some b.id := by
  have kinds := congrArg List.tail h.kinds_eq
  rw [← List.map_tail, ← List.map_tail] at kinds
  cases nodes with
  | nil => exact absurd hb (by simp [listTrees])
  | cons node nodes =>
    rw [blocks_cons, List.tail_cons] at kinds
    rw [blocks_cons] at hb
    rcases List.mem_cons.1 hb with rfl | hb
    · rfl
    · obtain ⟨b', hb', same⟩ := List.mem_map.1 (kinds ▸ List.mem_map_of_mem hb)
      exact absurd (same.trans start) (first b' hb')

/-- The first block of the nodes is the one that stands for the first block. -/
theorem Saves.headBlock_cases (h : Saves ρ nodes trees) :
    headBlock trees = none ∧ headBlock (listTrees nodes) = none ∨
      ∃ b b', headBlock trees = some b ∧ headBlock (listTrees nodes) = some b' ∧
        b'.kind = b.kind := by
  cases h with
  | nil => exact Or.inl ⟨rfl, rfl⟩
  | @cons node nodes b _ _ _ _ kind _ _ =>
    exact Or.inr ⟨b, node.block (headId nodes), rfl, by rw [listTrees_cons]; rfl, kind⟩

theorem exists_saves_of_mem {written : List (List Node)} {lists : List (List Tree)}
    (h : List.Forall₂ (Saves ρ) written lists) (hn : nodes ∈ written) :
    ∃ trees ∈ lists, Saves ρ nodes trees := by
  induction h with
  | nil => cases hn
  | @cons nodes' trees _ _ saves _ ih =>
    rcases List.mem_cons.1 hn with rfl | hn
    · exact ⟨trees, List.mem_cons_self, saves⟩
    · obtain ⟨trees, ht, saves⟩ := ih hn
      exact ⟨trees, List.mem_cons_of_mem _ ht, saves⟩

theorem stackIds_of_saves {written : List (List Node)} {lists : List (List Tree)}
    (h : List.Forall₂ (Saves ρ) written lists) :
    stackIds written = (lists.flatMap listIds).map ρ := by
  induction h with
  | nil => rfl
  | cons saves _ ih =>
    rw [List.flatMap_cons, List.map_append, ← ih, ← saves.listIds_eq]
    rfl

/-- The first start block of some stacks is written as the first start block. -/
theorem exists_start_of_saves {written : List (List Node)} {lists : List (List Tree)}
    (h : List.Forall₂ (Saves ρ) written lists) {start : Block}
    (hs : (lists.filterMap headBlock).find? (fun b => b.kind = .start) = some start) :
    ∃ nodes ∈ written, ∃ trees ∈ lists, ∃ start', Saves ρ nodes trees ∧
      headBlock trees = some start ∧ headBlock (listTrees nodes) = some start' ∧
      (written.filterMap fun nodes => headBlock (listTrees nodes)).find?
        (fun b => b.kind = .start) = some start' := by
  induction h with
  | nil => cases hs
  | @cons nodes trees written lists saves rest ih =>
    rcases saves.headBlock_cases with ⟨head, head'⟩ | ⟨b, b', head, head', kind⟩
    · rw [List.filterMap_cons, head] at hs
      obtain ⟨nodes', hn, trees', ht, start', found⟩ := ih hs
      rw [List.filterMap_cons, head']
      exact ⟨nodes', List.mem_cons_of_mem _ hn, trees', List.mem_cons_of_mem _ ht, start', found⟩
    · rw [List.filterMap_cons, head, List.find?_cons] at hs
      rw [List.filterMap_cons, head', List.find?_cons, kind]
      by_cases isStart : b.kind = .start
      · rw [decide_eq_true isStart] at hs ⊢
        obtain rfl := Option.some.inj hs
        exact ⟨nodes, List.mem_cons_self, trees, List.mem_cons_self, b', saves, head, head', rfl⟩
      · rw [decide_eq_false isStart] at hs ⊢
        obtain ⟨nodes', hn, trees', ht, start', found⟩ := ih hs
        exact ⟨nodes', List.mem_cons_of_mem _ hn, trees', List.mem_cons_of_mem _ ht, start',
          found⟩

end Saves

theorem Workspace.Unfolds.bodied {ws : Workspace} (c : ws.Coherent) {first : Option BlockId}
    {trees : List Tree} (h : ws.Unfolds first trees) (levels : ℕ) :
    Bodied (trees.map (Tree.prune levels)) := by
  induction h generalizing levels with
  | nil => exact .nil
  | @cons k b body rest hk hbody hrest ihBody ihRest =>
    cases levels with
    | zero => exact .cons (Or.inr rfl) .nil (ihRest 0)
    | succ levels =>
      refine .cons ?_ (ihBody levels) (ihRest (levels + 1))
      cases hb : b.body with
      | none =>
        rw [hb] at hbody
        cases hbody
        exact Or.inr rfl
      | some first =>
        have owns : b.body.isSome := by rw [hb]; rfl
        exact Or.inl (c.hasBody hk owns)

/-- The names of the blocks that a save keeps, in depth first order. -/
def Workspace.keptIds (ws : Workspace) : List BlockId :=
  ws.stackTrees.flatMap listIds

namespace Workspace.Coherent

variable {ws : Workspace}

/-- A stack of the top level is a pruned unfolding. -/
theorem exists_unfolds_of_mem (c : ws.Coherent) {stack : List Tree} (hs : stack ∈ ws.stackTrees) :
    ∃ t trees, t ∈ ws.top ∧ ws.Unfolds (some t) trees ∧
      stack = trees.map (Tree.prune maxDepth) := by
  obtain ⟨trees, unfolds, -⟩ := c.exists_stacks
  rw [c.stackTrees_eq unfolds] at hs
  obtain ⟨t, ht, rfl⟩ := List.mem_map.1 hs
  exact ⟨t, trees t, ht, unfolds t ht, rfl⟩

theorem nodup_keptIds (c : ws.Coherent) : ws.keptIds.Nodup := by
  obtain ⟨trees, unfolds, nodup⟩ := c.exists_stacks
  rw [keptIds, c.stackTrees_eq unfolds, List.flatMap_map]
  refine nodup.sublist (List.Sublist.flatMap_right _ fun t _ => ?_)
  exact (listBlocks_prune_sublist maxDepth (trees t)).map Block.id

theorem bodied_of_mem (c : ws.Coherent) {stack : List Tree} (hs : stack ∈ ws.stackTrees) :
    Bodied stack := by
  obtain ⟨t, trees, -, unfolds, rfl⟩ := c.exists_unfolds_of_mem hs
  exact unfolds.bodied c maxDepth

theorem not_start_of_mem (c : ws.Coherent) {stack : List Tree} (hs : stack ∈ ws.stackTrees) :
    ∀ b ∈ (listBlocks stack).tail, b.kind ≠ .start := by
  obtain ⟨t, trees, ht, unfolds, rfl⟩ := c.exists_unfolds_of_mem hs
  intro b hb
  exact c.not_start_of_mem_tail ht unfolds ((listBlocks_prune_sublist maxDepth trees).tail.mem hb)

/-- A document stands for the stacks of its workspace. -/
theorem saves (c : ws.Coherent) (stamp : String) (board : Board) :
    List.Forall₂ (Saves (savedNames stamp ws.keptIds))
      (Document.ofWorkspace stamp ws board).blocks ws.stackTrees :=
  forall₂_saves_stacksToNodes (fun _ => c.bodied_of_mem) (numbers_savedNames c.nodup_keptIds)

/-- The blocks of a document have different names, and start blocks come first in their stacks. -/
theorem stacks_save (c : ws.Coherent) (stamp : String) (board : Board) :
    (stackIds (Document.ofWorkspace stamp ws board).blocks).Nodup ∧
      ∀ stack ∈ (Document.ofWorkspace stamp ws board).blocks,
        ∀ b ∈ listBlocks (listTrees stack), b.kind = .start → headId stack = some b.id := by
  have saves := c.saves stamp board
  constructor
  · rw [stackIds_of_saves saves]
    exact c.nodup_keptIds.map_on fun a ha b _ same => savedNames_inj ha same
  · intro nodes hn b hb isStart
    obtain ⟨trees, ht, saves⟩ := exists_saves_of_mem saves hn
    exact saves.headId_of_start (c.not_start_of_mem ht) hb isStart

/-- The first blocks of a save stay first, so it can be built, also without a start block. -/
theorem exists_build_save (c : ws.Coherent) (stamp : String) (b : Board) :
    ∃ ws', (Document.ofWorkspace stamp ws b).build = .ok ws' := by
  obtain ⟨nodup, first⟩ := c.stacks_save stamp b
  obtain ⟨ws', added, -⟩ := coherent_empty.addStacks nodup (fun k _ => get?_empty k) first
  exact ⟨ws'.ensureStart.1, by rw [Document.build, added, ok_bind, pure_eq_ok]⟩

/-- What was saved with a start block can be built. -/
theorem build_save (c : ws.Coherent) {start : Block} (hs : ws.start? = some start)
    (stamp : String) (board : Board) :
    ∃ ws', (Document.ofWorkspace stamp ws board).build = .ok ws' ∧
      Stacked empty (Document.ofWorkspace stamp ws board).blocks ws' := by
  obtain ⟨nodup, first⟩ := c.stacks_save stamp board
  refine Document.build_eq_ok nodup first ?_
  obtain ⟨trees, unfolds, -⟩ := c.exists_stacks
  rw [start?, c.topBlocks_eq unfolds] at hs
  obtain ⟨_, _, _, _, start', _, _, _, found⟩ := exists_start_of_saves (c.saves stamp board) hs
  rw [found]
  rfl

/-- The start block is at the top level, where its body takes one of the levels that are saved. -/
theorem start_mem_stackTrees (c : ws.Coherent) {start : Block} (hs : ws.start? = some start)
    {trees : List Tree} (unfolds : ws.Unfolds start.body trees) :
    ∃ rest, .node start false (trees.map (Tree.prune (maxDepth - 1))) :: rest ∈ ws.stackTrees := by
  obtain ⟨t, ht, stored, -⟩ := exists_top_of_start? hs
  obtain ⟨all, unfoldsAll, -⟩ := c.exists_stacks
  have hu := unfoldsAll t ht
  rw [c.stackTrees_eq unfoldsAll]
  refine ⟨(all t).tail.map (Tree.prune maxDepth), List.mem_map.2 ⟨t, ht, ?_⟩⟩
  generalize all t = stack at hu ⊢
  cases hu with
  | cons hk hbody _ =>
    obtain rfl := Option.some.inj (stored.symm.trans hk)
    obtain rfl := hbody.unique unfolds
    rfl

/-- The blocks below the start block that are saved. -/
theorem listIds_subset_keptIds (c : ws.Coherent) {start : Block} (hs : ws.start? = some start)
    {trees : List Tree} (unfolds : ws.Unfolds start.body trees) :
    listIds (trees.map (Tree.prune (maxDepth - 1))) ⊆ ws.keptIds := by
  obtain ⟨rest, hstack⟩ := c.start_mem_stackTrees hs unfolds
  intro k hk
  refine List.mem_flatMap.2 ⟨_, hstack, ?_⟩
  rw [listIds_cons]
  exact List.mem_cons_of_mem _ (List.mem_append_left _ hk)

/-- The body of the start block that is built again has the flattening of the body of the start
block to one level less than are compiled, up to the new names. -/
theorem flatten_build_save (c : ws.Coherent) {start : Block} (hs : ws.start? = some start)
    {trees : List Tree} (unfolds : ws.Unfolds start.body trees) (stamp : String) (board : Board) :
    ∃ ws' start' trees', (Document.ofWorkspace stamp ws board).build = .ok ws' ∧ ws'.Coherent ∧
      ws'.start? = some start' ∧ ws'.Unfolds start'.body trees' ∧
      trees'.flatMap (Tree.flatten maxDepth) = (trees.flatMap (Tree.flatten (maxDepth - 1))).map
        (Step.rename (savedNames stamp ws.keptIds)) := by
  obtain ⟨ws', built, stacked⟩ := c.build_save hs stamp board
  obtain ⟨all, unfoldsAll, -⟩ := c.exists_stacks
  rw [start?, c.topBlocks_eq unfoldsAll] at hs
  obtain ⟨nodes, hn, stack, hstack, start', saves, head, head', found⟩ :=
    exists_start_of_saves (c.saves stamp board) hs
  rw [← stacked.topBlocks_eq] at found
  obtain ⟨t, full, -, hu, rfl⟩ := c.exists_unfolds_of_mem hstack
  cases hu with
  | @cons _ b body rest hk hbody _ =>
    have shape : (Tree.node b false body :: rest).map (Tree.prune maxDepth) =
          .node b false (body.map (Tree.prune (maxDepth - 1))) ::
            rest.map (Tree.prune maxDepth) := rfl
    rw [shape] at saves head
    obtain rfl : b = start := Option.some.inj head
    obtain rfl := hbody.unique unfolds
    have rebuilt := stacked.unfolds hn
    cases saves with
    | @cons node nodes _ _ _ _ _ _ savesBody _ =>
      rw [listTrees_cons] at rebuilt head'
      obtain rfl : node.block (headId nodes) = start' := Option.some.inj head'
      cases rebuilt with
      | cons _ rebuiltBody _ =>
        refine ⟨ws', _, _, built, stacked.coherent, found, rebuiltBody, ?_⟩
        rw [savesBody.flatten_eq, flatMap_flatten_prune (Nat.sub_le _ _)]

/-- Compiling what was saved and built again gives the flattening to one level less than are
compiled, up to the new names. -/
theorem compile_rebuilt (c : ws.Coherent) {start : Block} (hs : ws.start? = some start)
    {trees : List Tree} (unfolds : ws.Unfolds start.body trees) (stamp : String) (board : Board) :
    ∃ ws' compiled compiled', (Document.ofWorkspace stamp ws board).build = .ok ws' ∧
      ws.compile? = some compiled ∧ ws'.compile? = some compiled' ∧
      compiled.steps.toList = (trees.flatMap (Tree.flatten maxDepth)).take maxSteps ∧
      compiled'.steps.toList = ((trees.flatMap (Tree.flatten (maxDepth - 1))).take maxSteps).map
        (Step.rename (savedNames stamp ws.keptIds)) ∧
      (SameUpToNames compiled.steps.toList compiled'.steps.toList ↔
        SameUpToNames ((trees.flatMap (Tree.flatten maxDepth)).take maxSteps)
          ((trees.flatMap (Tree.flatten (maxDepth - 1))).take maxSteps)) := by
  obtain ⟨ws', start', trees', built, coherent', hs', unfolds', flat⟩ :=
    c.flatten_build_save hs unfolds stamp board
  obtain ⟨compiled, eq, holds⟩ := c.compile_holds hs unfolds
  obtain ⟨compiled', eq', holds'⟩ := coherent'.compile_holds hs' unfolds'
  have steps : compiled.steps.toList = (trees.flatMap (Tree.flatten maxDepth)).take maxSteps := by
    rw [holds.toList_steps, List.nil_append]
  have steps' : compiled'.steps.toList =
      ((trees.flatMap (Tree.flatten (maxDepth - 1))).take maxSteps).map
        (Step.rename (savedNames stamp ws.keptIds)) := by
    rw [holds'.toList_steps, List.nil_append, flat, List.map_take]
  refine ⟨ws', compiled, compiled', built, eq, eq', steps, steps', ?_⟩
  rw [steps, steps']
  refine sameUpToNames_map_iff fun a ha b _ same => savedNames_inj ?_ same
  have marked := ((List.take_sublist _ _).filterMap _).mem ha
  rw [← flatMap_flatten_prune (Nat.le_refl (maxDepth - 1))] at marked
  exact c.listIds_subset_keptIds hs unfolds (markedIds_flatten_subset _ _ marked)

end Workspace.Coherent

namespace Workspace

variable {ws : Workspace}

/-- A workspace with a start block can be saved and built again, and its blocks get different names.
The program that is built again are the first `maxSteps` steps of the flattening of the start
block's body to one level less than are compiled. So it is the same program up to names exactly if
that level makes no difference, up to names, to the first `maxSteps` steps. -/
theorem Reachable.compile_build_save (h : ws.Reachable) {start : Block}
    (hs : ws.start? = some start) (stamp : String) (board : Board) :
    ∃ trees ws' c c', ws.Unfolds start.body trees ∧
      (Document.ofWorkspace stamp ws board).build = .ok ws' ∧
      ws.compile? = some c ∧ ws'.compile? = some c' ∧
      Set.InjOn (savedNames stamp ws.keptIds) {k | k ∈ ws.keptIds} ∧
      c.steps.toList = (trees.flatMap (Tree.flatten maxDepth)).take maxSteps ∧
      c'.steps.toList = ((trees.flatMap (Tree.flatten (maxDepth - 1))).take maxSteps).map
        (Step.rename (savedNames stamp ws.keptIds)) ∧
      (SameUpToNames c.steps.toList c'.steps.toList ↔
        SameUpToNames ((trees.flatMap (Tree.flatten maxDepth)).take maxSteps)
          ((trees.flatMap (Tree.flatten (maxDepth - 1))).take maxSteps)) := by
  have coherent := h.coherent
  obtain ⟨trees, unfolds⟩ := coherent.exists_start_body hs
  obtain ⟨ws', c, c', built, compiled, compiled', steps, steps', same⟩ :=
    coherent.compile_rebuilt hs unfolds stamp board
  exact ⟨trees, ws', c, c', unfolds, built, compiled, compiled',
    fun _ ha _ _ eq => savedNames_inj ha eq, steps, steps', same⟩

theorem Reachable.compile_build_save_painter :
    painter.Reachable ∧ ∃ ws' c c',
      (Document.ofWorkspace "0" painter Board.standard).build = .ok ws' ∧
        painter.compile? = some c ∧ ws'.compile? = some c' ∧
        SameUpToNames c.steps.toList c'.steps.toList := by
  have reachable : painter.Reachable := ⟨_, Or.inr rfl⟩
  obtain ⟨trees, ws', c, c', unfolds, built, compiled, compiled', -, -, -, same⟩ :=
    reachable.compile_build_save start?_painter "0" Board.standard
  have all : painterTree.flatten maxDepth = _ := flatten_painterTree 63
  have above : painterTree.flatten (maxDepth - 1) = _ := flatten_painterTree 62
  rw [unfolds.unique unfolds_painter, List.flatMap_singleton, List.flatMap_singleton, all,
    above] at same
  exact ⟨reachable, ws', c, c', built, compiled, compiled', same.2 (SameUpToNames.refl _)⟩

/-! ### What a save reports -/

theorem listCutIds_cons (b : Block) (cut : Bool) (body trees : List Tree) :
    listCutIds (.node b cut body :: trees) =
      (if cut then [b.id] else []) ++ listCutIds body ++ listCutIds trees := by
  rw [listCutIds, Tree.cutIds]

/-- If no body is left out at a level, there are no steps below it. -/
theorem Unfolds.flatten_eq_of_not_cut {first : Option BlockId} {trees : List Tree}
    (h : ws.Unfolds first trees) {levels more : ℕ} (le : levels ≤ more)
    (whole : listCutIds (trees.map (Tree.prune levels)) = []) :
    trees.flatMap (Tree.flatten more) = trees.flatMap (Tree.flatten levels) := by
  induction h generalizing levels more with
  | nil => rfl
  | @cons k b body rest hk hbody _ ihBody ihRest =>
    rw [List.flatMap_cons, List.flatMap_cons]
    cases levels with
    | zero =>
      rw [List.map_cons, Tree.prune, listCutIds_cons, List.append_eq_nil_iff,
        List.append_eq_nil_iff] at whole
      obtain ⟨⟨root, -⟩, others⟩ := whole
      have bodiless : b.body = none := by
        by_contra owns
        rw [Tree.block, Option.isSome_iff_ne_none.2 owns] at root
        cases root
      rw [bodiless] at hbody
      cases hbody
      rw [ihRest (Nat.zero_le _) others]
      cases more <;> rfl
    | succ levels =>
      obtain ⟨more, rfl⟩ := Nat.exists_eq_add_of_le' le
      rw [List.map_cons, Tree.prune, listCutIds_cons, List.append_eq_nil_iff,
        List.append_eq_nil_iff] at whole
      obtain ⟨⟨-, inside⟩, others⟩ := whole
      have same := ihBody (Nat.le_add_left levels more) inside
      rw [ihRest le others]
      congr 1
      show b.expand (body.flatMap (Tree.flatten (more + levels))) = _
      rw [same]
      rfl

/-- A save that reports nothing does not change the program. -/
theorem Reachable.sameUpToNames_of_saveRecords (h : ws.Reachable) {start : Block}
    (hs : ws.start? = some start) (silent : Document.saveRecords ws = []) (stamp : String)
    (board : Board) :
    ∃ ws' c c', (Document.ofWorkspace stamp ws board).build = .ok ws' ∧ ws.compile? = some c ∧
      ws'.compile? = some c' ∧ SameUpToNames c.steps.toList c'.steps.toList := by
  have coherent := h.coherent
  obtain ⟨trees, unfolds⟩ := coherent.exists_start_body hs
  obtain ⟨ws', c, c', built, compiled, compiled', -, -, same⟩ :=
    coherent.compile_rebuilt hs unfolds stamp board
  refine ⟨ws', c, c', built, compiled, compiled', same.2 ?_⟩
  obtain ⟨rest, hstack⟩ := coherent.start_mem_stackTrees hs unfolds
  rw [Document.saveRecords, List.map_eq_nil_iff, List.flatMap_eq_nil_iff] at silent
  have whole := silent _ hstack
  rw [listCutIds_cons, List.append_eq_nil_iff, List.append_eq_nil_iff] at whole
  rw [unfolds.flatten_eq_of_not_cut (Nat.sub_le maxDepth 1) whole.1.2]
  exact SameUpToNames.refl _

/-! ### A program that saving changes -/

/-- Repeat blocks in each other, and a fill block in the innermost one. -/
def nested : ℕ → Node
  | 0 => .fill (generated 0) "red"
  | n + 1 => .repetition (generated (n + 1)) 1 [nested n]

/-- A document whose fill block is in the body of as many repeat blocks as there are levels. -/
def deep : Document where
  blocks := [[.start (generated (maxDepth + 1)) [nested maxDepth]]]

theorem id_nested (n : ℕ) : (nested n).id = generated n := by
  cases n <;> rfl

theorem ids_nested (n : ℕ) :
    listIds (listTrees [nested n]) = ((List.range (n + 1)).map generated).reverse := by
  induction n with
  | zero => rfl
  | succ n ih =>
    rw [ids_cons, id_nested, List.range_succ, List.map_append, List.reverse_append, ← ih]
    simp [nested, Node.body, listTrees]

theorem kinds_nested (n : ℕ) : ∀ b ∈ listBlocks (listTrees [nested n]),
    b.kind = .fill "red" ∨ b.kind = .repetition 1 := by
  induction n with
  | zero =>
    intro b hb
    rw [blocks_cons] at hb
    obtain rfl : b = _ := by simpa [nested, Node.body, listTrees] using hb
    exact Or.inl rfl
  | succ n ih =>
    intro b hb
    rw [blocks_cons, List.mem_cons, List.mem_append] at hb
    rcases hb with rfl | hb | hb
    · exact Or.inr rfl
    · exact ih b hb
    · exact absurd hb (by simp [listTrees])

/-- The fill block runs if there are as many levels as repeat blocks. -/
theorem flatten_nested (n levels : ℕ) :
    (listTrees [nested n]).flatMap (Tree.flatten levels) =
      if n ≤ levels then [.highlight (generated 0), .fill "red", .unhighlight (generated 0)]
      else [] := by
  induction n generalizing levels with
  | zero =>
    rw [if_pos (Nat.zero_le levels)]
    cases levels <;> rfl
  | succ n ih =>
    rw [listTrees_cons, listTrees, List.flatMap_singleton]
    cases levels with
    | zero => rfl
    | succ levels =>
      show (List.replicate 1 ((listTrees [nested n]).flatMap (Tree.flatten levels))).flatten = _
      rw [ih levels, List.replicate_one, List.flatten_singleton]
      simp

/-- A document with nested repeat blocks builds a program whose start block's body they are. -/
theorem exists_build_nested (n : ℕ) :
    ∃ ws start, Document.build { blocks := [[.start (generated (n + 1)) [nested n]]] } = .ok ws ∧
      Stacked empty [[.start (generated (n + 1)) [nested n]]] ws ∧
      ws.start? = some start ∧ ws.Unfolds start.body (listTrees [nested n]) := by
  refine Document.exists_build_program ?_ fun b hb isStart => ?_
  · have ids : generated (n + 1) :: listIds (listTrees [nested n]) =
        ((List.range (n + 2)).map generated).reverse := by
      rw [List.range_succ, List.map_append, List.reverse_append, ← ids_nested]
      rfl
    rw [ids, List.nodup_reverse]
    exact List.nodup_range.map generated_injective
  · rcases kinds_nested n b hb with kind | kind <;> simp [kind] at isStart

theorem exists_build_deep :
    ∃ ws start, deep.build = .ok ws ∧ ws.start? = some start ∧
      ws.Unfolds start.body (listTrees [nested maxDepth]) := by
  obtain ⟨ws, start, built, -, found, unfolds⟩ := exists_build_nested maxDepth
  exact ⟨ws, start, built, found, unfolds⟩

/-- The deep program runs, but not after it was saved and built again. -/
theorem not_sameUpToNames_deep :
    ∃ ws ws' c c', deep.build = .ok ws ∧ ws.Reachable ∧ ws.start?.isSome ∧
      (Document.ofWorkspace "0" ws Board.standard).build = .ok ws' ∧
      ws.compile? = some c ∧ ws'.compile? = some c' ∧
      c.steps.toList = [.highlight "blk0", .fill "red", .unhighlight "blk0"] ∧
      c'.steps.toList = [] ∧ ¬ SameUpToNames c.steps.toList c'.steps.toList := by
  obtain ⟨ws, start, built, hs, unfolds⟩ := exists_build_deep
  have reachable := reachable_of_build built
  obtain ⟨ws', c, c', rebuilt, compiled, compiled', steps, steps', -⟩ :=
    reachable.coherent.compile_rebuilt hs unfolds "0" Board.standard
  have name : generated 0 = "blk0" := by decide
  rw [flatten_nested, if_pos (Nat.le_refl _), name] at steps
  rw [flatten_nested, if_neg (by decide), List.take_nil] at steps'
  refine ⟨ws, ws', c, c', built, reachable, by rw [hs]; rfl, rebuilt, compiled, compiled',
    steps.trans (List.take_of_length_le (by decide)), steps', ?_⟩
  rintro ⟨ρ, -, same⟩
  rw [steps, steps', List.take_of_length_le (by decide)] at same
  cases same

end Workspace

end BlockBoard
