import BlockBoard.Proofs.Project.RoundTrip
import BlockBoard.Proofs.Project.Refusals

/-!
# What building a save gives back

A document that builds gives its stacks, completed by an empty start block if it has none
(`Document.exists_stacked_of_build`). If no block of a workspace lies more than `maxDepth` bodies
below its stack, nothing is left out when it is saved. Then what is built again is a copy under new
names of all that is reached from the top level, completed in the same way
(`Reachable.build_save_copies`).
-/

namespace BlockBoard

open Relation Workspace

/-! ### Completed documents -/

/-- The blocks of some stacks. -/
def stackBlocks (lists : List (List Node)) : List Block :=
  lists.flatMap fun stack => listBlocks (listTrees stack)

theorem mem_stackBlocks {lists : List (List Node)} {b : Block} :
    b ∈ stackBlocks lists ↔ ∃ stack ∈ lists, b ∈ listBlocks (listTrees stack) :=
  List.mem_flatMap

theorem stackBlocks_append (lists lists' : List (List Node)) :
    stackBlocks (lists ++ lists') = stackBlocks lists ++ stackBlocks lists' :=
  List.flatMap_append

theorem stackIds_eq (lists : List (List Node)) :
    stackIds lists = (stackBlocks lists).map Block.id := by
  rw [stackBlocks, List.map_flatMap]
  rfl

/-- The stacks that complete a document: an empty start block if it has none. -/
inductive Document.Completion (d : Document) : List (List Node) → Prop
  | none : (∃ u ∈ d.entries, u.kind = .start) → d.Completion []
  | start {id : BlockId} : (∀ u ∈ d.entries, u.kind ≠ .start) → id ∉ d.entries.map Entry.id →
      d.Completion [[.start id []]]

theorem Document.exists_start_iff (d : Document) :
    (∃ u ∈ d.entries, u.kind = .start) ↔ ∃ b ∈ stackBlocks d.blocks, b.kind = .start := by
  have kinds : d.entries.map Entry.kind = (stackBlocks d.blocks).map Block.kind := by
    rw [entries, stackBlocks, List.map_flatMap, List.map_flatMap]
    exact congrArg d.blocks.flatMap (funext (map_kind_listEntries 0 true))
  rw [← List.mem_map, kinds, List.mem_map]

namespace Workspace

variable {ws ws' : Workspace}

theorem Coherent.isSome_start?_iff (c : ws.Coherent) :
    ws.start?.isSome ↔ ∃ k b, ws.get? k = some b ∧ b.kind = .start := by
  rw [start?, List.find?_isSome]
  constructor
  · rintro ⟨b, hb, start⟩
    obtain ⟨k, -, stored⟩ := List.mem_filterMap.1 hb
    exact ⟨k, b, stored, of_decide_eq_true start⟩
  · rintro ⟨k, b, stored, start⟩
    exact ⟨b, List.mem_filterMap.2 ⟨k, c.start_mem_top stored start, stored⟩,
      decide_eq_true start⟩

namespace Stacked

variable {lists : List (List Node)}

theorem get?_eq_some_iff (h : Stacked empty lists ws) {k : BlockId} {b : Block} :
    ws.get? k = some b ↔ b ∈ stackBlocks lists ∧ b.id = k := by
  rw [mem_stackBlocks]
  constructor
  · intro stored
    exact ⟨h.exists_mem_of_get? stored, h.coherent.id_eq stored⟩
  · rintro ⟨⟨stack, hs, hb⟩, rfl⟩
    exact h.stored stack hs b hb

theorem isSome_get?_iff (h : Stacked empty lists ws) {k : BlockId} :
    (ws.get? k).isSome ↔ k ∈ stackIds lists := by
  rw [stackIds_eq, Option.isSome_iff_exists, List.mem_map]
  exact exists_congr fun b => h.get?_eq_some_iff

/-- A start block that is added is one more stack. -/
theorem add (h : Stacked empty lists ws) :
    Stacked empty (lists ++ [[.start ws.freshId []]]) (ws.add .start).1 := by
  have blocks : listBlocks (listTrees [.start ws.freshId []]) =
      [{ id := ws.freshId, kind := .start }] := rfl
  constructor
  case coherent => exact h.coherent.add .start
  case stored =>
    intro stack hs b hb
    rw [get?_add]
    rcases List.mem_append.1 hs with hs | hs
    · have stored := h.stored stack hs b hb
      rw [if_neg (ws.freshId_ne_of_get? stored), stored]
    · obtain rfl := List.mem_singleton.1 hs
      obtain rfl := List.mem_singleton.1 (blocks ▸ hb)
      rw [if_pos rfl]
  case others =>
    intro k hk
    rw [stackIds, List.flatMap_append, List.mem_append, not_or, List.flatMap_singleton] at hk
    have ne : ws.freshId ≠ k := by
      rintro rfl
      exact hk.2 (List.mem_singleton_self _)
    rw [get?_add, if_neg ne, h.others k hk.1]
  case top_eq =>
    rw [top_add, h.top_eq, List.filterMap_append, List.append_assoc]
    rfl

end Stacked

end Workspace

/-- What is built are the stacks of the document, completed. -/
theorem Document.exists_stacked_of_build {d : Document} {ws : Workspace} (h : d.build = .ok ws) :
    ∃ extra, d.Completion extra ∧ Stacked empty (d.blocks ++ extra) ws := by
  obtain ⟨ws₁, added, built⟩ := bind_eq_ok_iff.1 h
  obtain rfl := Except.ok.inj built
  have fine : refusal? [] d.entries = none := by
    rw [refusal?_eq_none_iff]
    obtain ⟨nodup, starts⟩ := exists_build_eq_ok_iff.1 ⟨_, h⟩
    exact ⟨nodup, by simp, starts⟩
  obtain ⟨ws₁, added', stacked⟩ := exists_stacked_of_refusal? fine
  obtain rfl := Except.ok.inj (added.symm.trans added')
  have started : ws₁.start?.isSome ↔ ∃ u ∈ d.entries, u.kind = .start := by
    rw [stacked.coherent.isSome_start?_iff, d.exists_start_iff]
    constructor
    · rintro ⟨k, b, stored, start⟩
      exact ⟨b, (stacked.get?_eq_some_iff.1 stored).1, start⟩
    · rintro ⟨b, hb, start⟩
      exact ⟨b.id, b, stacked.get?_eq_some_iff.2 ⟨hb, rfl⟩, start⟩
  unfold ensureStart
  cases found : ws₁.start? with
  | some b =>
    refine ⟨[], .none (started.1 (by rw [found]; rfl)), ?_⟩
    rwa [List.append_nil]
  | none =>
    refine ⟨[[.start ws₁.freshId []]], .start (fun u hu start => ?_) ?_, stacked.add⟩
    · have := started.2 ⟨u, hu, start⟩
      rw [found] at this
      cases this
    · rw [d.map_id_entries, ← stacked.isSome_get?_iff, get?_freshId]
      exact Bool.false_ne_true

/-! ### Blocks that are reached -/

namespace Workspace

variable {ws : Workspace}

/-- A block is reached from the top level, and lies a number of bodies below it. -/
inductive Lies (ws : Workspace) : ℕ → BlockId → Prop
  | top {k : BlockId} : k ∈ ws.top → ws.Lies 0 k
  | after {n : ℕ} {p k : BlockId} : ws.Lies n p → ws.target? p .next = some k → ws.Lies n k
  | inside {n : ℕ} {p k : BlockId} :
      ws.Lies n p → ws.target? p .body = some k → ws.Lies (n + 1) k

theorem lies_of_mem_top {t : BlockId} (ht : t ∈ ws.top) : ∀ k ∈ some t, ws.Lies 0 k := by
  rintro _ ⟨⟩
  exact .top ht

theorem Lies.of_body {n : ℕ} {k c : BlockId} {b : Block} (h : ws.Lies n k)
    (hk : ws.get? k = some b) (hc : c ∈ b.body) : ws.Lies (n + 1) c :=
  h.inside ((target?_of_get? hk .body).trans hc)

theorem Lies.of_next {n : ℕ} {k c : BlockId} {b : Block} (h : ws.Lies n k)
    (hk : ws.get? k = some b) (hc : c ∈ b.next) : ws.Lies n c :=
  h.after ((target?_of_get? hk .next).trans hc)

theorem exists_lies_iff {k : BlockId} :
    (∃ n, ws.Lies n k) ↔ ∃ t ∈ ws.top, ReflTransGen ws.Leads t k := by
  constructor
  · rintro ⟨n, lies⟩
    induction lies with
    | @top k hk => exact ⟨k, hk, .refl⟩
    | after _ leads ih | inside _ leads ih =>
      obtain ⟨t, ht, reach⟩ := ih
      exact ⟨t, ht, reach.tail ⟨_, leads⟩⟩
  · rintro ⟨t, ht, reach⟩
    induction reach with
    | refl => exact ⟨0, .top ht⟩
    | tail _ step ih =>
      obtain ⟨n, lies⟩ := ih
      obtain ⟨_ | _, leads⟩ := step
      · exact ⟨n + 1, lies.inside leads⟩
      · exact ⟨n, lies.after leads⟩

theorem Coherent.exists_stored_of_lies (c : ws.Coherent) {n : ℕ} {k : BlockId}
    (lies : ws.Lies n k) : ∃ b, ws.get? k = some b := by
  rw [← Option.isSome_iff_exists]
  cases lies with
  | top hk => exact c.top_stored hk
  | after _ leads | inside _ leads => exact c.target_stored leads

/-- If nothing lies deeper than the levels that are kept, pruning changes nothing. -/
theorem Unfolds.map_prune_eq_self {first : Option BlockId} {trees : List Tree}
    (h : ws.Unfolds first trees) {levels n : ℕ} (lies : ∀ k ∈ first, ws.Lies n k)
    (le : n ≤ levels) (shallow : ∀ m k, ws.Lies m k → m ≤ levels) :
    trees.map (Tree.prune (levels - n)) = trees := by
  induction h generalizing n with
  | nil => rfl
  | @cons k b body rest hk hbody _ ihBody ihRest =>
    have here := lies k rfl
    have inside : ∀ c ∈ b.body, ws.Lies (n + 1) c := fun _ => here.of_body hk
    have rest := ihRest (fun _ => here.of_next hk) le
    rw [List.map_cons, rest, prune_node_eq_self]
    · intro m level
      obtain rfl : m = levels - (n + 1) := by omega
      exact ihBody inside (by omega)
    · -- A body at the last level would lie deeper.
      intro last
      have bodiless : b.body = none := by
        by_contra owns
        obtain ⟨c, hc⟩ := Option.ne_none_iff_exists'.1 owns
        have := shallow _ c (inside c hc)
        omega
      rw [bodiless] at hbody
      cases hbody
      exact ⟨bodiless, rfl⟩

/-- Nothing is left out of the stacks of a workspace in which nothing lies too deep. -/
theorem Coherent.stackTrees_of_shallow (c : ws.Coherent)
    (shallow : ∀ n k, ws.Lies n k → n ≤ maxDepth) {trees : BlockId → List Tree}
    (unfolds : ∀ t ∈ ws.top, ws.Unfolds (some t) (trees t)) :
    ws.stackTrees = ws.top.map trees := by
  rw [c.stackTrees_eq unfolds]
  refine List.map_congr_left fun t ht => ?_
  exact (unfolds t ht).map_prune_eq_self (lies_of_mem_top ht) (Nat.zero_le _) shallow

end Workspace

/-! ### Copies -/

/-- The block under another name, with its links to the blocks under theirs. -/
def Block.rename (ρ : BlockId → BlockId) (b : Block) : Block where
  id := ρ b.id
  kind := b.kind
  body := b.body.map ρ
  next := b.next.map ρ

section Copies

variable {ρ : BlockId → BlockId} {ws : Workspace}

/-- The blocks of nodes that stand for a list of a workspace are copies of its blocks. -/
theorem Saves.copies (c : ws.Coherent) {first : Option BlockId} {trees : List Tree}
    (unfolds : ws.Unfolds first trees) {nodes : List Node} (h : Saves ρ nodes trees) :
    headId nodes = first.map ρ ∧
      listBlocks (listTrees nodes) = (listBlocks trees).map (Block.rename ρ) := by
  induction unfolds generalizing nodes with
  | nil =>
    cases h
    exact ⟨rfl, rfl⟩
  | @cons k b body rest hk _ _ ihBody ihRest =>
    cases h with
    | @cons node nodes _ _ _ _ id kind savesBody savesRest =>
      obtain ⟨headBody, inside⟩ := ihBody savesBody
      obtain ⟨headRest, after⟩ := ihRest savesRest
      constructor
      · rw [Option.map_some, ← c.id_eq hk, ← id]
        rfl
      · rw [blocks_cons, listBlocks_cons, List.map_cons, List.map_append, inside, after,
          Node.block, headBody, headRest, id, kind]
        rfl

/-- The stacks of a save hold a copy of each block of the stacks of the workspace. -/
theorem stackBlocks_of_saves (c : ws.Coherent) {trees : BlockId → List Tree}
    {top : List BlockId} (unfolds : ∀ t ∈ top, ws.Unfolds (some t) (trees t))
    {written : List (List Node)} (saves : List.Forall₂ (Saves ρ) written (top.map trees)) :
    written.filterMap headId = top.map ρ ∧
      stackBlocks written = (top.flatMap fun t => listBlocks (trees t)).map (Block.rename ρ) := by
  induction top generalizing written with
  | nil =>
    cases saves
    exact ⟨rfl, rfl⟩
  | cons t top ih =>
    cases saves with
    | @cons nodes _ written _ first rest =>
      obtain ⟨head, blocks⟩ := first.copies c (unfolds t List.mem_cons_self)
      obtain ⟨heads, others⟩ := ih (fun t ht => unfolds t (List.mem_cons_of_mem _ ht)) rest
      constructor
      · rw [List.filterMap_cons, head, heads]
        rfl
      · rw [List.flatMap_cons, List.map_append, ← blocks, ← others]
        rfl

end Copies

namespace Workspace

variable {ws : Workspace}

namespace Coherent

variable (c : ws.Coherent)
include c

/-- The blocks of the stacks of a workspace are the stored blocks that are reached. -/
theorem mem_stack_iff {trees : BlockId → List Tree}
    (unfolds : ∀ t ∈ ws.top, ws.Unfolds (some t) (trees t)) {b : Block} :
    b ∈ (ws.top.flatMap fun t => listBlocks (trees t)) ↔
      ∃ n, ws.Lies n b.id ∧ ws.get? b.id = some b := by
  rw [exists_and_right, exists_lies_iff, List.mem_flatMap]
  constructor
  · rintro ⟨t, ht, hb⟩
    exact ⟨⟨t, ht, ((unfolds t ht).mem_ids_iff_reach c).1 (mem_listIds hb)⟩,
      (unfolds t ht).get?_of_mem c hb⟩
  · rintro ⟨⟨t, ht, reach⟩, stored⟩
    obtain ⟨b', hb', same⟩ := List.mem_map.1 (((unfolds t ht).mem_ids_iff_reach c).2 reach)
    have stored' := (unfolds t ht).get?_of_mem c hb'
    rw [same] at stored'
    obtain rfl := Option.some.inj (stored.symm.trans stored')
    exact ⟨t, ht, hb'⟩

variable (shallow : ∀ n k, ws.Lies n k → n ≤ maxDepth)
include shallow

theorem mem_keptIds_of_lies {n : ℕ} {k : BlockId} (lies : ws.Lies n k) : k ∈ ws.keptIds := by
  obtain ⟨trees, unfolds, -⟩ := c.exists_stacks
  obtain ⟨t, ht, reach⟩ := exists_lies_iff.1 ⟨n, lies⟩
  rw [keptIds, c.stackTrees_of_shallow shallow unfolds, List.flatMap_map]
  exact List.mem_flatMap.2 ⟨t, ht, ((unfolds t ht).mem_ids_iff_reach c).2 reach⟩

/-- A save holds copies of the blocks that are reached. -/
theorem copies_save (stamp : String) (board : Board) :
    (Document.ofWorkspace stamp ws board).blocks.filterMap headId =
        ws.top.map (savedNames stamp ws.keptIds) ∧
      ∀ b', b' ∈ stackBlocks (Document.ofWorkspace stamp ws board).blocks ↔
        ∃ n k b, ws.Lies n k ∧ ws.get? k = some b ∧
          b' = b.rename (savedNames stamp ws.keptIds) := by
  obtain ⟨trees, unfolds, -⟩ := c.exists_stacks
  have saves := c.saves stamp board
  rw [c.stackTrees_of_shallow shallow unfolds] at saves
  obtain ⟨heads, copies⟩ := stackBlocks_of_saves c unfolds saves
  refine ⟨heads, fun b' => ?_⟩
  rw [copies, List.mem_map]
  constructor
  · rintro ⟨b, hb, rfl⟩
    obtain ⟨n, lies, stored⟩ := (c.mem_stack_iff unfolds).1 hb
    exact ⟨n, b.id, b, lies, stored, rfl⟩
  · rintro ⟨n, k, b, lies, stored, rfl⟩
    obtain rfl := c.id_eq stored
    exact ⟨b, (c.mem_stack_iff unfolds).2 ⟨n, lies, stored⟩, rfl⟩

theorem mem_stackIds_save (stamp : String) (board : Board) {k : BlockId} :
    k ∈ stackIds (Document.ofWorkspace stamp ws board).blocks ↔
      ∃ n j, ws.Lies n j ∧ savedNames stamp ws.keptIds j = k := by
  rw [stackIds_eq, List.mem_map]
  constructor
  · rintro ⟨b', hb', rfl⟩
    obtain ⟨n, j, b, lies, stored, rfl⟩ := ((c.copies_save shallow stamp board).2 b').1 hb'
    obtain rfl := c.id_eq stored
    exact ⟨n, b.id, lies, rfl⟩
  · rintro ⟨n, j, lies, rfl⟩
    obtain ⟨b, stored⟩ := c.exists_stored_of_lies lies
    obtain rfl := c.id_eq stored
    exact ⟨_, ((c.copies_save shallow stamp board).2 _).2 ⟨n, b.id, b, lies, stored, rfl⟩, rfl⟩

/-- A save has a start block exactly if the workspace has one, since all start blocks are at the top
level. -/
theorem exists_start_save_iff (stamp : String) (board : Board) :
    (∃ u ∈ (Document.ofWorkspace stamp ws board).entries, u.kind = .start) ↔
      ∃ k b, ws.get? k = some b ∧ b.kind = .start := by
  rw [Document.exists_start_iff]
  constructor
  · rintro ⟨b', hb', start⟩
    obtain ⟨n, k, b, -, stored, rfl⟩ := ((c.copies_save shallow stamp board).2 b').1 hb'
    exact ⟨k, b, stored, start⟩
  · rintro ⟨k, b, stored, start⟩
    have lies := Lies.top (c.start_mem_top stored start)
    exact ⟨_, ((c.copies_save shallow stamp board).2 _).2 ⟨0, k, b, lies, stored, rfl⟩, start⟩

end Coherent

/-- A workspace in which no block that is reached from the top level lies more than `maxDepth`
bodies below it can be saved and built again. Every block that is reached comes back under a new
name, with its type and its links, and the top level keeps its order. Nothing else comes back, but
an empty start block is added at the end of the top level exactly if there was no start block. -/
theorem Reachable.build_save_copies (h : ws.Reachable)
    (shallow : ∀ n k, ws.Lies n k → n ≤ maxDepth) (stamp : String) (board : Board) :
    ∃ ws' ρ extra, (Document.ofWorkspace stamp ws board).build = .ok ws' ∧
      Set.InjOn ρ {k | ∃ n, ws.Lies n k} ∧
      (∀ n k b, ws.Lies n k → ws.get? k = some b → ws'.get? (ρ k) = some (b.rename ρ)) ∧
      (∀ k, (ws'.get? k).isSome ↔ (∃ n j, ws.Lies n j ∧ ρ j = k) ∨ k ∈ extra) ∧
      ws'.top = ws.top.map ρ ++ extra ∧
      ((∃ k b, ws.get? k = some b ∧ b.kind = .start) ∧ extra = [] ∨
        (∀ k b, ws.get? k = some b → b.kind ≠ .start) ∧
          ∃ id, extra = [id] ∧ ws'.get? id = some { id, kind := .start } ∧
            ∀ n k, ws.Lies n k → ρ k ≠ id) := by
  have c := h.coherent
  obtain ⟨ws', built⟩ := c.exists_build_save stamp board
  obtain ⟨extra, completion, stacked⟩ := Document.exists_stacked_of_build built
  obtain ⟨heads, copies⟩ := c.copies_save shallow stamp board
  have named := fun k => c.mem_stackIds_save shallow stamp board (k := k)
  have started := c.exists_start_save_iff shallow stamp board
  have inj : Set.InjOn (savedNames stamp ws.keptIds) {k | ∃ n, ws.Lies n k} :=
    fun k ⟨n, lies⟩ _ _ same => savedNames_inj (c.mem_keptIds_of_lies shallow lies) same
  generalize savedNames stamp ws.keptIds = ρ at heads copies named inj
  have stored : ∀ n k b, ws.Lies n k → ws.get? k = some b →
      ws'.get? (ρ k) = some (b.rename ρ) := by
    intro n k b lies hb
    rw [stacked.get?_eq_some_iff, stackBlocks_append, List.mem_append, ← c.id_eq hb]
    exact ⟨Or.inl ((copies _).2 ⟨n, k, b, lies, hb, rfl⟩), rfl⟩
  have all : ∀ k, (ws'.get? k).isSome ↔ (∃ n j, ws.Lies n j ∧ ρ j = k) ∨ k ∈ stackIds extra := by
    intro k
    rw [stacked.isSome_get?_iff, ← named, stackIds_eq, stackBlocks_append, List.map_append,
      List.mem_append, ← stackIds_eq, ← stackIds_eq]
  have top : ws'.top = ws.top.map ρ ++ extra.filterMap headId := by
    rw [stacked.top_eq, List.filterMap_append, heads, top_empty, List.nil_append]
  cases completion with
  | none start =>
    exact ⟨ws', ρ, [], built, inj, stored, all, top, Or.inl ⟨started.1 start, rfl⟩⟩
  | @start id noStart fresh =>
    refine ⟨ws', ρ, [id], built, inj, stored, all, top, Or.inr ⟨fun k b hb start => ?_, id, rfl,
      ?_, fun n k lies same => ?_⟩⟩
    · obtain ⟨u, hu, isStart⟩ := started.2 ⟨k, b, hb, start⟩
      exact noStart u hu isStart
    · rw [stacked.get?_eq_some_iff, stackBlocks_append, List.mem_append]
      exact ⟨Or.inr (List.mem_singleton_self _), rfl⟩
    · rw [Document.map_id_entries, named] at fresh
      exact fresh ⟨n, k, lies, same⟩

theorem lies_painter {n : ℕ} {k : BlockId} (h : painter.Lies n k) :
    n = 0 ∧ k = "blk0" ∨ n = 1 ∧ k = "loop" ∨ n = 2 ∧ k = "paint" := by
  induction h with
  | top hk =>
    rw [top_painter, List.mem_singleton] at hk
    exact Or.inl ⟨rfl, hk⟩
  | after _ leads ih =>
    rcases ih with ⟨-, rfl⟩ | ⟨-, rfl⟩ | ⟨-, rfl⟩
    · simp [target?_of_get? get?_painter_start, Block.target] at leads
    · simp [target?_of_get? get?_painter_loop, Block.target] at leads
    · simp [target?_of_get? get?_painter_paint, Block.target] at leads
  | inside _ leads ih =>
    rcases ih with ⟨rfl, rfl⟩ | ⟨rfl, rfl⟩ | ⟨-, rfl⟩
    · rw [target?_of_get? get?_painter_start] at leads
      exact Or.inr (Or.inl ⟨rfl, (Option.some.inj leads).symm⟩)
    · rw [target?_of_get? get?_painter_loop] at leads
      exact Or.inr (Or.inr ⟨rfl, (Option.some.inj leads).symm⟩)
    · simp [target?_of_get? get?_painter_paint, Block.target] at leads

/-- The painter comes back with its repeat block around its fill block. -/
theorem Reachable.build_save_copies_painter :
    painter.Reachable ∧ (∀ n k, painter.Lies n k → n ≤ maxDepth) ∧
      ∃ (ws' : Workspace) (ρ : BlockId → BlockId),
        (Document.ofWorkspace "0" painter Board.standard).build = .ok ws' ∧
        ws'.top = [ρ "blk0"] ∧ ws'.get? (ρ "loop") =
          some { id := ρ "loop", kind := .repetition 300, body := some (ρ "paint") } := by
  have reachable : painter.Reachable := ⟨_, Or.inr rfl⟩
  have shallow : ∀ n k, painter.Lies n k → n ≤ maxDepth := by
    intro n k lies
    rcases lies_painter lies with ⟨rfl, -⟩ | ⟨rfl, -⟩ | ⟨rfl, -⟩ <;> decide
  obtain ⟨ws', ρ, extra, built, -, stored, -, top, ⟨-, rfl⟩ | ⟨noStart, -⟩⟩ :=
    reachable.build_save_copies shallow "0" Board.standard
  · have start : painter.Lies 0 "blk0" := .top (top_painter ▸ List.mem_singleton_self _)
    have loop : painter.Lies 1 "loop" := start.inside (target?_of_get? get?_painter_start .body)
    exact ⟨reachable, shallow, ws', ρ, built, by rw [top, top_painter]; rfl,
      stored 1 "loop" _ loop get?_painter_loop⟩
  · exact absurd rfl (noStart "blk0" _ get?_painter_start)

end Workspace

end BlockBoard
