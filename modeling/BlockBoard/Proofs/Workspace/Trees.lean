import Mathlib.Data.List.Flatten
import BlockBoard.Program.Forest
import BlockBoard.Proofs.Workspace.Edits

/-!
# The trees below the top level

What is reached from the top level of a coherent workspace is a finite forest, even where other
links run in a circle: each list of blocks unfolds into trees (`Coherent.exists_unfolds`), which
hold no block twice (`Coherent.nodup_ids`). So `forest` shows all of a list down to its number of
levels (`Unfolds.forest_eq`).
-/

namespace BlockBoard

open Relation

mutual

/-- The blocks of a tree, each before those of its body. -/
def Tree.blocks : Tree → List Block
  | .node block _ body => block :: listBlocks body

/-- The blocks of trees. -/
def listBlocks : List Tree → List Block
  | [] => []
  | tree :: trees => tree.blocks ++ listBlocks trees

end

/-- The names of the blocks of trees. -/
def listIds (trees : List Tree) : List BlockId :=
  (listBlocks trees).map Block.id

@[simp]
theorem listBlocks_nil : listBlocks [] = [] := rfl

theorem listBlocks_cons (b : Block) (cut : Bool) (body trees : List Tree) :
    listBlocks (.node b cut body :: trees) = b :: (listBlocks body ++ listBlocks trees) := by
  rw [listBlocks, Tree.blocks, List.cons_append]

@[simp]
theorem listIds_nil : listIds [] = [] := rfl

theorem listIds_cons (b : Block) (cut : Bool) (body trees : List Tree) :
    listIds (.node b cut body :: trees) = b.id :: (listIds body ++ listIds trees) := by
  rw [listIds, listBlocks_cons, List.map_cons, List.map_append]
  rfl

theorem listBlocks_eq_flatMap (trees : List Tree) :
    listBlocks trees = trees.flatMap Tree.blocks := by
  induction trees with
  | nil => rfl
  | cons tree trees ih => rw [listBlocks, List.flatMap_cons, ih]

/-- The first block of trees. -/
def headBlock (trees : List Tree) : Option Block :=
  trees.head?.map Tree.block

/-- The tree with bodies for a number of levels. -/
def Tree.prune : (levels : ℕ) → Tree → Tree
  | 0, tree => .node tree.block tree.block.body.isSome []
  | levels + 1, tree => .node tree.block false (tree.body.map (prune levels))

/-- A tree stays as it is if its branches do, and if there are none at the last level. -/
theorem prune_node_eq_self {levels : ℕ} {b : Block} {body : List Tree}
    (inside : ∀ n, levels = n + 1 → body.map (Tree.prune n) = body)
    (bodiless : levels = 0 → b.body = none ∧ body = []) :
    Tree.prune levels (.node b false body) = .node b false body := by
  cases levels with
  | zero =>
    obtain ⟨none, rfl⟩ := bodiless rfl
    rw [Tree.prune]
    show Tree.node b b.body.isSome [] = _
    rw [none]
    rfl
  | succ n =>
    rw [Tree.prune]
    show Tree.node b false (body.map _) = _
    rw [inside n rfl]

theorem blocks_prune_sublist (levels : ℕ) (tree : Tree) :
    (tree.prune levels).blocks.Sublist tree.blocks := by
  induction levels generalizing tree with
  | zero =>
    obtain ⟨b, cut, body⟩ := tree
    exact (List.nil_sublist _).cons_cons b
  | succ levels ih =>
    obtain ⟨b, cut, body⟩ := tree
    rw [Tree.prune, Tree.blocks, Tree.blocks, listBlocks_eq_flatMap, listBlocks_eq_flatMap,
      List.flatMap_map]
    exact (List.Sublist.flatMap_right body fun t _ => ih t).cons_cons b

/-- Pruning leaves some of the blocks, in their order. -/
theorem listBlocks_prune_sublist (levels : ℕ) (trees : List Tree) :
    (listBlocks (trees.map (Tree.prune levels))).Sublist (listBlocks trees) := by
  rw [listBlocks_eq_flatMap, listBlocks_eq_flatMap, List.flatMap_map]
  exact List.Sublist.flatMap_right trees fun t _ => blocks_prune_sublist levels t

namespace Workspace

variable {ws : Workspace}

/-- The list of blocks from a given one on unfolds into some trees: all links were followed, to the
ends of all lists. -/
inductive Unfolds (ws : Workspace) : Option BlockId → List Tree → Prop
  | nil : ws.Unfolds none []
  | cons {k : BlockId} {b : Block} {body rest : List Tree} :
      ws.get? k = some b → ws.Unfolds b.body body → ws.Unfolds b.next rest →
      ws.Unfolds (some k) (.node b false body :: rest)

namespace Unfolds

variable {first : Option BlockId} {trees trees' : List Tree}

theorem unique (h : ws.Unfolds first trees) (h' : ws.Unfolds first trees') : trees = trees' := by
  induction h generalizing trees' with
  | nil => cases h'; rfl
  | cons hk _ _ ihBody ihRest =>
    cases h' with
    | cons hk' body rest =>
      obtain rfl := Option.some.inj (hk.symm.trans hk')
      rw [ihBody body, ihRest rest]

theorem lists (h : ws.Unfolds first trees) : ws.Lists first (trees.map Tree.block) := by
  induction h with
  | nil => exact .nil
  | cons hk _ _ _ ih => exact .cons hk ih

/-- The walk along a list meets the roots of its trees. -/
theorem chain_eq (c : ws.Coherent) (h : ws.Unfolds first trees) :
    ws.chain first = trees.map Tree.block :=
  h.lists.chain_eq c

theorem forest_eq (c : ws.Coherent) (h : ws.Unfolds first trees) (levels : ℕ) :
    ws.forest levels first = trees.map (Tree.prune levels) := by
  induction h generalizing levels with
  | nil => cases levels <;> simp [forest, (Unfolds.nil : ws.Unfolds none []).chain_eq c]
  | @cons k b body rest hk hbody hrest ihBody ihRest =>
    have chain : ws.chain (some k) = b :: ws.chain b.next := by
      rw [(Unfolds.cons hk hbody hrest).chain_eq c, hrest.chain_eq c]
      rfl
    cases levels with
    | zero =>
      have := ihRest 0
      rw [forest] at this ⊢
      rw [chain, List.map_cons, this]
      rfl
    | succ levels =>
      have := ihRest (levels + 1)
      rw [forest] at this ⊢
      rw [chain, List.map_cons, this, ihBody levels]
      rfl

/-- The blocks of the trees are stored. -/
theorem get?_of_mem (c : ws.Coherent) (h : ws.Unfolds first trees) {b : Block}
    (hb : b ∈ listBlocks trees) : ws.get? b.id = some b := by
  induction h with
  | nil => exact absurd hb List.not_mem_nil
  | cons hk _ _ ihBody ihRest =>
    rw [listBlocks_cons, List.mem_cons, List.mem_append] at hb
    rcases hb with rfl | hb | hb
    · rwa [c.id_eq hk]
    · exact ihBody hb
    · exact ihRest hb

/-- The trees of a list hold what is reached from its first block. -/
theorem mem_ids_iff (c : ws.Coherent) (h : ws.Unfolds first trees) {x : BlockId} :
    x ∈ listIds trees ↔ ∃ k, first = some k ∧ ReflTransGen ws.Leads k x := by
  induction h with
  | nil => simp
  | @cons k b body rest hk _ _ ihBody ihRest =>
    rw [listIds_cons, List.mem_cons, List.mem_append, ihBody, ihRest, c.id_eq hk]
    have leads : ∀ {l m}, b.target l = some m → ws.Leads k m :=
      fun hl => ⟨_, (target?_of_get? hk _).trans hl⟩
    constructor
    · rintro (rfl | ⟨m, hm, hx⟩ | ⟨m, hm, hx⟩)
      · exact ⟨x, rfl, .refl⟩
      · exact ⟨k, rfl, .head (leads (l := .body) hm) hx⟩
      · exact ⟨k, rfl, .head (leads (l := .next) hm) hx⟩
    · rintro ⟨m, hm, hx⟩
      obtain rfl := Option.some.inj hm
      rcases ReflTransGen.cases_head hx with rfl | ⟨m, ⟨l, hm⟩, hx⟩
      · exact Or.inl rfl
      · rw [target?_of_get? hk] at hm
        cases l with
        | body => exact Or.inr (Or.inl ⟨m, hm, hx⟩)
        | next => exact Or.inr (Or.inr ⟨m, hm, hx⟩)

theorem mem_ids_iff_reach (c : ws.Coherent) {k : BlockId} (h : ws.Unfolds (some k) trees)
    {x : BlockId} : x ∈ listIds trees ↔ ReflTransGen ws.Leads k x := by
  simp [h.mem_ids_iff c]

end Unfolds

namespace Coherent

/-- Of two blocks from which one is reached, one is reached from the other. -/
theorem reach_total (h : ws.Coherent) {a b x : BlockId} (ha : ReflTransGen ws.Leads a x)
    (hb : ReflTransGen ws.Leads b x) : ReflTransGen ws.Leads a b ∨ ReflTransGen ws.Leads b a := by
  have unique : Relator.RightUnique (Function.swap ws.Leads) :=
    fun _ _ _ hp hq => h.leads_unique hp hq
  rcases ReflTransGen.total_of_right_unique unique (reflTransGen_swap.2 ha)
    (reflTransGen_swap.2 hb) with hab | hba
  · exact Or.inr (reflTransGen_swap.1 hab)
  · exact Or.inl (reflTransGen_swap.1 hba)

/-- If the two links of a block lead to one place, the block is on a circle. -/
theorem circle_of_reach (h : ws.Coherent) {k a b x : BlockId} {l m : Link} (ne : l ≠ m)
    (ha : ws.target? k l = some a) (hb : ws.target? k m = some b)
    (hax : ReflTransGen ws.Leads a x) (hbx : ReflTransGen ws.Leads b x) :
    TransGen ws.Leads k k := by
  have down : ∀ {a b l m}, l ≠ m → ws.target? k l = some a → ws.target? k m = some b →
      ReflTransGen ws.Leads a b → TransGen ws.Leads k k := by
    intro a b l m ne ha hb hab
    rcases ReflTransGen.cases_tail hab with rfl | ⟨p, hap, ⟨l', hp⟩⟩
    · exact absurd (h.parent_unique ha hb).2 ne
    · obtain rfl := (h.parent_unique hp hb).1
      exact TransGen.head' ⟨l, ha⟩ hap
  rcases h.reach_total hax hbx with hab | hba
  · exact down ne ha hb hab
  · exact down ne.symm hb ha hba

/-- Blocks that are reached from the top level are on no circle. -/
theorem not_circle (h : ws.Coherent) {t x : BlockId} (ht : t ∈ ws.top)
    (hx : ReflTransGen ws.Leads t x) : ¬ TransGen ws.Leads x x :=
  not_transGen_of_root h.leads_unique (h.not_leads_top ht) hx

/-- Trees without circles hold no block twice. -/
theorem nodup_ids_of_not_circle (h : ws.Coherent) {first : Option BlockId} {trees : List Tree}
    (hu : ws.Unfolds first trees)
    (noCircle : ∀ x ∈ listIds trees, ¬ TransGen ws.Leads x x) : (listIds trees).Nodup := by
  induction hu with
  | nil => simp
  | @cons k b body rest hk hbody hrest ihBody ihRest =>
    have hid := h.id_eq hk
    rw [listIds_cons, hid] at noCircle ⊢
    -- A block that is met twice is below the root through both links, or is the root again.
    have atRoot : ¬ TransGen ws.Leads k k := noCircle k (by simp)
    have target : ∀ {l m}, b.target l = some m → ws.target? k l = some m :=
      fun hl => (target?_of_get? hk _).trans hl
    refine List.nodup_cons.2 ⟨fun hmem => ?_, List.nodup_append.2 ⟨?_, ?_, ?_⟩⟩
    · rcases List.mem_append.1 hmem with hmem | hmem
      · obtain ⟨m, hm, back⟩ := (hbody.mem_ids_iff h).1 hmem
        exact atRoot (TransGen.head' ⟨.body, target hm⟩ back)
      · obtain ⟨m, hm, back⟩ := (hrest.mem_ids_iff h).1 hmem
        exact atRoot (TransGen.head' ⟨.next, target hm⟩ back)
    · exact ihBody fun x hx => noCircle x (by simp [hx])
    · exact ihRest fun x hx => noCircle x (by simp [hx])
    · rintro x hx _ hx' rfl
      obtain ⟨m, hm, hmx⟩ := (hbody.mem_ids_iff h).1 hx
      obtain ⟨n, hn, hnx⟩ := (hrest.mem_ids_iff h).1 hx'
      exact atRoot (h.circle_of_reach (by decide) (target (l := .body) hm)
        (target (l := .next) hn) hmx hnx)

/-- What starts at a block of the top level unfolds. -/
theorem exists_unfolds (h : ws.Coherent) {t : BlockId} (ht : t ∈ ws.top) :
    ∃ trees, ws.Unfolds (some t) trees := by
  have stored := h.top_stored ht
  have acc : Acc (Function.swap ws.Leads) t :=
    acc_of_root h.leads_unique (h.not_leads_top ht) (h.finite_reach (fun hp => hp) stored)
  clear ht
  induction acc with
  | intro k _ ih =>
    obtain ⟨b, hb⟩ := Option.isSome_iff_exists.1 stored
    have below : ∀ l, ∃ trees, ws.Unfolds (b.target l) trees := by
      intro l
      cases hl : b.target l with
      | none => exact ⟨[], .nil⟩
      | some c =>
        have names : ws.target? k l = some c := (target?_of_get? hb l).trans hl
        exact ih c ⟨l, names⟩ (h.target_stored names)
    obtain ⟨body, hbody⟩ := below .body
    obtain ⟨rest, hrest⟩ := below .next
    exact ⟨_, .cons hb hbody hrest⟩

theorem nodup_ids (h : ws.Coherent) {t : BlockId} (ht : t ∈ ws.top) {trees : List Tree}
    (hu : ws.Unfolds (some t) trees) : (listIds trees).Nodup := by
  refine h.nodup_ids_of_not_circle hu fun x hx => ?_
  exact h.not_circle ht ((hu.mem_ids_iff_reach h).1 hx)

/-- A stack has no start block but its first block. -/
theorem not_start_of_mem_tail (h : ws.Coherent) {t : BlockId} (ht : t ∈ ws.top)
    {trees : List Tree} (hu : ws.Unfolds (some t) trees) {b : Block}
    (hb : b ∈ (listBlocks trees).tail) : b.kind ≠ .start := by
  intro start
  have stored := hu.get?_of_mem h (List.mem_of_mem_tail hb)
  have isTop := h.start_mem_top stored start
  have reach := (hu.mem_ids_iff_reach h).1 (List.mem_map_of_mem (List.mem_of_mem_tail hb))
  rcases ReflTransGen.cases_tail reach with same | ⟨p, -, hp⟩
  · have nodup := h.nodup_ids ht hu
    cases hu with
    | cons hk _ _ =>
      rw [listBlocks_cons, List.tail_cons] at hb
      rw [listIds, listBlocks_cons, List.map_cons, List.nodup_cons, h.id_eq hk, ← same] at nodup
      exact nodup.1 (List.mem_map_of_mem hb)
  · exact h.not_leads_top isTop p hp

/-- The body of a block of the top level unfolds. -/
theorem exists_body (h : ws.Coherent) {t : BlockId} {b : Block} (ht : t ∈ ws.top)
    (hb : ws.get? t = some b) : ∃ body, ws.Unfolds b.body body ∧ (listIds body).Nodup := by
  obtain ⟨trees, hu⟩ := h.exists_unfolds ht
  have nodup := h.nodup_ids ht hu
  cases hu with
  | cons hb' body _ =>
    obtain rfl := Option.some.inj (hb.symm.trans hb')
    rw [listIds_cons] at nodup
    exact ⟨_, body, (List.nodup_append.1 (List.nodup_cons.1 nodup).2).1⟩

/-- The start block is at the top level. -/
theorem id_mem_top_of_start? (h : ws.Coherent) {start : Block} (hs : ws.start? = some start) :
    start.id ∈ ws.top ∧ ws.get? start.id = some start := by
  obtain ⟨t, ht, stored, -⟩ := exists_top_of_start? hs
  obtain rfl := h.id_eq stored
  exact ⟨ht, stored⟩

/-- The body of the start block unfolds. -/
theorem exists_start_body (h : ws.Coherent) {start : Block} (hs : ws.start? = some start) :
    ∃ body, ws.Unfolds start.body body := by
  obtain ⟨ht, stored⟩ := h.id_mem_top_of_start? hs
  exact (h.exists_body ht stored).imp fun _ unfolds => unfolds.1

/-- The trees of two blocks of the top level have no block in common. -/
theorem disjoint_ids (h : ws.Coherent) {t t' : BlockId} (ht : t ∈ ws.top) (ht' : t' ∈ ws.top)
    (ne : t ≠ t') {trees trees' : List Tree} (hu : ws.Unfolds (some t) trees)
    (hu' : ws.Unfolds (some t') trees') : (listIds trees).Disjoint (listIds trees') := by
  intro x hx hx'
  exact ne (root_unique h.leads_unique (h.not_leads_top ht) (h.not_leads_top ht')
    ((hu.mem_ids_iff_reach h).1 hx) ((hu'.mem_ids_iff_reach h).1 hx'))

/-- The stacks of the top level are pruned trees. -/
theorem stackTrees_eq (h : ws.Coherent) {trees : BlockId → List Tree}
    (unfolds : ∀ t ∈ ws.top, ws.Unfolds (some t) (trees t)) :
    ws.stackTrees = ws.top.map fun t => (trees t).map (Tree.prune maxDepth) := by
  rw [stackTrees, topBlocks, List.map_filterMap, ← List.filterMap_eq_map]
  refine List.filterMap_congr fun t ht => ?_
  obtain ⟨b, hb⟩ := Option.isSome_iff_exists.1 (h.top_stored ht)
  rw [hb, Option.map_some, h.id_eq hb, (unfolds t ht).forest_eq h]
  rfl

/-- The top level are the first blocks of the stacks. -/
theorem topBlocks_eq (h : ws.Coherent) {trees : BlockId → List Tree}
    (unfolds : ∀ t ∈ ws.top, ws.Unfolds (some t) (trees t)) :
    ws.topBlocks = ws.stackTrees.filterMap headBlock := by
  rw [h.stackTrees_eq unfolds, topBlocks, List.filterMap_map]
  refine List.filterMap_congr fun t ht => ?_
  have hu := unfolds t ht
  show ws.get? t = headBlock ((trees t).map (Tree.prune maxDepth))
  generalize trees t = stack at hu ⊢
  cases hu with
  | cons hk _ _ =>
    rw [hk]
    rfl

/-- The stacks of the top level unfold into trees that hold no block twice. -/
theorem exists_stacks (h : ws.Coherent) :
    ∃ trees : BlockId → List Tree, (∀ t ∈ ws.top, ws.Unfolds (some t) (trees t)) ∧
      (ws.top.flatMap fun t => listIds (trees t)).Nodup := by
  have total : ∀ t, ∃ trees, t ∈ ws.top → ws.Unfolds (some t) trees := by
    intro t
    by_cases ht : t ∈ ws.top
    · exact (h.exists_unfolds ht).imp fun _ hu _ => hu
    · exact ⟨[], fun ht' => absurd ht' ht⟩
  choose trees unfolds using total
  refine ⟨trees, unfolds, List.nodup_flatMap.2 ⟨fun t ht => h.nodup_ids ht (unfolds t ht), ?_⟩⟩
  refine h.top_nodup.imp_of_mem fun ht ht' ne => ?_
  exact h.disjoint_ids ht ht' ne (unfolds _ ht) (unfolds _ ht')

end Coherent

/-- Walks end, and what is below the top level is a forest: a walk from a top-level block or along a
body meets no block twice, and ends at a block without a successor, which no greater bound changes.
The walk through all stacks, each block followed by its body, meets exactly what is reached from the
top level, each block once and none that is on a circle. The body of a start block is a finite list
of trees. -/
theorem Reachable.walks_are_finite (h : ws.Reachable) :
    (∀ first, ws.Begins first →
      ws.Lists first (ws.chain first) ∧ ((ws.chain first).map Block.id).Nodup ∧
      (∀ b, (ws.chain first).getLast? = some b → b.next = none) ∧
      ∀ n, ws.size ≤ n → ws.walk n first = ws.chain first) ∧
    (∃ trees : BlockId → List Tree, (∀ t ∈ ws.top, ws.Unfolds (some t) (trees t)) ∧
      (ws.top.flatMap fun t => listIds (trees t)).Nodup ∧
      ∀ k, k ∈ (ws.top.flatMap fun t => listIds (trees t)) ↔
        (∃ t ∈ ws.top, ReflTransGen ws.Leads t k) ∧ ¬ TransGen ws.Leads k k) ∧
    ∀ k b, ws.get? k = some b → b.kind = .start →
      ∃ body, ws.Unfolds b.body body ∧ (listIds body).Nodup := by
  have c := h.coherent
  refine ⟨fun first begins => ?_, ?_, fun k b hb start => ?_⟩
  · have lists := c.lists_chain begins
    exact ⟨lists, lists.nodup_ids c, fun _ => lists.next_of_getLast?,
      fun n hn => lists.walk_eq ((lists.length_le_size c).trans hn)⟩
  · obtain ⟨trees, unfolds, nodup⟩ := c.exists_stacks
    refine ⟨trees, unfolds, nodup, fun k => ?_⟩
    rw [List.mem_flatMap]
    constructor
    · rintro ⟨t, ht, hk⟩
      have reach := ((unfolds t ht).mem_ids_iff_reach c).1 hk
      exact ⟨⟨t, ht, reach⟩, c.not_circle ht reach⟩
    · rintro ⟨⟨t, ht, reach⟩, -⟩
      exact ⟨t, ht, ((unfolds t ht).mem_ids_iff_reach c).2 reach⟩
  · exact c.exists_body (c.start_mem_top hb start) hb

/-- The repeat blocks of `circle` are on a circle, so no walk from the top level meets them. -/
theorem Reachable.walks_are_finite_circle :
    circle.Reachable ∧ TransGen circle.Leads "outer" "outer" ∧
      ∃ trees : BlockId → List Tree, (∀ t ∈ circle.top, circle.Unfolds (some t) (trees t)) ∧
        "outer" ∉ circle.top.flatMap fun t => listIds (trees t) := by
  have reachable : circle.Reachable := ⟨_, Or.inr rfl⟩
  have back : TransGen circle.Leads "outer" "outer" := by
    have down : circle.Leads "outer" "inner" := ⟨.body, by
      simp [target?, get?_circle_outer, Block.target]⟩
    have up : circle.Leads "inner" "outer" := ⟨.body, by
      simp [circle_eq, target?, get?_attach, get?_place, Block.retarget, Block.target]⟩
    exact .tail (.single down) up
  obtain ⟨trees, unfolds, -, meets⟩ := reachable.walks_are_finite.2.1
  exact ⟨reachable, back, trees, unfolds, fun hk => ((meets _).1 hk).2 back⟩

end Workspace

end BlockBoard
