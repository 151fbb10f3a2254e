import Mathlib.Algebra.Order.Ring.Int
import BlockBoard.Project.Load
import BlockBoard.Proofs.Board.Changes
import BlockBoard.Proofs.Project.RoundTrip
import BlockBoard.Proofs.Project.Text

/-!
# Which saves can be loaded

A save can always be built again, but not always read: a block opens an array and an object more
than the block whose body it is in, and at most 127 may be open. So a save is loaded if at most 62
blocks lie in each other, and refused as malformed otherwise (`Reachable.load_save`). Saving keeps
`maxDepth` levels below a stack, which is up to 65 blocks in each other.
-/

namespace BlockBoard

open Workspace

/-! ### Counts that are words -/

namespace Workspace

variable {ws ws' : Workspace}

/-- All stored counts are words. -/
def InWords (ws : Workspace) : Prop :=
  ∀ k b, ws.get? k = some b → b.kind.Fits

/-- The type of the block that an edit adds. -/
def Edit.kind? : Edit → Option Kind
  | .add kind | .insert _ kind | .push _ kind => some kind
  | .ensureStart => some .start
  | .append _ _ | .setNext _ _ | .clear => none

namespace InWords

theorem empty : Workspace.empty.InWords := by
  intro k b hb
  simp at hb

theorem place (h : ws.InWords) {id : BlockId} {kind : Kind} (fits : kind.Fits) :
    (ws.place { id, kind }).InWords := by
  intro k b hb
  rw [get?_place] at hb
  split_ifs at hb
  · obtain rfl := Option.some.inj hb
    exact fits
  · exact h k b hb

theorem add (h : ws.InWords) {kind : Kind} (fits : kind.Fits) : (ws.add kind).1.InWords := by
  have used : ws.useFreshId.InWords := h
  exact used.place fits

theorem attach (h : ws.InWords) (p : BlockId) (l : Link) (child : BlockId) :
    (ws.attach p l child).InWords := by
  intro k b hb
  obtain ⟨b', stored, -, kind, -⟩ := exists_of_get?_attach hb
  rw [kind]
  exact h k b' stored

theorem append (h : ws.InWords) {parent child : BlockId} (ha : ws.append parent child = .ok ws') :
    ws'.InWords := by
  obtain ⟨b, -, -, -, rfl⟩ := append_eq_ok_iff.1 ha
  exact h.attach _ _ child

theorem remove (h : ws.InWords) (id : BlockId) : (ws.remove id).InWords := by
  intro k b hb
  rw [get?_remove] at hb
  split_ifs at hb
  exact h k b hb

theorem push (h : ws.InWords) (parent : BlockId) {kind : Kind} (fits : kind.Fits) :
    (ws.push parent kind).1.InWords := by
  unfold Workspace.push
  cases ws.find parent with
  | error e => exact h
  | ok b =>
    cases ha : (ws.add kind).1.append parent (ws.add kind).2 with
    | error e =>
      simp only [ha]
      exact (h.add fits).remove _
    | ok linked =>
      simp only [ha]
      exact (h.add fits).append ha

theorem ensureStart (h : ws.InWords) : ws.ensureStart.1.InWords := by
  unfold Workspace.ensureStart
  cases ws.start? with
  | none => exact h.add trivial
  | some b => exact h

theorem afterEdit (h : ws.InWords) {result : Except EditError Workspace}
    (ok : ∀ {ws'}, result = .ok ws' → ws'.InWords) : (ws.afterEdit result).InWords := by
  cases result with
  | error e => exact h
  | ok ws' => exact ok rfl

/-- An edit stores no count but that of the block that it adds. -/
theorem apply (h : ws.InWords) {edit : Edit} (fits : ∀ kind ∈ edit.kind?, kind.Fits) :
    (ws.apply edit).InWords := by
  cases edit with
  | add kind => exact h.add (fits kind rfl)
  | insert id kind =>
    refine h.afterEdit fun hi => ?_
    obtain ⟨-, rfl⟩ := insert_eq_ok_iff.1 hi
    exact h.place (fits kind rfl)
  | append parent child => exact h.afterEdit h.append
  | setNext anchor next =>
    refine h.afterEdit fun hs => ?_
    obtain ⟨b, -, -, -, rfl⟩ := setNext_eq_ok_iff.1 hs
    exact h.attach _ _ next
  | push parent kind => exact h.push parent (fits kind rfl)
  | ensureStart => exact h.ensureStart
  | clear =>
    intro k b hb
    simp [Workspace.apply] at hb

/-- Stacks alone hold the counts of their nodes. -/
theorem of_stacked {lists : List (List Node)} (stacked : Stacked Workspace.empty lists ws)
    (fits : ∀ stack ∈ lists, ∀ b ∈ listBlocks (listTrees stack), b.kind.Fits) : ws.InWords := by
  intro k b hb
  obtain ⟨stack, hs, mem⟩ := stacked.exists_mem_of_get? hb
  exact fits stack hs b mem

theorem run (h : ws.InWords) {edits : List Edit}
    (fits : ∀ edit ∈ edits, ∀ kind ∈ edit.kind?, kind.Fits) : (ws.run edits).InWords := by
  induction edits generalizing ws with
  | nil => exact h
  | cons edit edits ih =>
    exact ih (h.apply (fits edit List.mem_cons_self))
      fun e he => fits e (List.mem_cons_of_mem _ he)

end InWords

end Workspace

/-! ### Numbers and depth of nodes -/

section Nodes

variable {nodes : List Node}

theorem listFaithful_listToJson :
    Json.ListFaithful (Node.listToJson nodes) ↔
      ∀ b ∈ listBlocks (listTrees nodes), b.kind.Fits := by
  induction nodes using nodes_induction with
  | nil => simp [Node.listToJson, Json.ListFaithful, listTrees]
  | cons node nodes ihBody ihRest =>
    rw [Node.listToJson, Json.ListFaithful, Node.faithful_toJson_iff, ihBody, ihRest, blocks_cons,
      List.forall_mem_cons, List.forall_mem_append, and_assoc]
    rfl

theorem Document.faithful_blocksJson_iff {d : Document} :
    d.blocksJson.Faithful ↔
      ∀ stack ∈ d.blocks, ∀ b ∈ listBlocks (listTrees stack), b.kind.Fits := by
  rw [blocksJson, Json.Faithful, Json.listFaithful_iff, List.forall_mem_map]
  simp only [Json.Faithful, listFaithful_listToJson]

/-- A node without a body opens one object only, which makes no difference to an even bound. -/
theorem Node.depth_toJson_le_two_mul_iff {node : Node} {n : ℕ} :
    node.toJson.depth ≤ 2 * n ↔ Json.listDepth (Node.listToJson node.body) + 2 ≤ 2 * n := by
  cases node <;> simp [Node.toJson, Node.body, Json.depth, Json.membersDepth, Node.listToJson,
    Json.listDepth] <;> omega

mutual

/-- How many blocks of a tree lie in each other at most. -/
def Tree.height : Tree → ℕ
  | .node _ _ body => listHeight body + 1

def listHeight : List Tree → ℕ
  | [] => 0
  | tree :: trees => max tree.height (listHeight trees)

end

theorem Saves.depth_le_iff {ρ : BlockId → BlockId} {trees : List Tree} (h : Saves ρ nodes trees)
    {n : ℕ} : Json.listDepth (Node.listToJson nodes) ≤ 2 * n ↔ listHeight trees ≤ n := by
  induction h generalizing n with
  | nil => simp [Node.listToJson, Json.listDepth, listHeight]
  | cons _ _ _ _ ihBody ihRest =>
    rw [Node.listToJson, Json.listDepth, listHeight, Tree.height, max_le_iff, max_le_iff,
      ihRest, Node.depth_toJson_le_two_mul_iff]
    cases n with
    | zero => simp
    | succ n =>
      have := ihBody (n := n)
      refine and_congr_left fun _ => ?_
      omega

end Nodes

/-! ### Loading a save -/

theorem Settings.faithful_ofBoard {b : Board} (sound : b.Sound) :
    (Settings.ofBoard b).toJson.Faithful := by
  obtain ⟨row, col⟩ := sound.start_inside
  have rows := sound.rows_fits
  have cols := sound.cols_fits
  simp only [Word.Fits] at rows cols
  simp only [Settings.toJson, Settings.ofBoard, Json.Faithful, Json.MembersFaithful, Word.Fits,
    and_true]
  omega

namespace Workspace

variable {ws ws' : Workspace}

/-- The blocks of a stack are stored. -/
theorem Coherent.get?_of_mem_stack (c : ws.Coherent) {stack : List Tree}
    (hs : stack ∈ ws.stackTrees) {b : Block} (hb : b ∈ listBlocks stack) :
    ws.get? b.id = some b := by
  obtain ⟨t, trees, -, unfolds, rfl⟩ := c.exists_unfolds_of_mem hs
  exact unfolds.get?_of_mem c ((listBlocks_prune_sublist maxDepth trees).mem hb)

theorem Coherent.faithful_save (c : ws.Coherent) (words : ws.InWords) {b : Board} (sound : b.Sound)
    (stamp : String) : (Document.ofWorkspace stamp ws b).toJson.Faithful := by
  have blocks : (Document.ofWorkspace stamp ws b).blocksJson.Faithful := by
    refine Document.faithful_blocksJson_iff.2 fun nodes hn block hb => ?_
    obtain ⟨stack, hs, saves⟩ := exists_saves_of_mem (c.saves stamp b) hn
    obtain ⟨block', hb', kind⟩ := List.mem_map.1 (saves.kinds_eq ▸ List.mem_map_of_mem hb)
    rw [← kind]
    exact words _ _ (c.get?_of_mem_stack hs hb')
  exact ⟨blocks, Settings.faithful_ofBoard sound, trivial⟩

theorem Coherent.depth_save_le_iff (c : ws.Coherent) (stamp : String) (b : Board) :
    (Document.ofWorkspace stamp ws b).toJson.depth ≤ 127 ↔
      ∀ stack ∈ ws.stackTrees, listHeight stack ≤ 62 := by
  have saves := c.saves stamp b
  -- Outside of a stack the document and the array of the stacks are open.
  have bound : Node.depthInside + 2 = 2 * 62 + 1 := rfl
  refine Document.depth_toJson_le_iff.trans ?_
  rw [Document.blocksJson, Json.depth, Nat.add_le_add_iff_right, Json.listDepth_le_iff,
    List.forall_mem_map]
  generalize (Document.ofWorkspace stamp ws b).blocks = written, ws.stackTrees = kept at saves ⊢
  induction saves with
  | nil => simp
  | cons saves _ ih =>
    rw [List.forall_mem_cons, List.forall_mem_cons, ih, ← saves.depth_le_iff, Json.depth, bound,
      Nat.add_le_add_iff_right]

theorem Coherent.load_save_eq (c : ws.Coherent) (words : ws.InWords) {b : Board} (sound : b.Sound)
    {stamp : String} (built : (Document.ofWorkspace stamp ws b).build = .ok ws') :
    Project.load (Document.save stamp ws b) =
      if ∀ stack ∈ ws.stackTrees, listHeight stack ≤ 62 then .ok ⟨ws', Settings.ofBoard b⟩
      else .error (.unreadable .malformed) := by
  unfold Project.load Document.save Json.pretty
  rw [Document.parse_write (c.faithful_save words sound stamp)]
  simp only [c.depth_save_le_iff]
  split_ifs
  · have placed : (Document.ofWorkspace stamp ws b).build.mapError LoadError.misplaced = .ok ws' :=
      by rw [built, Except.mapError]
    rw [Except.mapError, ok_bind, placed]
    rfl
  · rfl

/-- A save of blocks that count in words is loaded with the settings of its board if at most 62
blocks lie in each other, and refused as malformed otherwise. It can be built in both cases. -/
theorem Reachable.load_save (h : ws.Reachable) (words : ws.InWords) {b : Board}
    (hb : b.Reachable) (stamp : String) :
    ∃ ws', (Document.ofWorkspace stamp ws b).build = .ok ws' ∧
      Project.load (Document.save stamp ws b) =
        if ∀ stack ∈ ws.stackTrees, listHeight stack ≤ 62 then .ok ⟨ws', Settings.ofBoard b⟩
        else .error (.unreadable .malformed) := by
  have c := h.coherent
  obtain ⟨ws', built⟩ := c.exists_build_save stamp b
  exact ⟨ws', built, c.load_save_eq words hb.sound built⟩

theorem stackTrees_painter : painter.stackTrees =
    [[.node { id := "blk0", kind := .start, body := some "loop" } false [painterTree]]] := by
  have coherent : painter.Coherent := Reachable.coherent ⟨_, Or.inr rfl⟩
  have top : painter.topBlocks = [{ id := "blk0", kind := .start, body := some "loop" }] := by
    simp [topBlocks, top_painter, get?_painter_start]
  rw [stackTrees, top, List.map_singleton, (Unfolds.cons get?_painter_start unfolds_painter
    .nil).forest_eq coherent]
  rfl

theorem Reachable.load_save_painter :
    painter.Reachable ∧ painter.InWords ∧ Board.standard.Reachable ∧
      ∃ ws', Project.load (Document.save "0" painter Board.standard) =
        .ok ⟨ws', Settings.ofBoard Board.standard⟩ := by
  have reachable : painter.Reachable := ⟨_, Or.inr rfl⟩
  have words : painter.InWords := by
    refine (InWords.empty.ensureStart).run ?_
    simp [Edit.kind?, Kind.Fits, Word.Fits]
  obtain ⟨ws', -, loaded⟩ := reachable.load_save words Board.reachable_standard "0"
  rw [stackTrees_painter] at loaded
  exact ⟨reachable, words, Board.reachable_standard, ws', loaded⟩

/-! ### A save that cannot be loaded -/

theorem listHeight_prune_nested {n levels : ℕ} (h : n ≤ levels) :
    listHeight ((listTrees [nested n]).map (Tree.prune levels)) = n + 1 := by
  induction n generalizing levels with
  | zero => cases levels <;> rfl
  | succ n ih =>
    obtain ⟨levels, rfl⟩ := Nat.exists_eq_add_of_le' h
    have inner := ih (Nat.le_add_left n levels)
    have shape : (listTrees [nested (n + 1)]).map (Tree.prune (levels + n + 1)) =
        [.node ((nested (n + 1)).block none) false
          ((listTrees [nested n]).map (Tree.prune (levels + n)))] := by
      rw [listTrees_cons]
      rfl
    rw [← Nat.add_assoc, shape, listHeight, Tree.height, inner, listHeight, Nat.max_zero]

/-- A fill block in 61 repeat blocks below the start block is saved, but the save is refused. -/
theorem exists_load_save_eq_error :
    ∃ ws, Document.build { blocks := [[.start (generated 62) [nested 61]]] } = .ok ws ∧
      ws.Reachable ∧ ws.InWords ∧ Board.standard.Reachable ∧
      Project.load (Document.save "0" ws Board.standard) = .error (.unreadable .malformed) := by
  obtain ⟨ws, start, built, stacked, found, unfolds⟩ := exists_build_nested 61
  have reachable := reachable_of_build built
  have c := reachable.coherent
  have words : ws.InWords := by
    refine InWords.of_stacked stacked fun stack hs b hb => ?_
    obtain rfl := List.mem_singleton.1 hs
    rw [blocks_cons, List.mem_cons, List.mem_append] at hb
    rcases hb with rfl | hb | hb
    · trivial
    · rcases kinds_nested 61 b hb with kind | kind <;> rw [kind] <;> decide
    · exact absurd hb (by simp [listTrees])
  have high : ¬ ∀ stack ∈ ws.stackTrees, listHeight stack ≤ 62 := by
    intro low
    obtain ⟨rest, hs⟩ := c.start_mem_stackTrees found unfolds
    have height := low _ hs
    rw [listHeight, Tree.height, listHeight_prune_nested (by decide)] at height
    omega
  obtain ⟨ws', rebuilt⟩ := c.exists_build_save "0" Board.standard
  have loaded := c.load_save_eq words Board.reachable_standard.sound rebuilt
  rw [if_neg high] at loaded
  exact ⟨ws, built, reachable, words, Board.reachable_standard, loaded⟩

end Workspace

end BlockBoard
