import BlockBoard.Project.Load
import BlockBoard.Proofs.Project.Build

/-!
# Which documents are refused

The nodes of a document are added in depth first order (`Document.entries`), and there are only two
reasons to refuse one: its name occurred before, or it is a start block that is not the first of its
stack (`Entry.refusal?`). Whatever else an edit can be refused for does not arise, since at each
point of the way the link that is asked for is free. So building gives the refusal of the first
entry that is refused (`Document.build_eq_error_iff`), and succeeds if there is none.
-/

namespace BlockBoard

open Workspace

/-! ### Entries -/

/-- A node of a document, with where it stands. -/
structure Entry where
  id : BlockId
  kind : Kind
  /-- How many bodies it lies below its stack. -/
  depth : ℕ
  /-- Whether it is the first of its stack. -/
  first : Bool
deriving DecidableEq, Repr

mutual

/-- The entry of a node, and then those of its body. -/
def Node.entries (depth : ℕ) (first : Bool) : Node → List Entry
  | .start id body => ⟨id, .start, depth, first⟩ :: listEntries (depth + 1) false body
  | .move id direction => [⟨id, .move direction, depth, first⟩]
  | .fill id color => [⟨id, .fill color, depth, first⟩]
  | .repetition id times body =>
    ⟨id, .repetition times, depth, first⟩ :: listEntries (depth + 1) false body

/-- The entries of a list of nodes; those of a body come before those that follow its owner. -/
def listEntries (depth : ℕ) (first : Bool) : List Node → List Entry
  | [] => []
  | node :: nodes => node.entries depth first ++ listEntries depth false nodes

end

/-- The entries of a document in depth first order. -/
def Document.entries (d : Document) : List Entry :=
  d.blocks.flatMap (listEntries 0 true)

variable {depth : ℕ} {first : Bool} {nodes : List Node} {u : Entry}

theorem listEntries_cons (depth : ℕ) (first : Bool) (node : Node) (nodes : List Node) :
    listEntries depth first (node :: nodes) = ⟨node.id, node.kind, depth, first⟩ ::
      (listEntries (depth + 1) false node.body ++ listEntries depth false nodes) := by
  cases node <;> simp [listEntries, Node.entries, Node.id, Node.kind, Node.body]

/-- The entries are those of the blocks that the nodes stand for. -/
theorem map_listEntries (depth : ℕ) (first : Bool) (nodes : List Node) :
    (listEntries depth first nodes).map (fun u => (u.id, u.kind)) =
      (listBlocks (listTrees nodes)).map fun b => (b.id, b.kind) := by
  induction nodes using nodes_induction generalizing depth first with
  | nil => rfl
  | cons node nodes ihBody ihRest =>
    rw [listEntries_cons, blocks_cons, List.map_cons, List.map_cons, List.map_append,
      List.map_append, ihBody, ihRest]
    rfl

theorem map_id_listEntries (depth : ℕ) (first : Bool) (nodes : List Node) :
    (listEntries depth first nodes).map Entry.id = listIds (listTrees nodes) := by
  have := congrArg (List.map Prod.fst) (map_listEntries depth first nodes)
  rwa [List.map_map, List.map_map] at this

theorem map_kind_listEntries (depth : ℕ) (first : Bool) (nodes : List Node) :
    (listEntries depth first nodes).map Entry.kind =
      (listBlocks (listTrees nodes)).map Block.kind := by
  have := congrArg (List.map Prod.snd) (map_listEntries depth first nodes)
  rwa [List.map_map, List.map_map] at this

theorem Document.map_id_entries (d : Document) : d.entries.map Entry.id = stackIds d.blocks := by
  rw [entries, stackIds, List.map_flatMap]
  exact congrArg d.blocks.flatMap (funext (map_id_listEntries 0 true))

theorem exists_entry_of_mem (depth : ℕ) (first : Bool) {b : Block}
    (hb : b ∈ listBlocks (listTrees nodes)) :
    ∃ u ∈ listEntries depth first nodes, u.id = b.id ∧ u.kind = b.kind := by
  have mem : (b.id, b.kind) ∈ (listEntries depth first nodes).map fun u => (u.id, u.kind) :=
    map_listEntries depth first nodes ▸ List.mem_map_of_mem hb
  obtain ⟨u, hu, same⟩ := List.mem_map.1 mem
  exact ⟨u, hu, Prod.mk.inj same⟩

/-- Only the first node of a stack is marked. -/
theorem headId_of_first (hu : u ∈ listEntries depth first nodes) (marked : u.first = true) :
    first = true ∧ headId nodes = some u.id := by
  induction nodes using nodes_induction generalizing depth first with
  | nil => cases hu
  | cons node nodes ihBody ihRest =>
    rw [listEntries_cons, List.mem_cons, List.mem_append] at hu
    rcases hu with rfl | hu | hu
    · exact ⟨marked, rfl⟩
    · exact absurd (ihBody hu).1 Bool.false_ne_true
    · exact absurd (ihRest hu).1 Bool.false_ne_true

/-! ### Refusals -/

/-- Why an entry is refused when some names are taken, if it is. -/
def Entry.refusal? (taken : List BlockId) (u : Entry) : Option EditError :=
  if u.id ∈ taken then some (.duplicateId u.id)
  else if u.kind = .start ∧ u.first = false then some (.startNotAttachable u.id)
  else none

/-- The refusal of the first entry that is refused. The others take their names. -/
def refusal? (taken : List BlockId) : List Entry → Option EditError
  | [] => none
  | u :: us => (u.refusal? taken).or (refusal? (taken ++ [u.id]) us)

/-- Start blocks are the first of their stacks. -/
def StartsFirst (us : List Entry) : Prop :=
  ∀ u ∈ us, u.kind = .start → u.first = true

/-- If start blocks are the first of their stacks, so are their blocks. -/
theorem headId_of_start (starts : StartsFirst (listEntries depth first nodes)) {b : Block}
    (hb : b ∈ listBlocks (listTrees nodes)) (start : b.kind = .start) :
    first = true ∧ headId nodes = some b.id := by
  obtain ⟨u, hu, id, kind⟩ := exists_entry_of_mem depth first hb
  rw [← id]
  exact headId_of_first hu (starts u hu (kind.trans start))

variable {taken : List BlockId} {us vs : List Entry} {e : EditError}

theorem Entry.refusal?_eq_none_iff :
    u.refusal? taken = none ↔ u.id ∉ taken ∧ (u.kind = .start → u.first = true) := by
  unfold Entry.refusal?
  split_ifs with seen misplaced
  · simp [seen]
  · simp [misplaced]
  · rw [not_and, Bool.not_eq_false] at misplaced
    exact iff_of_true rfl ⟨seen, misplaced⟩

theorem Entry.refusal?_eq_some_iff :
    u.refusal? taken = some e ↔ u.id ∈ taken ∧ e = .duplicateId u.id ∨
      u.id ∉ taken ∧ u.kind = .start ∧ u.first = false ∧ e = .startNotAttachable u.id := by
  unfold Entry.refusal?
  split_ifs with seen misplaced
  · rw [Option.some.injEq, eq_comm]
    simp [seen]
  · rw [Option.some.injEq, eq_comm]
    simp [seen, misplaced]
  · refine iff_of_false nofun ?_
    rintro (⟨seen', -⟩ | ⟨-, start, behind, -⟩)
    · exact seen seen'
    · exact misplaced ⟨start, behind⟩

theorem refusal?_append (taken : List BlockId) (us vs : List Entry) :
    refusal? taken (us ++ vs) =
      (refusal? taken us).or (refusal? (taken ++ us.map Entry.id) vs) := by
  induction us generalizing taken with
  | nil => simp [refusal?]
  | cons u us ih => simp [refusal?, ih, Option.or_assoc]

theorem refusal?_eq_none_iff : refusal? taken us = none ↔
    (us.map Entry.id).Nodup ∧ (∀ u ∈ us, u.id ∉ taken) ∧ StartsFirst us := by
  induction us generalizing taken with
  | nil => simp [refusal?, StartsFirst]
  | cons u us ih =>
    rw [refusal?, Option.or_eq_none_iff, Entry.refusal?_eq_none_iff, ih, List.map_cons,
      List.nodup_cons, StartsFirst, StartsFirst, List.forall_mem_cons, List.forall_mem_cons]
    simp only [List.mem_append, List.mem_singleton, not_or, List.mem_map, not_exists, not_and]
    constructor
    · rintro ⟨⟨fresh, start⟩, nodup, others, starts⟩
      exact ⟨⟨fun v hv => (others v hv).2, nodup⟩, ⟨fresh, fun v hv => (others v hv).1⟩, start,
        starts⟩
    · rintro ⟨⟨ne, nodup⟩, ⟨fresh, others⟩, start, starts⟩
      exact ⟨⟨fresh, start⟩, nodup, fun v hv => ⟨others v hv, ne v hv⟩, starts⟩

/-- The first entry that is refused stands behind entries none of which is refused. -/
theorem refusal?_eq_some_iff : refusal? taken us = some e ↔
    ∃ before u after, us = before ++ u :: after ∧ refusal? taken before = none ∧
      u.refusal? (taken ++ before.map Entry.id) = some e := by
  constructor
  · intro h
    induction us generalizing taken with
    | nil => cases h
    | cons u us ih =>
      rw [refusal?] at h
      cases here : u.refusal? taken with
      | some e' =>
        rw [here, Option.some_or] at h
        exact ⟨[], u, us, rfl, rfl, by rwa [List.map_nil, List.append_nil, here]⟩
      | none =>
        rw [here, Option.none_or] at h
        obtain ⟨before, v, after, rfl, fine, refused⟩ := ih h
        refine ⟨u :: before, v, after, rfl, by rw [refusal?, here, fine, Option.none_or], ?_⟩
        rwa [List.map_cons, List.append_cons]
  · rintro ⟨before, u, after, rfl, fine, refused⟩
    rw [refusal?_append, fine, Option.none_or, refusal?, refused, Option.some_or]

namespace Workspace

variable {ws ws' ws'' : Workspace} {place : Place}

/-! ### Refused nodes -/

/-- Some names are those of the stored blocks. -/
def Stores (ws : Workspace) (taken : List BlockId) : Prop :=
  ∀ k, (ws.get? k).isSome ↔ k ∈ taken

theorem Stores.get?_eq_none (h : ws.Stores taken) {k : BlockId} (free : k ∉ taken) :
    ws.get? k = none := by
  rwa [← h, Option.not_isSome_iff_eq_none] at free

theorem Placed.stores {node : Node} (placed : Placed ws place node ws') (h : ws.Stores taken) :
    ws'.Stores (taken ++ [node.id]) := by
  intro k
  rw [placed.get?_eq, List.mem_append, List.mem_singleton, ← h]
  split_ifs with here
  · simp [here]
  · simp [Ne.symm here]

theorem Added.stores (added : Added ws place nodes ws') (h : ws.Stores taken) :
    ws'.Stores (taken ++ listIds (listTrees nodes)) := by
  intro k
  rw [List.mem_append, ← h]
  by_cases inside : k ∈ listIds (listTrees nodes)
  · obtain ⟨b, hb, rfl⟩ := List.mem_map.1 inside
    simp [added.stored b hb, inside]
  · simp [added.others k inside, inside]

/-- Nodes none of which is refused fit. -/
theorem fits_of_refusal? (c : ws.Coherent) (stores : ws.Stores taken)
    (isOpen : place.Open ws nodes)
    (fine : refusal? taken (listEntries depth (place = .topLevel) nodes) = none) :
    Fits ws place nodes := by
  obtain ⟨nodup, fresh, starts⟩ := refusal?_eq_none_iff.1 fine
  have ids := map_id_listEntries depth (place = .topLevel) nodes
  constructor
  case coherent => exact c
  case nodup => rwa [← ids]
  case fresh =>
    intro k hk
    rw [← ids] at hk
    obtain ⟨u, hu, rfl⟩ := List.mem_map.1 hk
    exact stores.get?_eq_none (fresh u hu)
  case isOpen => exact isOpen
  case start =>
    intro b hb start
    obtain ⟨top, head⟩ := headId_of_start starts hb start
    exact ⟨of_decide_eq_true top, head⟩

/-- Of all the refusals of the edits that add a block at an open place, only two can arise. -/
theorem insertAt_of_refusal? {node : Node} (stores : ws.Stores taken)
    (isOpen : place.Open ws [node])
    (refused : Entry.refusal? taken ⟨node.id, node.kind, depth, place = .topLevel⟩ = some e) :
    ws.insertAt place node.id node.kind = .error e := by
  rcases Entry.refusal?_eq_some_iff.1 refused with ⟨seen, rfl⟩ | ⟨fresh, start, behind, rfl⟩
  · have stored : ws.blocks.contains node.id := by rw [contains_blocks, (stores node.id).2 seen]
    rw [insertAt, insert, if_pos stored, error_bind]
  · have free := stores.get?_eq_none fresh
    dsimp only at start behind
    rw [insertAt, insert_eq_ok_iff.2 ⟨free, rfl⟩, ok_bind]
    have ne : ∀ {p b}, ws.get? p = some b → node.id ≠ p := by
      rintro p b stored rfl
      simp [free] at stored
    cases place with
    | topLevel => simp at behind
    | inside parent =>
      obtain ⟨b, stored, -, holds⟩ := isOpen
      have holds := holds (List.cons_ne_nil _ _)
      simp [append, checkAttachable, find, get?_place, ne stored, (ne stored).symm, stored, holds,
        start]
    | after previous =>
      obtain ⟨b, stored, nextFree⟩ := isOpen
      simp [setNext, checkAttachable, find, get?_place, ne stored, (ne stored).symm, stored,
        nextFree, start]

/-- If nodes are refused, it is for the first entry that is. -/
theorem addList_of_refusal? (c : ws.Coherent) (stores : ws.Stores taken)
    (isOpen : place.Open ws nodes)
    (refused : refusal? taken (listEntries depth (place = .topLevel) nodes) = some e) :
    ws.addList place nodes = .error e := by
  induction nodes using nodes_induction generalizing ws place taken depth with
  | nil => cases refused
  | cons node nodes ihBody ihRest =>
    rw [listEntries_cons, refusal?, refusal?_append] at refused
    rw [addList_cons]
    cases here : Entry.refusal? taken ⟨node.id, node.kind, depth, place = .topLevel⟩ with
    | some e' =>
      rw [here, Option.some_or] at refused
      obtain rfl := Option.some.inj refused
      rw [insertAt_of_refusal? stores isOpen.head here, error_bind]
    | none =>
      rw [here, Option.none_or] at refused
      obtain ⟨fresh, start⟩ := Entry.refusal?_eq_none_iff.1 here
      obtain ⟨ws₁, inserted, placed⟩ := c.insertAt (stores.get?_eq_none fresh) isOpen.head
        fun h => of_decide_eq_true (start h)
      have stores₁ := placed.stores stores
      rw [inserted, ok_bind]
      cases below : refusal? (taken ++ [node.id]) (listEntries (depth + 1) false node.body) with
      | some e' =>
        rw [below, Option.some_or] at refused
        obtain rfl := Option.some.inj refused
        rw [ihBody placed.coherent stores₁ placed.isOpen_inside below, error_bind]
      | none =>
        rw [below, Option.none_or, map_id_listEntries] at refused
        have fits : Fits ws₁ (.inside node.id) node.body :=
          fits_of_refusal? placed.coherent stores₁ placed.isOpen_inside below
        obtain ⟨ws₂, second, added⟩ := fits.addList
        have absent : node.id ∉ listIds (listTrees node.body) := by
          intro inside
          have := fits.fresh node.id inside
          rw [placed.get?_eq, if_pos rfl] at this
          cases this
        rw [second, ok_bind]
        exact ihRest added.coherent (added.stores stores₁) (placed.isOpen_after added absent)
          refused

/-! ### Refused stacks -/

theorem addStacks_of_refusal? (c : ws.Coherent) (stores : ws.Stores taken)
    {lists : List (List Node)}
    (refused : refusal? taken (lists.flatMap (listEntries 0 true)) = some e) :
    ws.addStacks lists = .error e := by
  induction lists generalizing ws taken with
  | nil => cases refused
  | cons stack lists ih =>
    rw [List.flatMap_cons, refusal?_append] at refused
    rw [addStacks]
    cases here : refusal? taken (listEntries 0 true stack) with
    | some e' =>
      rw [here, Option.some_or] at refused
      obtain rfl := Option.some.inj refused
      have failed : ws.addList .topLevel stack = .error e' :=
        addList_of_refusal? c stores trivial here
      rw [failed, error_bind]
    | none =>
      rw [here, Option.none_or, map_id_listEntries] at refused
      have fits : Fits ws .topLevel stack := fits_of_refusal? c stores trivial here
      obtain ⟨ws₁, first, added⟩ := fits.addList
      rw [first, ok_bind]
      exact ih added.coherent (added.stores stores) refused

end Workspace

namespace Document

open Workspace

variable {d : Document}

/-- Stacks none of whose entries is refused are added. -/
theorem exists_stacked_of_refusal? (fine : refusal? [] d.entries = none) :
    ∃ ws, empty.addStacks d.blocks = .ok ws ∧ Stacked empty d.blocks ws := by
  obtain ⟨nodup, -, starts⟩ := refusal?_eq_none_iff.1 fine
  rw [map_id_entries] at nodup
  refine coherent_empty.addStacks nodup (fun k _ => get?_empty k) fun stack hs b hb start => ?_
  have starts : StartsFirst (listEntries 0 true stack) :=
    fun u hu => starts u (List.mem_flatMap.2 ⟨stack, hs, hu⟩)
  exact (headId_of_start starts hb start).2

theorem build_eq_error_of_refusal? (refused : refusal? [] d.entries = some e) :
    d.build = .error e := by
  have stores : empty.Stores [] := by simp [Stores]
  rw [build, addStacks_of_refusal? coherent_empty stores refused, error_bind]

/-- A document builds if none of its entries is refused, and gives the first refusal otherwise. -/
theorem build_eq_error_iff : d.build = .error e ↔ refusal? [] d.entries = some e := by
  cases outcome : refusal? [] d.entries with
  | some e' => simp [build_eq_error_of_refusal? outcome]
  | none =>
    obtain ⟨ws, added, -⟩ := exists_stacked_of_refusal? outcome
    simp [build, added]

/-- A start block in a body under the name of its owner is refused for the name. -/
example : refusal? [] (entries { blocks := [[.start "s" [.move "m" "UP", .start "s" []]]] }) =
    some (.duplicateId "s") := by decide

theorem exists_build_eq_ok_iff : (∃ ws, d.build = .ok ws) ↔
    (d.entries.map Entry.id).Nodup ∧ StartsFirst d.entries := by
  have fine : refusal? [] d.entries = none ↔
      (d.entries.map Entry.id).Nodup ∧ StartsFirst d.entries := by
    simp [refusal?_eq_none_iff]
  rw [← fine, Option.eq_none_iff_forall_ne_some]
  simp only [ne_eq, ← build_eq_error_iff]
  cases d.build <;> simp

end Document

/-- A text that is not loaded leaves the workspace and the board as they were: it is no document, or
its document cannot be built. -/
theorem Project.loadInto_of_error {text : String} {ws : Workspace} {b : Board} {cause : LoadError}
    (h : (loadInto text ws b).result = .error cause) :
    (loadInto text ws b).workspace = ws ∧ (loadInto text ws b).board = b ∧
      ((∃ fault, Document.parse text = .error fault ∧ cause = .unreadable fault) ∨
        ∃ d e, Document.parse text = .ok d ∧ d.build = .error e ∧ cause = .misplaced e) := by
  unfold loadInto at h ⊢
  cases loaded : load text with
  | ok p => simp [loaded] at h
  | error e =>
    simp only [loaded, Except.error.injEq] at h
    subst h
    refine ⟨rfl, rfl, ?_⟩
    rw [load_eq] at loaded
    split at loaded
    · exact Or.inl ⟨_, ‹_›, (Except.error.inj loaded).symm⟩
    · split at loaded
      · exact Or.inr ⟨_, _, ‹_›, ‹_›, (Except.error.inj loaded).symm⟩
      · cases loaded

/-- A document can be built if and only if its blocks have different names and its start blocks are
the first of their stacks. Otherwise building gives the refusal of the first entry, in depth first
order, whose name occurred before, or which is a start block that is not the first of its stack, and
no other refusal is possible. A text that is not loaded leaves the workspace and the board as they
were. -/
theorem Document.build_refuses_first (d : Document) :
    ((∃ ws, d.build = .ok ws) ↔ (d.entries.map Entry.id).Nodup ∧ StartsFirst d.entries) ∧
    (∀ e, d.build = .error e ↔ ∃ before u after, d.entries = before ++ u :: after ∧
      (before.map Entry.id).Nodup ∧ StartsFirst before ∧
      (u.id ∈ before.map Entry.id ∧ e = .duplicateId u.id ∨
        u.id ∉ before.map Entry.id ∧ u.kind = .start ∧ u.first = false ∧
          e = .startNotAttachable u.id)) ∧
    (∀ e, d.build = .error e → ∃ id, e = .duplicateId id ∨ e = .startNotAttachable id) ∧
    ∀ text ws b cause, (Project.loadInto text ws b).result = .error cause →
      (Project.loadInto text ws b).workspace = ws ∧ (Project.loadInto text ws b).board = b ∧
        ((∃ fault, Document.parse text = .error fault ∧ cause = .unreadable fault) ∨
          ∃ d e, Document.parse text = .ok d ∧ d.build = .error e ∧ cause = .misplaced e) := by
  have first : ∀ e, d.build = .error e ↔ ∃ before u after, d.entries = before ++ u :: after ∧
      (before.map Entry.id).Nodup ∧ StartsFirst before ∧
      (u.id ∈ before.map Entry.id ∧ e = .duplicateId u.id ∨
        u.id ∉ before.map Entry.id ∧ u.kind = .start ∧ u.first = false ∧
          e = .startNotAttachable u.id) := by
    intro e
    rw [build_eq_error_iff, refusal?_eq_some_iff]
    simp only [refusal?_eq_none_iff, Entry.refusal?_eq_some_iff, List.nil_append, List.not_mem_nil,
      not_false_eq_true, implies_true, true_and, and_assoc]
  refine ⟨exists_build_eq_ok_iff, first, fun e failed => ?_, fun _ _ _ _ failed => ?_⟩
  · obtain ⟨before, u, after, -, -, -, ⟨-, rfl⟩ | ⟨-, -, -, rfl⟩⟩ := (first e).1 failed
    · exact ⟨u.id, Or.inl rfl⟩
    · exact ⟨u.id, Or.inr rfl⟩
  · exact Project.loadInto_of_error failed

end BlockBoard
