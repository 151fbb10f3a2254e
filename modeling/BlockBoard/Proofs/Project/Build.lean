import BlockBoard.Project.Build
import BlockBoard.Proofs.Workspace.Trees

/-!
# What building gives

Nodes whose names are free and different can be added wherever the link is free (`Fits`). Then each
of their blocks is stored with the links that the nodes imply, and nothing else changes but that
link (`Fits.addList`), so the blocks unfold into the trees of the nodes (`unfolds_listTrees`). A
document with a start block builds a workspace that shows just its stacks (`build_eq_ok`).
-/

namespace BlockBoard

/-! ### The trees of nodes -/

namespace Node

/-- The nodes of the body, of which move and fill blocks have none. -/
def body : Node → List Node
  | start _ body | repetition _ _ body => body
  | move _ _ | fill _ _ => []

end Node

theorem Node.hasBody_of_body {node : Node} (h : node.body ≠ []) : node.kind.hasBody := by
  cases node with
  | start | repetition => rfl
  | move | fill => exact absurd rfl h

/-- Nodes are made of their first node, its body, and the nodes that follow it. -/
theorem nodes_induction {motive : List Node → Prop} (nil : motive [])
    (cons : ∀ node nodes, motive node.body → motive nodes → motive (node :: nodes)) :
    ∀ nodes, motive nodes
  | [] => nil
  | .start id body :: nodes =>
    cons _ _ (nodes_induction nil cons body) (nodes_induction nil cons nodes)
  | .move _ _ :: nodes => cons _ _ nil (nodes_induction nil cons nodes)
  | .fill _ _ :: nodes => cons _ _ nil (nodes_induction nil cons nodes)
  | .repetition _ _ body :: nodes =>
    cons _ _ (nodes_induction nil cons body) (nodes_induction nil cons nodes)

/-- The name of the first node. -/
def headId (nodes : List Node) : Option BlockId :=
  nodes.head?.map Node.id

/-- The block of a node that the given one follows. -/
def Node.block (next : Option BlockId) (node : Node) : Block where
  id := node.id
  kind := node.kind
  body := headId node.body
  next := next

mutual

/-- The tree of a node that the given block follows. -/
def Node.tree (next : Option BlockId) : Node → Tree
  | .start id body => .node ((Node.start id body).block next) false (listTrees body)
  | .move id direction => .node ((Node.move id direction).block next) false []
  | .fill id color => .node ((Node.fill id color).block next) false []
  | .repetition id times body =>
    .node ((Node.repetition id times body).block next) false (listTrees body)

/-- The trees of a list of nodes. -/
def listTrees : List Node → List Tree
  | [] => []
  | node :: nodes => node.tree (headId nodes) :: listTrees nodes

end

theorem listTrees_cons (node : Node) (nodes : List Node) :
    listTrees (node :: nodes) =
      .node (node.block (headId nodes)) false (listTrees node.body) :: listTrees nodes := by
  cases node <;> rw [listTrees, Node.tree, Node.body] <;> rfl

/-! ### Adding one block -/

namespace Place

/-- A block after a list with the given first block was put at the place. -/
def relink (first : Option BlockId) (b : Block) : Place → Block
  | topLevel => b
  | inside parent => if b.id = parent then { b with body := first } else b
  | after previous => if b.id = previous then { b with next := first } else b

@[simp]
theorem id_relink (place : Place) (first : Option BlockId) (b : Block) :
    (place.relink first b).id = b.id := by
  cases place <;> simp only [relink] <;> split_ifs <;> rfl

theorem relink_inside_of_ne {p : BlockId} (first : Option BlockId) {b : Block} (ne : b.id ≠ p) :
    (inside p).relink first b = b :=
  if_neg ne

theorem relink_after_of_ne {p : BlockId} (first : Option BlockId) {b : Block} (ne : b.id ≠ p) :
    (after p).relink first b = b :=
  if_neg ne

/-- Nodes may be added at a place: its link is free, and its block may have a body. -/
def Open (ws : Workspace) (nodes : List Node) : Place → Prop
  | topLevel => True
  | inside parent =>
    ∃ b, ws.get? parent = some b ∧ b.body = none ∧ (nodes ≠ [] → b.kind.hasBody)
  | after previous => ∃ b, ws.get? previous = some b ∧ b.next = none

theorem Open.head {ws : Workspace} {node : Node} {nodes : List Node} {place : Place}
    (h : place.Open ws (node :: nodes)) : place.Open ws [node] := by
  cases place with
  | topLevel => exact h
  | inside parent =>
    obtain ⟨b, stored, bodyFree, holds⟩ := h
    exact ⟨b, stored, bodyFree, fun _ => holds (List.cons_ne_nil _ _)⟩
  | after previous => exact h

end Place

namespace Workspace

variable {ws ws' : Workspace} {place : Place}

/-- A place that no list is put at stays as it is. -/
theorem relink_none (c : ws.Coherent) (isOpen : place.Open ws []) (k : BlockId) :
    (ws.get? k).map (fun b => place.relink none b) = ws.get? k := by
  cases hk : ws.get? k with
  | none => rfl
  | some b =>
    have same : place.relink none b = b := by
      cases place with
      | topLevel => rfl
      | inside parent =>
        obtain ⟨owner, stored, free, -⟩ := isOpen
        rw [Place.relink]
        split_ifs with here
        · rw [← here, c.id_eq hk, hk] at stored
          obtain rfl := Option.some.inj stored
          rw [← free]
        · rfl
      | after previous =>
        obtain ⟨owner, stored, free⟩ := isOpen
        rw [Place.relink]
        split_ifs with here
        · rw [← here, c.id_eq hk, hk] at stored
          obtain rfl := Option.some.inj stored
          rw [← free]
        · rfl
    rw [Option.map_some, same]

/-- A new block at a link of a stored block. -/
theorem Coherent.get?_place_attach (c : ws.Coherent) {id p : BlockId} (kind : Kind) (l : Link)
    (free : ws.get? id = none) (owned : (ws.get? p).isSome) (k : BlockId) :
    ((ws.place { id, kind }).attach p l id).get? k =
      if id = k then some { id, kind }
      else (ws.get? k).map fun b => if b.id = p then b.retarget id l else b := by
  rw [get?_attach, get?_place]
  by_cases hk : id = k
  · have ne : p ≠ k := by
      rintro rfl
      simp [← hk, free] at owned
    rw [if_neg ne]
    simp [hk]
  · rw [if_neg hk, if_neg hk]
    cases stored : ws.get? k with
    | none => simp
    | some b => simp [c.id_eq stored, eq_comm, apply_ite some]

/-- A new block that is no start block can be attached at an open place. -/
theorem Coherent.attach_new (c : ws.Coherent) {id : BlockId} {kind : Kind}
    (free : ws.get? id = none) (noStart : kind ≠ .start) {p : BlockId} {l : Link} {b : Block}
    (owner : ws.get? p = some b) (linkFree : b.target l = none)
    (holds : l = .body → b.kind.hasBody) :
    ((ws.place { id, kind }).attach p l id).Coherent ∧
      (ws.place { id, kind }).Attachable p id := by
  have ne : id ≠ p := by
    rintro rfl
    rw [free] at owner
    cases owner
  have stored : (ws.place { id, kind }).get? id = some { id, kind } := by
    rw [get?_place, if_pos rfl]
  have isTop : id ∈ (ws.place { id, kind }).top := by simp
  have owner' : (ws.place { id, kind }).get? p = some b := by
    rw [get?_place, if_neg ne, owner]
  exact ⟨(c.place kind free).attach owner' linkFree holds stored noStart isTop,
    ne.symm, ⟨_, stored, noStart⟩, isTop⟩

theorem Coherent.top_place_attach (c : ws.Coherent) {id : BlockId} (kind : Kind) (p : BlockId)
    (l : Link) (free : ws.get? id = none) :
    ((ws.place { id, kind }).attach p l id).top = ws.top := by
  have others : ∀ k ∈ ws.top, k ≠ id := by
    rintro k hk rfl
    exact c.not_mem_top_of_get? free hk
  rw [top_attach, top_place, List.filter_append]
  simpa using others

/-- A block without links was added at a place. -/
structure Placed (ws : Workspace) (place : Place) (node : Node) (ws' : Workspace) : Prop where
  coherent : ws'.Coherent
  get?_eq : ∀ k, ws'.get? k = if node.id = k then some { id := node.id, kind := node.kind }
    else (ws.get? k).map fun b => place.relink (some node.id) b
  top_eq : ws'.top = ws.top ++ if place = .topLevel then [node.id] else []

/-- A block that is new is added at an open place, start blocks only at the top level. -/
theorem Coherent.insertAt (c : ws.Coherent) {node : Node} (free : ws.get? node.id = none)
    (isOpen : place.Open ws [node]) (start : node.kind = .start → place = .topLevel) :
    ∃ ws', ws.insertAt place node.id node.kind = .ok ws' ∧ Placed ws place node ws' := by
  have inserted : ws.insert node.id node.kind =
      .ok (ws.place { id := node.id, kind := node.kind }) := insert_eq_ok_iff.2 ⟨free, rfl⟩
  have kept : ∀ {p b}, ws.get? p = some b →
      (ws.place { id := node.id, kind := node.kind }).get? p = some b := by
    intro p b stored
    have ne : node.id ≠ p := by
      rintro rfl
      simp [free] at stored
    rw [get?_place, if_neg ne, stored]
  rw [Workspace.insertAt, inserted, ok_bind]
  cases place with
  | topLevel =>
    refine ⟨_, rfl, c.place _ free, fun k => ?_, by simp⟩
    rw [get?_place]
    simp [Place.relink]
  | inside parent =>
    obtain ⟨owner, stored, bodyFree, holds⟩ := isOpen
    have noStart : node.kind ≠ .start := fun h => by simpa using start h
    have holds := holds (List.cons_ne_nil _ _)
    obtain ⟨coherent, attachable⟩ :=
      c.attach_new free noStart stored (l := .body) bodyFree fun _ => holds
    have last : (ws.place { id := node.id, kind := node.kind }).lastLink owner =
        (parent, .body) := by
      rw [lastLink, bodyFree, c.id_eq stored]
    refine ⟨_, append_eq_ok_iff.2 ⟨owner, kept stored, holds, attachable, by rw [last]⟩, coherent,
      c.get?_place_attach _ _ free (by rw [stored]; rfl), ?_⟩
    simpa using c.top_place_attach _ _ _ free
  | after previous =>
    obtain ⟨owner, stored, nextFree⟩ := isOpen
    have noStart : node.kind ≠ .start := fun h => by simpa using start h
    obtain ⟨coherent, attachable⟩ :=
      c.attach_new free noStart stored (l := .next) nextFree fun hl => Link.noConfusion hl
    refine ⟨_, setNext_eq_ok_iff.2 ⟨owner, kept stored, nextFree, attachable, rfl⟩, coherent,
      c.get?_place_attach _ _ free (by rw [stored]; rfl), ?_⟩
    simpa using c.top_place_attach _ _ _ free

/-! ### Adding lists -/

theorem addList_cons (ws : Workspace) (place : Place) (node : Node) (nodes : List Node) :
    ws.addList place (node :: nodes) =
      ws.insertAt place node.id node.kind >>= fun ws =>
        ws.addList (.inside node.id) node.body >>= fun ws =>
          ws.addList (.after node.id) nodes := by
  rw [addList]
  cases node <;> rw [addNode] <;> simp only [Node.id, Node.kind, Node.body, addList] <;>
    cases ws.insertAt place _ _ <;> rfl

/-- What nodes need in order to be added: free and different names, a free link, and that a start
block comes first at the top level. -/
structure Fits (ws : Workspace) (place : Place) (nodes : List Node) : Prop where
  coherent : ws.Coherent
  nodup : (listIds (listTrees nodes)).Nodup
  fresh : ∀ k ∈ listIds (listTrees nodes), ws.get? k = none
  isOpen : place.Open ws nodes
  start : ∀ b ∈ listBlocks (listTrees nodes), b.kind = .start →
    place = .topLevel ∧ headId nodes = some b.id

/-- The blocks of nodes were added with their links, and nothing else but the link of the place
changed. -/
structure Added (ws : Workspace) (place : Place) (nodes : List Node) (ws' : Workspace) : Prop where
  coherent : ws'.Coherent
  stored : ∀ b ∈ listBlocks (listTrees nodes), ws'.get? b.id = some b
  others : ∀ k ∉ listIds (listTrees nodes),
    ws'.get? k = (ws.get? k).map fun b => place.relink (headId nodes) b
  top_eq : ws'.top = ws.top ++ if place = .topLevel then (headId nodes).toList else []

section Cons

variable {node : Node} {nodes : List Node} {ws₁ ws₂ ws₃ : Workspace}

theorem mem_listIds {trees : List Tree} {b : Block} (hb : b ∈ listBlocks trees) :
    b.id ∈ listIds trees :=
  List.mem_map_of_mem hb

theorem ids_cons (node : Node) (nodes : List Node) :
    listIds (listTrees (node :: nodes)) =
      node.id :: (listIds (listTrees node.body) ++ listIds (listTrees nodes)) := by
  rw [listTrees_cons, listIds_cons]
  rfl

theorem blocks_cons (node : Node) (nodes : List Node) :
    listBlocks (listTrees (node :: nodes)) = node.block (headId nodes) ::
      (listBlocks (listTrees node.body) ++ listBlocks (listTrees nodes)) := by
  rw [listTrees_cons, listBlocks_cons]

/-- The body of a block that was added is free. -/
theorem Placed.isOpen_inside (placed : Placed ws place node ws₁) :
    (Place.inside node.id).Open ws₁ node.body :=
  ⟨_, by rw [placed.get?_eq, if_pos rfl], rfl, Node.hasBody_of_body⟩

/-- Nothing follows a block that was added with its body. -/
theorem Placed.isOpen_after (placed : Placed ws place node ws₁)
    (added : Added ws₁ (.inside node.id) node.body ws₂)
    (absent : node.id ∉ listIds (listTrees node.body)) : (Place.after node.id).Open ws₂ nodes := by
  refine ⟨_, by rw [added.others _ absent, placed.get?_eq, if_pos rfl, Option.map_some], ?_⟩
  simp [Place.relink]

/-- In a list without repeated names, the first node, its body and the others are apart. -/
theorem nodup_ids_cons (h : (listIds (listTrees (node :: nodes))).Nodup) :
    (listIds (listTrees node.body)).Nodup ∧ (listIds (listTrees nodes)).Nodup ∧
      node.id ∉ listIds (listTrees node.body) ∧ node.id ∉ listIds (listTrees nodes) ∧
      (listIds (listTrees node.body)).Disjoint (listIds (listTrees nodes)) := by
  rw [ids_cons, List.nodup_cons, List.mem_append, not_or, List.nodup_append'] at h
  exact ⟨h.2.1, h.2.2.1, h.1.1, h.1.2, h.2.2.2⟩

namespace Fits

/-- The first node may be added without its body. -/
theorem insertAt (h : Fits ws place (node :: nodes)) :
    ∃ ws', ws.insertAt place node.id node.kind = .ok ws' ∧ Placed ws place node ws' := by
  have free := h.fresh node.id (by simp [ids_cons])
  refine h.coherent.insertAt free h.isOpen.head fun start => ?_
  exact (h.start (node.block (headId nodes)) (by simp [blocks_cons]) start).1

/-- A start block that is not the first node of a stack does not fit. -/
theorem not_start (h : Fits ws place (node :: nodes)) {b : Block}
    (hb : b ∈ listBlocks (listTrees (node :: nodes))) (ne : b.id ≠ node.id) : b.kind ≠ .start :=
  fun start => ne (Option.some.inj (h.start b hb start).2).symm

theorem body (h : Fits ws place (node :: nodes)) (placed : Placed ws place node ws₁) :
    Fits ws₁ (.inside node.id) node.body := by
  obtain ⟨nodup, -, absent, -, -⟩ := nodup_ids_cons h.nodup
  constructor
  case coherent => exact placed.coherent
  case nodup => exact nodup
  case fresh =>
    intro k hk
    rw [placed.get?_eq, if_neg (ne_of_mem_of_not_mem hk absent).symm,
      h.fresh k (by simp [ids_cons, hk])]
    rfl
  case isOpen => exact placed.isOpen_inside
  case start =>
    intro b hb start
    have ne := ne_of_mem_of_not_mem (mem_listIds hb) absent
    exact absurd start (h.not_start (by simp [blocks_cons, hb]) ne)

theorem rest (h : Fits ws place (node :: nodes)) (placed : Placed ws place node ws₁)
    (added : Added ws₁ (.inside node.id) node.body ws₂) : Fits ws₂ (.after node.id) nodes := by
  obtain ⟨-, nodup, notInside, absent, disjoint⟩ := nodup_ids_cons h.nodup
  constructor
  case coherent => exact added.coherent
  case nodup => exact nodup
  case fresh =>
    intro k hk
    rw [added.others k (disjoint.symm hk), placed.get?_eq,
      if_neg (ne_of_mem_of_not_mem hk absent).symm, h.fresh k (by simp [ids_cons, hk])]
    rfl
  case isOpen => exact placed.isOpen_after added notInside
  case start =>
    intro b hb start
    have ne := ne_of_mem_of_not_mem (mem_listIds hb) absent
    exact absurd start (h.not_start (by simp [blocks_cons, hb]) ne)

/-- Adding a node, its body and the nodes that follow it adds the list. -/
theorem added (h : Fits ws place (node :: nodes)) (placed : Placed ws place node ws₁)
    (inside : Added ws₁ (.inside node.id) node.body ws₂)
    (after : Added ws₂ (.after node.id) nodes ws₃) : Added ws place (node :: nodes) ws₃ := by
  obtain ⟨-, -, notInside, notAfter, disjoint⟩ := nodup_ids_cons h.nodup
  constructor
  case coherent => exact after.coherent
  case stored =>
    intro b hb
    rw [blocks_cons, List.mem_cons, List.mem_append] at hb
    rcases hb with rfl | hb | hb
    · rw [Node.block, after.others _ notAfter, inside.others _ notInside, placed.get?_eq,
        if_pos rfl]
      simp [Place.relink]
    · have ne := ne_of_mem_of_not_mem (mem_listIds hb) notInside
      rw [after.others _ (disjoint (mem_listIds hb)), inside.stored b hb, Option.map_some,
        Place.relink_after_of_ne _ ne]
    · exact after.stored b hb
  case others =>
    intro k hk
    rw [ids_cons, List.mem_cons, List.mem_append, not_or, not_or] at hk
    obtain ⟨ne, notInside, notAfter⟩ := hk
    rw [after.others k notAfter, inside.others k notInside, placed.get?_eq, if_neg (Ne.symm ne)]
    cases stored : ws.get? k with
    | none => rfl
    | some b =>
      have ne : b.id ≠ node.id := by rwa [h.coherent.id_eq stored]
      simp only [Option.map_some]
      rw [Place.relink_inside_of_ne _ (by simpa using ne),
        Place.relink_after_of_ne _ (by simpa using ne)]
      rfl
  case top_eq =>
    rw [after.top_eq, inside.top_eq, placed.top_eq]
    simp [headId]

end Fits

end Cons

/-- Nodes that fit are added. -/
theorem Fits.addList {nodes : List Node} (h : Fits ws place nodes) :
    ∃ ws', ws.addList place nodes = .ok ws' ∧ Added ws place nodes ws' := by
  induction nodes using nodes_induction generalizing ws place with
  | nil =>
    refine ⟨ws, by rw [Workspace.addList, pure_eq_ok], h.coherent, by simp [listTrees], ?_, ?_⟩
    · exact fun k _ => (relink_none h.coherent h.isOpen k).symm
    · simp [headId]
  | cons node nodes ihBody ihRest =>
    obtain ⟨ws₁, first, placed⟩ := h.insertAt
    obtain ⟨ws₂, second, inside⟩ := ihBody (h.body placed)
    obtain ⟨ws₃, third, after⟩ := ihRest (h.rest placed inside)
    exact ⟨ws₃, by rw [addList_cons, first, ok_bind, second, ok_bind, third],
      h.added placed inside after⟩

/-- Nodes whose blocks are stored with their links are what their first block unfolds into. -/
theorem unfolds_listTrees {nodes : List Node}
    (stored : ∀ b ∈ listBlocks (listTrees nodes), ws.get? b.id = some b) :
    ws.Unfolds (headId nodes) (listTrees nodes) := by
  induction nodes using nodes_induction with
  | nil =>
    rw [listTrees]
    exact .nil
  | cons node nodes ihBody ihRest =>
    simp only [blocks_cons, List.mem_cons, List.mem_append] at stored
    rw [listTrees_cons]
    exact .cons (stored _ (Or.inl rfl)) (ihBody fun b hb => stored b (Or.inr (Or.inl hb)))
      (ihRest fun b hb => stored b (Or.inr (Or.inr hb)))

/-! ### Building is a run of edits -/

/-- Some edits lead from one workspace to another. -/
def Reaches (ws ws' : Workspace) : Prop :=
  ∃ edits, ws.run edits = ws'

namespace Reaches

variable {ws'' : Workspace}

theorem refl (ws : Workspace) : Reaches ws ws :=
  ⟨[], rfl⟩

theorem trans (h : Reaches ws ws') (h' : Reaches ws' ws'') : Reaches ws ws'' := by
  obtain ⟨edits, rfl⟩ := h
  obtain ⟨edits', rfl⟩ := h'
  exact ⟨edits ++ edits', List.foldl_append⟩

theorem of_ok (edit : Edit) {result : Except EditError Workspace}
    (h : ws.apply edit = ws.afterEdit result) (ok : result = .ok ws') : Reaches ws ws' :=
  ⟨[edit], by rw [run, List.foldl_cons, List.foldl_nil, h, ok]; rfl⟩

theorem insertAt {id : BlockId} {kind : Kind} (h : ws.insertAt place id kind = .ok ws') :
    Reaches ws ws' := by
  obtain ⟨ws₁, inserted, attached⟩ := bind_eq_ok_iff.1 h
  have first : Reaches ws ws₁ := of_ok (.insert id kind) rfl inserted
  cases place with
  | topLevel =>
    obtain rfl := Except.ok.inj attached
    exact first
  | inside parent => exact first.trans (of_ok (.append parent id) rfl attached)
  | after previous => exact first.trans (of_ok (.setNext previous id) rfl attached)

theorem addList {nodes : List Node} (h : ws.addList place nodes = .ok ws') : Reaches ws ws' := by
  induction nodes using nodes_induction generalizing ws ws' place with
  | nil =>
    rw [Workspace.addList] at h
    obtain rfl := Except.ok.inj h
    exact refl ws
  | cons node nodes ihBody ihRest =>
    rw [addList_cons] at h
    obtain ⟨ws₁, first, h⟩ := bind_eq_ok_iff.1 h
    obtain ⟨ws₂, second, third⟩ := bind_eq_ok_iff.1 h
    exact (insertAt first).trans ((ihBody second).trans (ihRest third))

theorem addStacks {lists : List (List Node)} (h : ws.addStacks lists = .ok ws') :
    Reaches ws ws' := by
  induction lists generalizing ws with
  | nil =>
    obtain rfl := Except.ok.inj h
    exact refl ws
  | cons stack lists ih =>
    obtain ⟨ws₁, first, rest⟩ := bind_eq_ok_iff.1 h
    exact (addList first).trans (ih rest)

end Reaches

/-- A workspace that is built from a document is one that edits lead to. -/
theorem reachable_of_build {d : Document} (h : d.build = .ok ws) : ws.Reachable := by
  obtain ⟨ws₁, added, built⟩ := bind_eq_ok_iff.1 h
  obtain rfl := Except.ok.inj built
  obtain ⟨edits, same⟩ := (Reaches.addStacks added).trans ⟨[.ensureStart], rfl⟩
  exact ⟨edits, Or.inl same.symm⟩

theorem exists_start?_of_build {d : Document} (h : d.build = .ok ws) :
    ∃ start, ws.start? = some start := by
  obtain ⟨ws₁, -, built⟩ := bind_eq_ok_iff.1 h
  obtain rfl := Except.ok.inj built
  exact ws₁.exists_start?_ensureStart

/-! ### Adding stacks -/

/-- The names of the blocks of some stacks. -/
def stackIds (lists : List (List Node)) : List BlockId :=
  lists.flatMap fun stack => listIds (listTrees stack)

/-- Some stacks were added, and nothing else changed. -/
structure Stacked (ws : Workspace) (lists : List (List Node)) (ws' : Workspace) : Prop where
  coherent : ws'.Coherent
  stored : ∀ stack ∈ lists, ∀ b ∈ listBlocks (listTrees stack), ws'.get? b.id = some b
  others : ∀ k ∉ stackIds lists, ws'.get? k = ws.get? k
  top_eq : ws'.top = ws.top ++ lists.filterMap headId

/-- Stacks alone store their own blocks only. -/
theorem Stacked.exists_mem_of_get? {lists : List (List Node)} (h : Stacked empty lists ws)
    {k : BlockId} {b : Block} (stored : ws.get? k = some b) :
    ∃ stack ∈ lists, b ∈ listBlocks (listTrees stack) := by
  have named : k ∈ stackIds lists := by
    by_contra other
    rw [h.others k other, get?_empty] at stored
    cases stored
  obtain ⟨stack, hs, hk⟩ := List.mem_flatMap.1 named
  obtain ⟨b', hb', rfl⟩ := List.mem_map.1 hk
  obtain rfl := Option.some.inj (stored.symm.trans (h.stored stack hs b' hb'))
  exact ⟨stack, hs, hb'⟩

/-- Stacks with new and different names are added, if start blocks come first in them. -/
theorem Coherent.addStacks (c : ws.Coherent) {lists : List (List Node)}
    (nodup : (stackIds lists).Nodup) (fresh : ∀ k ∈ stackIds lists, ws.get? k = none)
    (start : ∀ stack ∈ lists, ∀ b ∈ listBlocks (listTrees stack), b.kind = .start →
      headId stack = some b.id) :
    ∃ ws', ws.addStacks lists = .ok ws' ∧ Stacked ws lists ws' := by
  induction lists generalizing ws with
  | nil => exact ⟨ws, rfl, c, by simp, fun _ _ => rfl, by simp⟩
  | cons stack lists ih =>
    have ids : stackIds (stack :: lists) = listIds (listTrees stack) ++ stackIds lists :=
      List.flatMap_cons
    rw [ids] at nodup fresh
    obtain ⟨stackNodup, restNodup, disjoint⟩ := List.nodup_append.1 nodup
    have fits : Fits ws .topLevel stack :=
      ⟨c, stackNodup, fun k hk => fresh k (List.mem_append_left _ hk), trivial,
        fun b hb isStart => ⟨rfl, start stack List.mem_cons_self b hb isStart⟩⟩
    obtain ⟨ws₁, first, added⟩ := fits.addList
    have others : ∀ k ∉ listIds (listTrees stack), ws₁.get? k = ws.get? k := by
      intro k hk
      rw [added.others k hk]
      cases ws.get? k <;> rfl
    have notFirst : ∀ k ∈ stackIds lists, k ∉ listIds (listTrees stack) :=
      fun k hk hk' => disjoint k hk' k hk rfl
    have fresh₁ : ∀ k ∈ stackIds lists, ws₁.get? k = none := by
      intro k hk
      rw [others k (notFirst k hk), fresh k (List.mem_append_right _ hk)]
    obtain ⟨ws₂, second, stacked⟩ := ih added.coherent restNodup fresh₁
      fun s hs => start s (List.mem_cons_of_mem _ hs)
    refine ⟨ws₂, by rw [Workspace.addStacks, first, ok_bind, second], stacked.coherent, ?_, ?_, ?_⟩
    · intro s hs b hb
      rcases List.mem_cons.1 hs with rfl | hs
      · have notRest : b.id ∉ stackIds lists :=
          fun hk => notFirst b.id hk (mem_listIds hb)
        rw [stacked.others _ notRest, added.stored b hb]
      · exact stacked.stored s hs b hb
    · intro k hk
      rw [ids, List.mem_append, not_or] at hk
      rw [stacked.others k hk.2, others k hk.1]
    · rw [stacked.top_eq, added.top_eq, if_pos rfl, List.append_assoc, List.filterMap_cons]
      cases headId stack <;> rfl

namespace Stacked

variable {lists : List (List Node)}

/-- A stack unfolds into its trees. -/
theorem unfolds (h : Stacked ws lists ws') {stack : List Node} (hs : stack ∈ lists) :
    ws'.Unfolds (headId stack) (listTrees stack) :=
  unfolds_listTrees (h.stored stack hs)

/-- The top level of stacks alone are their first blocks. -/
theorem topBlocks_eq (h : Stacked empty lists ws') :
    ws'.topBlocks = lists.filterMap fun stack => headBlock (listTrees stack) := by
  rw [topBlocks, h.top_eq, top_empty, List.nil_append, List.filterMap_filterMap]
  refine List.filterMap_congr fun stack hs => ?_
  cases stack with
  | nil => simp [headId, listTrees, headBlock]
  | cons node nodes =>
    have stored := h.stored _ hs (node.block (headId nodes)) (by simp [blocks_cons])
    rw [listTrees_cons]
    exact stored

end Stacked

end Workspace

namespace Document

open Workspace

/-- A document whose stacks contain a start block builds a workspace of its stacks. -/
theorem build_eq_ok {d : Document} (nodup : (stackIds d.blocks).Nodup)
    (start : ∀ stack ∈ d.blocks, ∀ b ∈ listBlocks (listTrees stack), b.kind = .start →
      headId stack = some b.id)
    (exists_start : ((d.blocks.filterMap fun stack => headBlock (listTrees stack)).find?
      fun b => b.kind = .start).isSome) :
    ∃ ws, d.build = .ok ws ∧ Stacked empty d.blocks ws := by
  obtain ⟨ws, added, stacked⟩ := coherent_empty.addStacks nodup (fun k _ => get?_empty k) start
  refine ⟨ws, ?_, stacked⟩
  rw [build, added, ok_bind, pure_eq_ok, ensureStart]
  rw [← stacked.topBlocks_eq] at exists_start
  obtain ⟨b, hb⟩ := Option.isSome_iff_exists.1 exists_start
  rw [start?, hb]

/-- A start block with different names and no other start block in its body builds a program. -/
theorem exists_build_program {id : BlockId} {nodes : List Node}
    (nodup : (id :: listIds (listTrees nodes)).Nodup)
    (noStart : ∀ b ∈ listBlocks (listTrees nodes), b.kind ≠ .start) :
    ∃ ws start, build { blocks := [[.start id nodes]] } = .ok ws ∧
      Stacked empty [[.start id nodes]] ws ∧ ws.start? = some start ∧
      ws.Unfolds start.body (listTrees nodes) := by
  have ids : stackIds [[.start id nodes]] = id :: listIds (listTrees nodes) := by
    rw [stackIds, List.flatMap_singleton, ids_cons]
    simp [Node.id, Node.body, listTrees]
  have first : ∀ stack ∈ [[Node.start id nodes]], ∀ b ∈ listBlocks (listTrees stack),
      b.kind = .start → headId stack = some b.id := by
    intro stack hs b hb isStart
    obtain rfl := List.mem_singleton.1 hs
    rw [blocks_cons, List.mem_cons, List.mem_append] at hb
    rcases hb with rfl | hb | hb
    · rfl
    · exact absurd isStart (noStart b hb)
    · exact absurd hb (by simp [listTrees])
  have heads : ([[Node.start id nodes]].filterMap fun stack => headBlock (listTrees stack)) =
      [(Node.start id nodes).block none] := by
    rw [List.filterMap_cons, listTrees_cons]
    rfl
  have found : [(Node.start id nodes).block none].find? (fun b => b.kind = .start) =
      some ((Node.start id nodes).block none) := rfl
  obtain ⟨ws, built, stacked⟩ :=
    build_eq_ok (d := { blocks := [[.start id nodes]] }) (ids ▸ nodup) first
      (by rw [heads, found]; rfl)
  refine ⟨ws, _, built, stacked, by rw [start?, stacked.topBlocks_eq, heads, found], ?_⟩
  have unfolds := stacked.unfolds (List.mem_singleton_self [Node.start id nodes])
  rw [listTrees_cons] at unfolds
  cases unfolds with
  | cons _ body _ => exact body

end Document

end BlockBoard
