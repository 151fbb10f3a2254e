import BlockBoard.Proofs.Program.Flatten

/-!
# Blocks that take no part in a program

A program is what the body of the start block unfolds into, and nothing else of the workspace counts
(`Coherent.compile?_eq`). The blocks of the start block's tree are closed under going back along
links, so the end of any other body lies outside of it (`HasProgram.not_mem_of_reach`). Therefore an
edit that is refused, that adds a block, or that links one to a block outside of the tree keeps the
program (`HasProgram.apply`), and so does a run of such edits (`Reachable.compile_elsewhere`).
-/

namespace BlockBoard

open Relation

namespace Workspace

variable {ws ws' : Workspace}

/-! ### The program of a workspace -/

/-- The start block has the given name, and its body unfolds into the given trees. -/
def HasProgram (ws : Workspace) (id : BlockId) (trees : List Tree) : Prop :=
  ∃ start, ws.start? = some start ∧ start.id = id ∧ ws.Unfolds start.body trees

/-- Compiling sees the trees of the start block's body only. -/
theorem Coherent.compile?_eq (c : ws.Coherent) {id : BlockId} {trees : List Tree}
    (h : ws.HasProgram id trees) :
    ws.compile? = some (compileAll maxSteps {} (trees.map (Tree.prune maxDepth))) := by
  obtain ⟨start, hs, -, unfolds⟩ := h
  rw [compile?, hs, Option.map_some, unfolds.forest_eq c]

/-- Trees whose blocks are stored alike are unfolded alike. -/
theorem Unfolds.congr (c : ws.Coherent) {first : Option BlockId} {trees : List Tree}
    (h : ws.Unfolds first trees) (same : ∀ k ∈ listIds trees, ws'.get? k = ws.get? k) :
    ws'.Unfolds first trees := by
  induction h with
  | nil => exact .nil
  | @cons k b body rest hk _ _ ihBody ihRest =>
    rw [listIds_cons, c.id_eq hk] at same
    refine .cons ((same k List.mem_cons_self).trans hk) (ihBody fun x hx => same x ?_)
      (ihRest fun x hx => same x ?_)
    · exact List.mem_cons_of_mem _ (List.mem_append_left _ hx)
    · exact List.mem_cons_of_mem _ (List.mem_append_right _ hx)

/-! ### What edits do to the start block -/

theorem start?_congr (get? : ∀ k, ws'.get? k = ws.get? k) (top : ws'.top = ws.top) :
    ws'.start? = ws.start? := by
  rw [start?, start?, topBlocks, topBlocks, top, funext get?]

/-- A new block comes behind those of the top level. -/
theorem Coherent.topBlocks_place (c : ws.Coherent) {b : Block} (free : ws.get? b.id = none) :
    (ws.place b).topBlocks = ws.topBlocks ++ [b] := by
  rw [topBlocks, topBlocks, top_place, List.filterMap_append]
  congr 1
  · refine List.filterMap_congr fun k hk => ?_
    have ne : b.id ≠ k := by
      rintro rfl
      exact c.not_mem_top_of_get? free hk
    rw [get?_place, if_neg ne]
  · rw [List.filterMap_cons, get?_place, if_pos rfl, List.filterMap_nil]

theorem Coherent.start?_place (c : ws.Coherent) {b start : Block} (free : ws.get? b.id = none)
    (hs : ws.start? = some start) : (ws.place b).start? = some start := by
  rw [start?, c.topBlocks_place free, List.find?_append]
  rw [start?] at hs
  rw [hs, Option.some_or]

/-- Attaching a block that is no start block changes no more of the start block than a link. -/
theorem Coherent.start?_attach (c : ws.Coherent) {p child : BlockId} {l : Link} {b : Block}
    (stored : ws.get? child = some b) (noStart : b.kind ≠ .start) :
    (ws.attach p l child).start? =
      ws.start?.map fun s => if p = s.id then s.retarget child l else s := by
  rw [start?, start?, topBlocks, topBlocks, top_attach]
  have stored' := @c.top_stored
  generalize ws.top = top at stored'
  induction top with
  | nil => rfl
  | cons k top ih =>
    obtain ⟨s, hk⟩ := Option.isSome_iff_exists.1 (stored' List.mem_cons_self)
    have rest := ih fun hk => stored' (List.mem_cons_of_mem _ hk)
    have moved : (ws.attach p l child).get? k =
        some (if p = s.id then s.retarget child l else s) := by
      rw [get?_attach, c.id_eq hk, hk]
      split_ifs <;> rfl
    have kind : (if p = s.id then s.retarget child l else s).kind = s.kind := by
      split_ifs <;> simp
    rw [List.filterMap_cons, hk]
    by_cases same : k = child
    · subst same
      obtain rfl := Option.some.inj (stored.symm.trans hk)
      rw [List.filter_cons_of_neg (by simp), rest, List.find?_cons_of_neg (by simpa using noStart)]
    · rw [List.filter_cons_of_pos (by simpa using same), List.filterMap_cons, moved]
      by_cases start : s.kind = .start
      · rw [List.find?_cons_of_pos (by simpa [kind] using start),
          List.find?_cons_of_pos (by simpa using start)]
        rfl
      · rw [List.find?_cons_of_neg (by simpa [kind] using start),
          List.find?_cons_of_neg (by simpa using start), rest]

/-! ### Blocks outside of the program -/

/-- What is met on a list is reached from its first block. -/
theorem Lists.reach (c : ws.Coherent) {k : BlockId} {bs : List Block}
    (h : ws.Lists (some k) bs) {b : Block} (hb : b ∈ bs) : ReflTransGen ws.Leads k b.id := by
  obtain ⟨k', hk, reach⟩ := (h.mem_ids_iff c).1 (List.mem_map_of_mem hb)
  obtain rfl := Option.some.inj hk
  exact ReflTransGen.mono (fun _ _ follows => ⟨.next, follows⟩) _ _ reach

/-- The link at which a body goes on belongs to its owner or to a block that is reached from it. -/
theorem Coherent.reach_lastLink (c : ws.Coherent) {k : BlockId} {parent : Block}
    (stored : ws.get? k = some parent) : ReflTransGen ws.Leads k (ws.lastLink parent).1 := by
  unfold lastLink
  cases hbody : parent.body with
  | none => rw [c.id_eq stored]
  | some first =>
    have leads : ws.Leads k first := ⟨.body, (target?_of_get? stored .body).trans hbody⟩
    have lists := c.lists_chain (Or.inr ⟨k, parent, stored, hbody.symm⟩)
    refine ReflTransGen.head leads ?_
    show ReflTransGen ws.Leads first (ws.lastOf first)
    unfold lastOf
    cases last : (ws.chain (some first)).getLast? with
    | none => exact .refl
    | some b => exact lists.reach c (List.mem_of_getLast? last)

namespace HasProgram

variable {id : BlockId} {trees : List Tree}

theorem congr (c : ws.Coherent) (h : ws.HasProgram id trees)
    (get? : ∀ k, ws'.get? k = ws.get? k) (top : ws'.top = ws.top) : ws'.HasProgram id trees := by
  obtain ⟨start, hs, name, unfolds⟩ := h
  exact ⟨start, (start?_congr get? top).trans hs, name, unfolds.congr c fun k _ => get? k⟩

/-- A block that leads into the start block's tree belongs to it. -/
theorem mem_of_leads (c : ws.Coherent) (h : ws.HasProgram id trees) {p x : BlockId}
    (leads : ws.Leads p x) (hx : x ∈ id :: listIds trees) : p ∈ id :: listIds trees := by
  obtain ⟨start, hs, rfl, unfolds⟩ := h
  obtain ⟨isTop, stored⟩ := c.id_mem_top_of_start? hs
  rcases List.mem_cons.1 hx with rfl | hx
  · exact absurd leads (c.not_leads_top isTop p)
  · obtain ⟨k, hk, reach⟩ := (unfolds.mem_ids_iff c).1 hx
    rcases ReflTransGen.cases_tail reach with rfl | ⟨q, inside, step⟩
    · have owner : ws.Leads start.id x := ⟨.body, (target?_of_get? stored .body).trans hk⟩
      rw [c.leads_unique leads owner]
      exact List.mem_cons_self
    · rw [c.leads_unique leads step]
      exact List.mem_cons_of_mem _ ((unfolds.mem_ids_iff c).2 ⟨k, hk, inside⟩)

/-- Nothing of the start block's tree is reached from outside of it. -/
theorem not_mem_of_reach (c : ws.Coherent) (h : ws.HasProgram id trees) {p x : BlockId}
    (reach : ReflTransGen ws.Leads p x) (outside : p ∉ id :: listIds trees) :
    x ∉ id :: listIds trees := by
  induction reach with
  | refl => exact outside
  | tail _ step ih => exact fun hx => ih (h.mem_of_leads c step hx)

/-! ### Edits that keep the program -/

theorem place (c : ws.Coherent) (h : ws.HasProgram id trees) {b : Block}
    (free : ws.get? b.id = none) : (ws.place b).HasProgram id trees := by
  obtain ⟨start, hs, name, unfolds⟩ := h
  refine ⟨start, c.start?_place free hs, name, unfolds.congr c fun k hk => ?_⟩
  obtain ⟨b', hb', rfl⟩ := List.mem_map.1 hk
  have ne : b.id ≠ b'.id := by
    intro same
    rw [same, unfolds.get?_of_mem c hb'] at free
    cases free
  rw [get?_place, if_neg ne]

theorem add (c : ws.Coherent) (h : ws.HasProgram id trees) (kind : Kind) :
    (ws.add kind).1.HasProgram id trees := by
  have used : ws.useFreshId.Coherent := c.congr (fun _ => rfl) rfl
  have kept : ws.useFreshId.HasProgram id trees := h.congr c (fun _ => rfl) rfl
  exact kept.place used ws.get?_freshId

/-- A block may be attached to any block outside of the body, and behind the start block. -/
theorem attach (c : ws.Coherent) (h : ws.HasProgram id trees) {p child : BlockId} {l : Link}
    {b : Block} (stored : ws.get? child = some b) (noStart : b.kind ≠ .start)
    (outside : p ∉ listIds trees) (behind : p = id → l = .next) :
    (ws.attach p l child).HasProgram id trees := by
  obtain ⟨start, hs, rfl, unfolds⟩ := h
  refine ⟨if p = start.id then start.retarget child l else start, ?_, ?_, ?_⟩
  · rw [c.start?_attach stored noStart, hs, Option.map_some]
  · split_ifs <;> simp
  · have body : (if p = start.id then start.retarget child l else start).body = start.body := by
      split_ifs with own
      · rw [behind own]
        rfl
      · rfl
    rw [body]
    refine unfolds.congr c fun k hk => ?_
    have ne : p ≠ k := by
      rintro rfl
      exact outside hk
    rw [get?_attach, if_neg ne]

theorem append (c : ws.Coherent) (h : ws.HasProgram id trees) {parent child : BlockId}
    (ha : ws.append parent child = .ok ws') (outside : parent ∉ id :: listIds trees) :
    ws'.HasProgram id trees := by
  obtain ⟨b, hb, -, ⟨-, ⟨moved, stored, noStart⟩, -⟩, rfl⟩ := append_eq_ok_iff.1 ha
  have apart := h.not_mem_of_reach c (c.reach_lastLink hb) outside
  rw [List.mem_cons, not_or] at apart
  exact h.attach c stored noStart apart.2 fun own => absurd own apart.1

theorem setNext (c : ws.Coherent) (h : ws.HasProgram id trees) {anchor next : BlockId}
    (hn : ws.setNext anchor next = .ok ws') (outside : anchor ∉ listIds trees) :
    ws'.HasProgram id trees := by
  obtain ⟨-, -, -, ⟨-, ⟨moved, stored, noStart⟩, -⟩, rfl⟩ := setNext_eq_ok_iff.1 hn
  exact h.attach c stored noStart outside fun _ => rfl

theorem push (c : ws.Coherent) (h : ws.HasProgram id trees) {parent : BlockId} {kind : Kind}
    (outside : parent ∉ id :: listIds trees) : (ws.push parent kind).1.HasProgram id trees := by
  rcases c.push_cases parent kind with ⟨unchanged, e, eq, get?, top⟩ | ⟨linked, eq, ha⟩
  · rw [eq]
    exact h.congr c get? top
  · rw [eq]
    exact (h.add c kind).append (c.add kind) ha outside

theorem ensureStart (h : ws.HasProgram id trees) : ws.ensureStart.1.HasProgram id trees := by
  have ⟨start, hs, _⟩ := h
  rw [Workspace.ensureStart, hs]
  exact h

end HasProgram

/-! ### Runs of edits -/

/-- The workspace refuses an edit. -/
def Refuses (ws : Workspace) : Edit → Prop
  | .insert id kind => ∃ e, ws.insert id kind = .error e
  | .append parent child => ∃ e, ws.append parent child = .error e
  | .setNext anchor next => ∃ e, ws.setNext anchor next = .error e
  | .push parent kind => ∃ e, (ws.push parent kind).2 = .error e
  | .add _ | .ensureStart | .clear => False

/-- The edit adds a block, or links one to a block outside of a tree, which is given by the name of
its start block and those of the blocks below. The start block may get a successor. -/
def Edit.Spares (id : BlockId) (body : List BlockId) : Edit → Prop
  | .add _ | .insert _ _ | .ensureStart => True
  | .append parent _ | .push parent _ => parent ∉ id :: body
  | .setNext anchor _ => anchor ∉ body
  | .clear => False

/-- Edits each of which is refused in its turn, or spares a tree. -/
inductive Elsewhere (id : BlockId) (body : List BlockId) : Workspace → List Edit → Prop
  | nil {ws : Workspace} : Elsewhere id body ws []
  | cons {ws : Workspace} {edit : Edit} {edits : List Edit} :
      ws.Refuses edit ∨ edit.Spares id body → Elsewhere id body (ws.apply edit) edits →
      Elsewhere id body ws (edit :: edits)

/-- A refused edit changes neither the blocks nor the top level. -/
theorem Coherent.apply_of_refuses (c : ws.Coherent) {edit : Edit} (h : ws.Refuses edit) :
    (∀ k, (ws.apply edit).get? k = ws.get? k) ∧ (ws.apply edit).top = ws.top := by
  cases edit with
  | add | ensureStart | clear => exact h.elim
  | insert id kind | append parent child | setNext anchor next =>
    obtain ⟨e, refused⟩ := h
    rw [Workspace.apply, refused]
    exact ⟨fun _ => rfl, rfl⟩
  | push parent kind =>
    obtain ⟨e, refused⟩ := h
    rw [Workspace.apply]
    rcases c.push_cases parent kind with ⟨unchanged, e', eq, same⟩ | ⟨linked, eq, -⟩
    · rw [eq]
      exact same
    · rw [eq] at refused
      cases refused

/-- An edit that is refused or spares the start block's tree keeps the program. -/
theorem HasProgram.apply (c : ws.Coherent) {id : BlockId} {trees : List Tree}
    (h : ws.HasProgram id trees) {edit : Edit}
    (elsewhere : ws.Refuses edit ∨ edit.Spares id (listIds trees)) :
    (ws.apply edit).HasProgram id trees := by
  rcases elsewhere with refused | spares
  · obtain ⟨get?, top⟩ := c.apply_of_refuses refused
    exact h.congr c get? top
  have afterEdit {result : Except EditError Workspace}
      (ok : ∀ {ws'}, result = .ok ws' → ws'.HasProgram id trees) :
      (ws.afterEdit result).HasProgram id trees := by
    cases result with
    | error e => exact h
    | ok ws' => exact ok rfl
  cases edit with
  | add kind => exact h.add c kind
  | insert k kind =>
    refine afterEdit fun hi => ?_
    obtain ⟨free, rfl⟩ := insert_eq_ok_iff.1 hi
    exact h.place c free
  | append parent child => exact afterEdit fun ha => h.append c ha spares
  | setNext anchor next => exact afterEdit fun hn => h.setNext c hn spares
  | push parent kind => exact h.push c spares
  | ensureStart => exact h.ensureStart
  | clear => exact spares.elim

theorem HasProgram.run (c : ws.Coherent) {id : BlockId} {trees : List Tree}
    (h : ws.HasProgram id trees) {edits : List Edit}
    (elsewhere : Elsewhere id (listIds trees) ws edits) : (ws.run edits).HasProgram id trees := by
  induction elsewhere with
  | nil => exact h
  | cons edit _ ih => exact ih (c.apply _) (h.apply c edit)

/-- Only the start block's tree counts for the program. It is kept by every run of edits each of
which is refused, adds a block, or links one to a block outside of the tree; and two workspaces in
which the body of the start block begins with the same block, and the blocks of its tree are stored
alike, have the same program, whatever else each of them holds. -/
theorem Reachable.compile_elsewhere (h : ws.Reachable) {start : Block}
    (hs : ws.start? = some start) :
    ∃ trees, ws.Unfolds start.body trees ∧ ws.compile?.isSome ∧
      (∀ edits, Elsewhere start.id (listIds trees) ws edits →
        (ws.run edits).compile? = ws.compile?) ∧
      ∀ (ws' : Workspace) (start' : Block), ws'.Reachable → ws'.start? = some start' →
        start'.body = start.body → (∀ k ∈ listIds trees, ws'.get? k = ws.get? k) →
        ws'.compile? = ws.compile? := by
  have c := h.coherent
  obtain ⟨trees, unfolds⟩ := c.exists_start_body hs
  have program : ws.HasProgram start.id trees := ⟨start, hs, rfl, unfolds⟩
  refine ⟨trees, unfolds, ?_, fun edits elsewhere => ?_, fun ws' start' h' hs' body same => ?_⟩
  · rw [c.compile?_eq program]
    rfl
  · rw [c.compile?_eq program, (c.run edits).compile?_eq (program.run c elsewhere)]
  · have program' : ws'.HasProgram start'.id trees :=
      ⟨start', hs', rfl, body ▸ unfolds.congr c same⟩
    rw [c.compile?_eq program, h'.coherent.compile?_eq program']

/-- Closes a circle of two repeat blocks, after a try to go on inside of a block without a body, and
adds a second start block. -/
def circling : List Edit :=
  [.append "paint" "loop", .insert "outer" (.repetition 2), .insert "inner" (.repetition 3),
    .append "outer" "inner", .append "inner" "outer", .insert "late" .start]

theorem refuses_painter : painter.Refuses (.append "paint" "loop") := by
  refine ⟨.noBody "paint" (.fill "red"), ?_⟩
  simp [append, find, get?_painter_paint, Kind.hasBody, bind, Except.bind]

theorem elsewhere_circling : Elsewhere "blk0" (listIds [painterTree]) painter circling := by
  have ids : listIds [painterTree] = ["loop", "paint"] := rfl
  rw [ids]
  refine .cons (.inl refuses_painter) (.cons (.inr trivial) (.cons (.inr trivial)
    (.cons (.inr ?_) (.cons (.inr ?_) (.cons (.inr trivial) .nil)))))
  · show "outer" ∉ ["blk0", "loop", "paint"]
    decide
  · show "inner" ∉ ["blk0", "loop", "paint"]
    decide

/-- The program of `painter` below a start block of another name, with a stray block beside it. -/
def repainter : Workspace :=
  empty.run [.insert "stray" (.fill "blue"), .insert "paint" (.fill "red"),
    .insert "loop" (.repetition 300), .insert "begin" .start, .append "begin" "loop",
    .append "loop" "paint"]

theorem repainter_eq :
    repainter = (((((empty.place { id := "stray", kind := .fill "blue" }).place
      { id := "paint", kind := .fill "red" }).place { id := "loop", kind := .repetition 300 }).place
        { id := "begin", kind := .start }).attach "begin" .body "loop").attach
          "loop" .body "paint" := by
  simp only [repainter, run, List.foldl_cons, List.foldl_nil]
  rw [apply_insert "stray" _ (by simp), apply_insert "paint" _ (by simp [get?_place]),
    apply_insert "loop" _ (by simp [get?_place]), apply_insert "begin" _ (by simp [get?_place])]
  rw [apply_append (b := { id := "begin", kind := .start }) (by simp [get?_place]) rfl rfl rfl
    (by simp [Attachable, get?_place])]
  rw [apply_append (b := { id := "loop", kind := .repetition 300 })
    (by simp [get?_attach, get?_place]) rfl rfl rfl
    (by simp [Attachable, get?_attach, get?_place, mem_top_attach])]

theorem top_repainter : repainter.top = ["stray", "begin"] := by
  simp [repainter_eq, empty, top_attach]

theorem get?_repainter_stray :
    repainter.get? "stray" = some { id := "stray", kind := .fill "blue" } := by
  simp [repainter_eq, get?_attach, get?_place]

theorem get?_repainter_begin :
    repainter.get? "begin" = some { id := "begin", kind := .start, body := some "loop" } := by
  simp [repainter_eq, get?_attach, get?_place, Block.retarget]

theorem start?_repainter :
    repainter.start? = some { id := "begin", kind := .start, body := some "loop" } := by
  simp [start?, topBlocks, top_repainter, get?_repainter_stray, get?_repainter_begin]

theorem get?_repainter : ∀ k ∈ listIds [painterTree], repainter.get? k = painter.get? k := by
  have ids : listIds [painterTree] = ["loop", "paint"] := rfl
  rw [ids, List.forall_mem_cons, List.forall_mem_singleton, get?_painter_loop, get?_painter_paint]
  constructor <;> simp [repainter_eq, get?_attach, get?_place, Block.retarget]

theorem Reachable.compile_elsewhere_painter :
    painter.Reachable ∧ repainter.Reachable ∧
      Elsewhere "blk0" (listIds [painterTree]) painter circling ∧
      (painter.run circling).compile? = painter.compile? ∧
      repainter.compile? = painter.compile? := by
  have reachable : painter.Reachable := ⟨_, Or.inr rfl⟩
  have reachable' : repainter.Reachable := ⟨_, Or.inl rfl⟩
  obtain ⟨trees, unfolds, -, edits, others⟩ := reachable.compile_elsewhere start?_painter
  obtain rfl := unfolds.unique unfolds_painter
  exact ⟨reachable, reachable', elsewhere_circling, edits circling elsewhere_circling,
    others _ _ reachable' start?_repainter rfl get?_repainter⟩

end Workspace

end BlockBoard
