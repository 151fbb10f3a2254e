import BlockBoard.Proofs.Workspace.Edits

/-!
# Which edits succeed

An edit that links blocks checks the owner of the link first, and then the block that is linked to.
The checks are just those that the link needs (`Reachable.succeeds_iff`), so whether an edit
succeeds can be read off the workspace. Pushing adds its block before it tries to link it, and a
block that is refused is taken out again: what stays is a generated name that is not tried again.
-/

namespace BlockBoard

namespace Workspace

variable {ws ws' : Workspace}

/-! ### Linking -/

/-- A block is stored under a name, and its type has a body. -/
def Houses (ws : Workspace) (id : BlockId) : Prop :=
  ∃ b, ws.get? id = some b ∧ (b.kind = .start ∨ ∃ times, b.kind = .repetition times)

/-- A block is stored under a name, is no start block, and is not linked to yet. -/
def Loose (ws : Workspace) (id : BlockId) : Prop :=
  (∃ b, ws.get? id = some b ∧ b.kind ≠ .start) ∧ id ∈ ws.top

theorem attachable_iff {anchor child : BlockId} :
    ws.Attachable anchor child ↔ child ≠ anchor ∧ ws.Loose child := by
  unfold Attachable Loose
  rw [ne_comm]

theorem append_succeeds_iff {parent child : BlockId} :
    (∃ ws', ws.append parent child = .ok ws') ↔
      ws.Houses parent ∧ child ≠ parent ∧ ws.Loose child := by
  simp only [append_eq_ok_iff, attachable_iff, Kind.hasBody_iff]
  constructor
  · rintro ⟨-, b, hb, holds, free, -⟩
    exact ⟨⟨b, hb, holds⟩, free⟩
  · rintro ⟨⟨b, hb, holds⟩, free⟩
    exact ⟨_, b, hb, holds, free, rfl⟩

theorem setNext_succeeds_iff {anchor next : BlockId} :
    (∃ ws', ws.setNext anchor next = .ok ws') ↔
      (∃ b, ws.get? anchor = some b ∧ b.next = none) ∧ next ≠ anchor ∧ ws.Loose next := by
  simp only [setNext_eq_ok_iff, attachable_iff]
  constructor
  · rintro ⟨-, b, hb, last, free, -⟩
    exact ⟨⟨b, hb, last⟩, free⟩
  · rintro ⟨⟨b, hb, last⟩, free⟩
    exact ⟨_, b, hb, last, free, rfl⟩

/-! ### Pushing -/

theorem push_of_unknown {parent : BlockId} (unknown : ws.get? parent = none) (kind : Kind) :
    ws.push parent kind = (ws, .error (.unknownBlock parent)) := by
  unfold Workspace.push find
  rw [unknown]

theorem push_of_stored {parent : BlockId} {b : Block} (stored : ws.get? parent = some b)
    (kind : Kind) :
    ws.push parent kind =
      match (ws.add kind).1.append parent ws.freshId with
      | .error e => ((ws.add kind).1.remove ws.freshId, .error e)
      | .ok linked => (linked, .ok ws.freshId) := by
  unfold Workspace.push find
  rw [stored]
  rfl

/-- The new block is free to be linked to, unless it is a start block. -/
theorem loose_add_iff {kind : Kind} : (ws.add kind).1.Loose ws.freshId ↔ kind ≠ .start := by
  unfold Loose
  rw [get?_add, if_pos rfl, top_add]
  simp

theorem houses_add_iff {parent : BlockId} {kind : Kind} {b : Block}
    (stored : ws.get? parent = some b) : (ws.add kind).1.Houses parent ↔ ws.Houses parent := by
  unfold Houses
  rw [get?_add, if_neg (ws.freshId_ne_of_get? stored)]

theorem push_succeeds_iff {parent : BlockId} {kind : Kind} :
    (∃ id, (ws.push parent kind).2 = .ok id) ↔ ws.Houses parent ∧ kind ≠ .start := by
  cases stored : ws.get? parent with
  | none =>
    rw [push_of_unknown stored]
    simp [Houses, stored]
  | some b =>
    have linked : (∃ id, (ws.push parent kind).2 = .ok id) ↔
        ∃ ws', (ws.add kind).1.append parent ws.freshId = .ok ws' := by
      rw [push_of_stored stored]
      cases (ws.add kind).1.append parent ws.freshId <;> simp
    rw [linked, append_succeeds_iff, houses_add_iff stored, loose_add_iff]
    simp [ws.freshId_ne_of_get? stored]

/-! ### Refusals -/

/-- The workspaces store the same blocks with the same links, and have the same top level; at most
the number of the next generated name is higher. -/
structure Restores (ws' ws : Workspace) : Prop where
  blocks : ws'.blocks.Equiv ws.blocks
  top : ws'.top = ws.top
  nextNumber_le : ws.nextNumber ≤ ws'.nextNumber

theorem nextNumber_le_freshNumber (ws : Workspace) : ws.nextNumber ≤ ws.freshNumber := by
  obtain ⟨passed, -, eq, -⟩ := ws.freeNumber_spec ws.size ws.nextNumber
  rw [freshNumber, eq]
  exact Nat.le_add_right _ _

theorem Coherent.restores_of_push (c : ws.Coherent) {parent : BlockId} {kind : Kind}
    {e : EditError} (refused : (ws.push parent kind).2 = .error e) :
    (ws.push parent kind).1.Restores ws := by
  cases stored : ws.get? parent with
  | none =>
    rw [push_of_unknown stored]
    exact ⟨.refl _, rfl, le_rfl⟩
  | some b =>
    rw [push_of_stored stored] at refused ⊢
    cases linked : (ws.add kind).1.append parent ws.freshId with
    | ok ws' =>
      rw [linked] at refused
      cases refused
    | error e' =>
      obtain ⟨get?, top⟩ := c.remove_add kind
      exact ⟨.of_forall_getElem?_eq get?, top, Nat.le_succ_of_le ws.nextNumber_le_freshNumber⟩

/-- An edit that links blocks succeeds exactly if the owner of the link has room for it and the
block linked to is another one, no start block, and at the top level. A refused edit leaves the
workspace as it is; when a push is refused, a generated name may be used up. -/
theorem Reachable.succeeds_iff (h : ws.Reachable) :
    (∀ parent child, (∃ ws', ws.append parent child = .ok ws') ↔
      ws.Houses parent ∧ child ≠ parent ∧ ws.Loose child) ∧
    (∀ anchor next, (∃ ws', ws.setNext anchor next = .ok ws') ↔
      (∃ b, ws.get? anchor = some b ∧ b.next = none) ∧ next ≠ anchor ∧ ws.Loose next) ∧
    (∀ parent kind, (∃ id, (ws.push parent kind).2 = .ok id) ↔
      ws.Houses parent ∧ kind ≠ .start) ∧
    (∀ id kind e, ws.insert id kind = .error e → ws.apply (.insert id kind) = ws) ∧
    (∀ parent child e, ws.append parent child = .error e → ws.apply (.append parent child) = ws) ∧
    (∀ anchor next e, ws.setNext anchor next = .error e → ws.apply (.setNext anchor next) = ws) ∧
    ∀ parent kind e, (ws.push parent kind).2 = .error e →
      (ws.apply (.push parent kind)).Restores ws := by
  have unchanged {result : Except EditError Workspace} {e : EditError}
      (refused : result = .error e) : ws.afterEdit result = ws := by
    rw [refused]
    rfl
  exact ⟨fun _ _ => append_succeeds_iff, fun _ _ => setNext_succeeds_iff,
    fun _ _ => push_succeeds_iff, fun _ _ _ => unchanged, fun _ _ _ => unchanged,
    fun _ _ _ => unchanged, fun _ _ _ => h.coherent.restores_of_push⟩

/-- Also a block on a circle takes another block, but no start block and none that is linked to. -/
theorem Reachable.succeeds_iff_circle :
    circle.Reachable ∧ (∃ id, (circle.push "outer" (.fill "red")).2 = .ok id) ∧
      (¬ ∃ ws', circle.append "outer" "inner" = .ok ws') ∧
      ∃ e, (circle.push "outer" .start).2 = .error e ∧
        (circle.apply (.push "outer" .start)).Restores circle := by
  have reachable : circle.Reachable := ⟨_, Or.inr rfl⟩
  obtain ⟨append, -, push, -, -, -, restores⟩ := reachable.succeeds_iff
  have houses : circle.Houses "outer" := ⟨_, get?_circle_outer, .inr ⟨2, rfl⟩⟩
  refine ⟨reachable, (push _ _).2 ⟨houses, nofun⟩, fun succeeds => ?_, ?_⟩
  · have loose := ((append _ _).1 succeeds).2.2
    simpa [circle_eq, mem_top_attach] using loose.2
  · cases refused : (circle.push "outer" .start).2 with
    | error e => exact ⟨e, rfl, restores _ _ e refused⟩
    | ok id => exact absurd rfl ((push _ _).1 ⟨id, refused⟩).2

end Workspace

end BlockBoard
