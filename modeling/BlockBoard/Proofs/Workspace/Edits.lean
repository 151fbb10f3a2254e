import BlockBoard.Proofs.Workspace.Links

/-!
# Edits keep a workspace coherent

An edit that succeeds either places a new block without links at the top level, or moves a block
from the top level to a link that was free (`attach`); one that fails changes neither the blocks nor
the top level. Each of these keeps a workspace coherent (`Coherent.apply`), also where it closes a
circle of links. So after every run of edits each stored block is named exactly once
(`Coherent.count_references`).
-/

namespace BlockBoard

theorem Kind.hasBody_iff {kind : Kind} :
    kind.hasBody ↔ kind = .start ∨ ∃ times, kind = .repetition times := by
  cases kind <;> simp [Kind.hasBody]

/-- The blocks that the links of a block name. -/
def Block.references (b : Block) : List BlockId :=
  b.body.toList ++ b.next.toList

theorem Block.mem_references_iff {b : Block} {k : BlockId} :
    k ∈ b.references ↔ ∃ l, b.target l = some k := by
  rw [Block.references, List.mem_append, Option.mem_toList, Option.mem_toList]
  constructor
  · rintro (hk | hk)
    · exact ⟨.body, hk⟩
    · exact ⟨.next, hk⟩
  · rintro ⟨_ | _, hk⟩
    · exact Or.inl hk
    · exact Or.inr hk

namespace Workspace

variable {ws ws' : Workspace}

/-! ### Attaching a block -/

/-- Lets a link of a block name another block, which leaves the top level. -/
def attach (ws : Workspace) (p : BlockId) (l : Link) (child : BlockId) : Workspace :=
  (ws.modify p fun b => b.retarget child l).detach child

theorem get?_attach (p child k : BlockId) (l : Link) :
    (ws.attach p l child).get? k =
      if p = k then (ws.get? k).map fun b => b.retarget child l else ws.get? k := by
  rw [attach, get?_detach, get?_modify]

theorem top_attach (p child : BlockId) (l : Link) :
    (ws.attach p l child).top = ws.top.filter (· ≠ child) := rfl

theorem mem_top_attach {p child k : BlockId} {l : Link} :
    k ∈ (ws.attach p l child).top ↔ k ∈ ws.top ∧ k ≠ child :=
  mem_top_detach _

theorem isSome_get?_attach (p child k : BlockId) (l : Link) :
    ((ws.attach p l child).get? k).isSome = (ws.get? k).isSome := by
  rw [get?_attach]
  split_ifs <;> simp

/-- Attaching changes no more of a block than the link. -/
theorem exists_of_get?_attach {p child k : BlockId} {l : Link} {b : Block}
    (h : (ws.attach p l child).get? k = some b) :
    ∃ b', ws.get? k = some b' ∧ b.id = b'.id ∧ b.kind = b'.kind ∧
      b = if p = k then b'.retarget child l else b' := by
  rw [get?_attach] at h
  split_ifs at h with hk
  · obtain ⟨b', hb', rfl⟩ := Option.map_eq_some_iff.1 h
    exact ⟨b', hb', by simp, by simp, by simp [hk]⟩
  · exact ⟨b, h, rfl, rfl, by simp [hk]⟩

theorem target?_attach {p : BlockId} (stored : (ws.get? p).isSome) (child q : BlockId)
    (l m : Link) :
    (ws.attach p l child).target? q m = if p = q ∧ l = m then some child else ws.target? q m := by
  obtain ⟨b, hb⟩ := Option.isSome_iff_exists.1 stored
  rw [target?, get?_attach]
  by_cases hq : p = q
  · subst hq
    simp [hb, target?, Block.target_retarget]
  · simp [hq, target?]

/-- What may be attached to a block: another block, which is no start block and not attached. -/
def Attachable (ws : Workspace) (anchor child : BlockId) : Prop :=
  anchor ≠ child ∧ (∃ b, ws.get? child = some b ∧ b.kind ≠ .start) ∧ child ∈ ws.top

theorem checkAttachable_eq_ok_iff {anchor child : BlockId} :
    ws.checkAttachable anchor child = .ok () ↔ ws.Attachable anchor child := by
  unfold checkAttachable Attachable find
  by_cases same : anchor = child
  · simp [same]
  · cases ws.get? child with
    | none => simp [same]
    | some b =>
      by_cases start : b.kind = .start <;> by_cases top : child ∈ ws.top <;>
        simp [same, start, top]

/-- The free link at which a body goes on: that of its last block, or that of its owner. -/
def lastLink (ws : Workspace) (parent : Block) : BlockId × Link :=
  match parent.body with
  | none => (parent.id, .body)
  | some first => (ws.lastOf first, .next)

theorem linkLast_eq_attach (parent : Block) (child : BlockId) :
    ws.linkLast parent child = ws.attach (ws.lastLink parent).1 (ws.lastLink parent).2 child := by
  unfold linkLast lastLink
  cases parent.body <;> rfl

theorem insert_eq_ok_iff {id : BlockId} {kind : Kind} :
    ws.insert id kind = .ok ws' ↔ ws.get? id = none ∧ ws.place { id, kind } = ws' := by
  unfold insert
  rw [contains_blocks]
  cases ws.get? id <;> simp

theorem append_eq_ok_iff {parent child : BlockId} :
    ws.append parent child = .ok ws' ↔
      ∃ b, ws.get? parent = some b ∧ b.kind.hasBody ∧ ws.Attachable parent child ∧
        ws.attach (ws.lastLink b).1 (ws.lastLink b).2 child = ws' := by
  simp only [← checkAttachable_eq_ok_iff, ← linkLast_eq_attach]
  unfold append find
  cases ws.get? parent with
  | none => simp
  | some b =>
    cases ws.checkAttachable parent child <;> cases h : b.kind.hasBody <;> simp [h]

theorem setNext_eq_ok_iff {anchor next : BlockId} :
    ws.setNext anchor next = .ok ws' ↔
      ∃ b, ws.get? anchor = some b ∧ b.next = none ∧ ws.Attachable anchor next ∧
        ws.attach anchor .next next = ws' := by
  simp only [← checkAttachable_eq_ok_iff]
  unfold setNext find
  cases ws.get? anchor with
  | none => simp
  | some b =>
    cases ws.checkAttachable anchor next <;> cases h : b.next <;>
      simp [h, attach, Block.retarget]

/-! ### What an edit does, and what that preserves -/

theorem coherent_of_none (none : ∀ k, ws.get? k = none) (top : ws.top = []) : ws.Coherent where
  id_eq h := by simp [none] at h
  top_stored h := by simp [top] at h
  target_stored h := by simp [target?, none] at h
  top_nodup := by simp [top]
  parent_unique h := by simp [target?, none] at h
  not_mem_top h := by simp [target?, none] at h
  top_or_target h := by simp [none] at h
  hasBody h := by simp [none] at h
  start_mem_top h := by simp [none] at h

namespace Coherent

/-- Coherence is a property of what a workspace shows. -/
theorem congr (h : ws.Coherent) (get? : ∀ k, ws'.get? k = ws.get? k) (top : ws'.top = ws.top) :
    ws'.Coherent := by
  have target? : ∀ p l, ws'.target? p l = ws.target? p l := fun p l => by
    rw [Workspace.target?, get?]
    rfl
  constructor <;> simp only [get?, top, target?]
  exacts [h.id_eq, h.top_stored, h.target_stored, h.top_nodup, h.parent_unique, h.not_mem_top,
    h.top_or_target, h.hasBody, h.start_mem_top]

theorem not_mem_top_of_get? (h : ws.Coherent) {k : BlockId} (free : ws.get? k = none) :
    k ∉ ws.top := by
  intro hk
  simpa [free] using h.top_stored hk

theorem target?_ne_of_get? (h : ws.Coherent) {k : BlockId} (free : ws.get? k = none)
    (p : BlockId) (l : Link) : ws.target? p l ≠ some k := by
  intro hp
  simpa [free] using h.target_stored hp

/-- Placing a new block without links at the top level keeps a workspace coherent. -/
theorem place (h : ws.Coherent) {id : BlockId} (kind : Kind) (free : ws.get? id = none) :
    (ws.place { id, kind }).Coherent := by
  have get? : ∀ k, (ws.place { id, kind }).get? k =
      if id = k then some { id, kind } else ws.get? k := fun k => ws.get?_place _ k
  -- The new block has no links, so no link changes.
  have target? : ∀ p l, (ws.place { id, kind }).target? p l = ws.target? p l := by
    intro p l
    rw [Workspace.target?, get?]
    split_ifs with hp
    · subst hp
      cases l <;> simp [Workspace.target?, free, Block.target]
    · rfl
  have top : ∀ k, k ∈ (ws.place { id, kind }).top ↔ k ∈ ws.top ∨ k = id := by simp
  constructor
  case id_eq =>
    intro k b hb
    rw [get?] at hb
    split_ifs at hb with hk
    · obtain rfl := Option.some.inj hb
      exact hk
    · exact h.id_eq hb
  case top_stored =>
    intro k hk
    rw [get?]
    split_ifs with hid
    · rfl
    · exact h.top_stored (((top k).1 hk).resolve_right (Ne.symm hid))
  case target_stored =>
    intro p l k hp
    rw [target?] at hp
    rw [get?]
    split_ifs
    · rfl
    · exact h.target_stored hp
  case top_nodup =>
    rw [top_place]
    exact List.nodup_append.2 ⟨h.top_nodup, by simp, by
      rintro a ha b hb rfl
      obtain rfl := List.mem_singleton.1 hb
      exact h.not_mem_top_of_get? free ha⟩
  case parent_unique =>
    intro p l q m k hp hq
    rw [target?] at hp hq
    exact h.parent_unique hp hq
  case not_mem_top =>
    intro p l k hp hk
    rw [target?] at hp
    rcases (top k).1 hk with hk | rfl
    · exact h.not_mem_top hp hk
    · exact h.target?_ne_of_get? free p l hp
  case top_or_target =>
    intro k hk
    simp only [target?, top]
    rw [get?] at hk
    split_ifs at hk with hid
    · exact Or.inl (Or.inr hid.symm)
    · exact (h.top_or_target hk).imp_left Or.inl
  case hasBody =>
    intro k b hb body
    rw [get?] at hb
    split_ifs at hb
    · obtain rfl := Option.some.inj hb
      simp at body
    · exact h.hasBody hb body
  case start_mem_top =>
    intro k b hb start
    rw [top]
    rw [get?] at hb
    split_ifs at hb with hid
    · exact Or.inr hid.symm
    · exact Or.inl (h.start_mem_top hb start)

/-- Moving a block from the top level to a free link keeps a workspace coherent. -/
theorem attach (h : ws.Coherent) {p child : BlockId} {l : Link} {b c : Block}
    (owner : ws.get? p = some b) (free : b.target l = none) (holds : l = .body → b.kind.hasBody)
    (stored : ws.get? child = some c) (noStart : c.kind ≠ .start) (isTop : child ∈ ws.top) :
    (ws.attach p l child).Coherent := by
  have target? : ∀ q m, (ws.attach p l child).target? q m =
      if p = q ∧ l = m then some child else ws.target? q m :=
    fun q m => target?_attach (by rw [owner]; rfl) child q l m
  have unnamed : ∀ q m, ws.target? q m ≠ some child := fun q m hq => h.not_mem_top hq isTop
  constructor
  case id_eq =>
    intro k b' hb'
    obtain ⟨b₀, hb₀, hid, -⟩ := exists_of_get?_attach hb'
    rw [hid, h.id_eq hb₀]
  case top_stored =>
    intro k hk
    rw [isSome_get?_attach]
    exact h.top_stored (mem_top_attach.1 hk).1
  case target_stored =>
    intro q m k hq
    rw [target?] at hq
    rw [isSome_get?_attach]
    split_ifs at hq
    · obtain rfl := Option.some.inj hq
      rw [stored]
      rfl
    · exact h.target_stored hq
  case top_nodup => exact h.top_nodup.filter _
  case parent_unique =>
    intro q m q' m' k hq hq'
    rw [target?] at hq hq'
    split_ifs at hq hq' with here here'
    · exact ⟨here.1.symm.trans here'.1, here.2.symm.trans here'.2⟩
    · obtain rfl := Option.some.inj hq
      exact absurd hq' (unnamed q' m')
    · obtain rfl := Option.some.inj hq'
      exact absurd hq (unnamed q m)
    · exact h.parent_unique hq hq'
  case not_mem_top =>
    intro q m k hq hk
    obtain ⟨hk, hne⟩ := mem_top_attach.1 hk
    rw [target?] at hq
    split_ifs at hq
    · exact hne (Option.some.inj hq).symm
    · exact h.not_mem_top hq hk
  case top_or_target =>
    intro k hk
    rw [isSome_get?_attach] at hk
    simp only [target?]
    rcases h.top_or_target hk with hk | ⟨q, m, hq⟩
    · by_cases hc : k = child
      · exact Or.inr ⟨p, l, by simp [hc]⟩
      · exact Or.inl (mem_top_attach.2 ⟨hk, hc⟩)
    · refine Or.inr ⟨q, m, ?_⟩
      rw [if_neg]
      · exact hq
      · rintro ⟨rfl, rfl⟩
        simp [target?_of_get? owner, free] at hq
  case hasBody =>
    intro k b' hb' body
    obtain ⟨b₀, hb₀, -, hkind, rfl⟩ := exists_of_get?_attach hb'
    rw [hkind]
    split_ifs at body with hp
    · subst hp
      obtain rfl := Option.some.inj (owner.symm.trans hb₀)
      cases l with
      | body => exact holds rfl
      | next => exact h.hasBody owner body
    · exact h.hasBody hb₀ body
  case start_mem_top =>
    intro k b' hb' start
    obtain ⟨b₀, hb₀, -, hkind, -⟩ := exists_of_get?_attach hb'
    rw [hkind] at start
    refine mem_top_attach.2 ⟨h.start_mem_top hb₀ start, ?_⟩
    rintro rfl
    obtain rfl := Option.some.inj (stored.symm.trans hb₀)
    exact noStart start

/-- The link at which a body goes on is free: the walk to the last block of the body reaches a block
without a successor. -/
theorem lastLink_free (h : ws.Coherent) {k : BlockId} {parent : Block}
    (stored : ws.get? k = some parent) (hasBody : parent.kind.hasBody) :
    ∃ b, ws.get? (ws.lastLink parent).1 = some b ∧ b.target (ws.lastLink parent).2 = none ∧
      ((ws.lastLink parent).2 = .body → b.kind.hasBody) := by
  unfold lastLink
  cases hbody : parent.body with
  | none => exact ⟨parent, by rwa [h.id_eq stored], hbody, fun _ => hasBody⟩
  | some first =>
    have hbs := h.lists_chain (Or.inr ⟨k, parent, stored, hbody.symm⟩)
    have ne : ws.chain (some first) ≠ [] := by
      intro nil
      rw [nil] at hbs
      cases hbs
    have hlast := List.getLast?_eq_getLast_of_ne_nil ne
    have hid : ws.lastOf first = ((ws.chain (some first)).getLast ne).id := by
      rw [lastOf, hlast]
      rfl
    refine ⟨(ws.chain (some first)).getLast ne, ?_, hbs.next_of_getLast? hlast,
      fun hl => Link.noConfusion hl⟩
    show ws.get? (ws.lastOf first) = _
    rw [hid]
    exact hbs.get?_of_mem h (List.getLast_mem ne)

end Coherent

/-! ### Runs of edits -/

/-- An edit of a workspace. -/
inductive Edit where
  | add (kind : Kind)
  | insert (id : BlockId) (kind : Kind)
  | append (parent child : BlockId)
  | setNext (anchor next : BlockId)
  | push (parent : BlockId) (kind : Kind)
  | ensureStart
  | clear
deriving DecidableEq, Repr

/-- The workspace after an edit that may be refused. -/
def afterEdit (ws : Workspace) : Except EditError Workspace → Workspace
  | .ok ws' => ws'
  | .error _ => ws

/-- The workspace after an edit, whether it succeeds or not. -/
def apply (ws : Workspace) : Edit → Workspace
  | .add kind => (ws.add kind).1
  | .insert id kind => ws.afterEdit (ws.insert id kind)
  | .append parent child => ws.afterEdit (ws.append parent child)
  | .setNext anchor next => ws.afterEdit (ws.setNext anchor next)
  | .push parent kind => (ws.push parent kind).1
  | .ensureStart => ws.ensureStart.1
  | .clear => ws.clear

/-- The workspace after some edits. -/
def run (ws : Workspace) (edits : List Edit) : Workspace :=
  edits.foldl apply ws

/-- What a program can make of a workspace that it starts with. -/
def Reachable (ws : Workspace) : Prop :=
  ∃ edits, ws = empty.run edits ∨ ws = new.run edits

namespace Coherent

theorem add (h : ws.Coherent) (kind : Kind) : (ws.add kind).1.Coherent := by
  have used : ws.useFreshId.Coherent := h.congr (fun _ => rfl) rfl
  exact used.place kind ws.get?_freshId

theorem insert (h : ws.Coherent) {id : BlockId} {kind : Kind} (hi : ws.insert id kind = .ok ws') :
    ws'.Coherent := by
  obtain ⟨free, rfl⟩ := insert_eq_ok_iff.1 hi
  exact h.place kind free

theorem append (h : ws.Coherent) {parent child : BlockId} (ha : ws.append parent child = .ok ws') :
    ws'.Coherent := by
  obtain ⟨b, hb, hasBody, ⟨-, ⟨c, hc, noStart⟩, isTop⟩, rfl⟩ := append_eq_ok_iff.1 ha
  obtain ⟨b', hb', free, holds⟩ := h.lastLink_free hb hasBody
  exact h.attach hb' free holds hc noStart isTop

theorem setNext (h : ws.Coherent) {anchor next : BlockId}
    (hs : ws.setNext anchor next = .ok ws') : ws'.Coherent := by
  obtain ⟨b, hb, free, ⟨-, ⟨c, hc, noStart⟩, isTop⟩, rfl⟩ := setNext_eq_ok_iff.1 hs
  exact h.attach hb free (fun hl => Link.noConfusion hl) hc noStart isTop

/-- Taking out the block that was just added leaves the blocks and the top level as they were. -/
theorem remove_add (h : ws.Coherent) (kind : Kind) :
    (∀ k, ((ws.add kind).1.remove ws.freshId).get? k = ws.get? k) ∧
      ((ws.add kind).1.remove ws.freshId).top = ws.top := by
  constructor
  · intro k
    rw [get?_remove, get?_add]
    split_ifs with hk
    · rw [← hk, get?_freshId]
    · rfl
  · rw [top_remove, top_add, List.filter_append]
    have hne : ∀ k ∈ ws.top, k ≠ ws.freshId := by
      rintro k hk rfl
      exact h.not_mem_top_of_get? ws.get?_freshId hk
    simpa using hne

/-- Pushing a block fails and leaves the blocks and the top level, or adds the block and appends
it. -/
theorem push_cases (h : ws.Coherent) (parent : BlockId) (kind : Kind) :
    (∃ unchanged e, ws.push parent kind = (unchanged, .error e) ∧
      (∀ k, unchanged.get? k = ws.get? k) ∧ unchanged.top = ws.top) ∨
    ∃ linked, ws.push parent kind = (linked, .ok (ws.add kind).2) ∧
      (ws.add kind).1.append parent (ws.add kind).2 = .ok linked := by
  unfold Workspace.push
  cases ws.find parent with
  | error e => exact Or.inl ⟨ws, e, rfl, fun _ => rfl, rfl⟩
  | ok b =>
    cases ha : (ws.add kind).1.append parent (ws.add kind).2 with
    | error e =>
      refine Or.inl ⟨(ws.add kind).1.remove (ws.add kind).2, e, ?_, h.remove_add kind⟩
      simp only [ha]
    | ok linked => exact Or.inr ⟨linked, by simp only [ha], rfl⟩

theorem push (h : ws.Coherent) (parent : BlockId) (kind : Kind) :
    (ws.push parent kind).1.Coherent := by
  rcases h.push_cases parent kind with ⟨unchanged, e, eq, get?, top⟩ | ⟨linked, eq, ha⟩
  · rw [eq]
    exact h.congr get? top
  · rw [eq]
    exact (h.add kind).append ha

theorem ensureStart (h : ws.Coherent) : ws.ensureStart.1.Coherent := by
  unfold Workspace.ensureStart
  cases ws.start? with
  | none => exact h.add .start
  | some b => exact h

theorem clear (ws : Workspace) : ws.clear.Coherent :=
  coherent_of_none ws.get?_clear rfl

theorem afterEdit (h : ws.Coherent) {result : Except EditError Workspace}
    (ok : ∀ {ws'}, result = .ok ws' → ws'.Coherent) : (ws.afterEdit result).Coherent := by
  cases result with
  | error e => exact h
  | ok ws' => exact ok rfl

/-- Every edit keeps a workspace coherent. -/
theorem apply (h : ws.Coherent) (edit : Edit) : (ws.apply edit).Coherent := by
  cases edit with
  | add kind => exact h.add kind
  | insert id kind => exact h.afterEdit h.insert
  | append parent child => exact h.afterEdit h.append
  | setNext anchor next => exact h.afterEdit h.setNext
  | push parent kind => exact h.push parent kind
  | ensureStart => exact h.ensureStart
  | clear => exact clear ws

theorem run (h : ws.Coherent) (edits : List Edit) : (ws.run edits).Coherent := by
  induction edits generalizing ws with
  | nil => exact h
  | cons edit edits ih => exact ih (h.apply edit)

end Coherent

theorem coherent_empty : empty.Coherent :=
  coherent_of_none get?_empty rfl

theorem Reachable.coherent (h : ws.Reachable) : ws.Coherent := by
  obtain ⟨edits, rfl | rfl⟩ := h
  · exact coherent_empty.run edits
  · exact coherent_empty.ensureStart.run edits

theorem Reachable.run (h : ws.Reachable) (edits : List Edit) : (ws.run edits).Reachable := by
  obtain ⟨before, rfl | rfl⟩ := h
  · exact ⟨before ++ edits, .inl List.foldl_append.symm⟩
  · exact ⟨before ++ edits, .inr List.foldl_append.symm⟩

/-! ### Counting the names of a block -/

/-- The places at which blocks are named: the entries of the top level, and all links. -/
def references (ws : Workspace) : List BlockId :=
  ws.top ++ ws.blocks.toList.flatMap fun entry => entry.2.references

theorem mem_toList_blocks {k : BlockId} {b : Block} :
    (k, b) ∈ ws.blocks.toList ↔ ws.get? k = some b :=
  Std.HashMap.mem_toList_iff_getElem?_eq_some

theorem mem_references_iff {k : BlockId} :
    k ∈ ws.references ↔ k ∈ ws.top ∨ ∃ p l, ws.target? p l = some k := by
  rw [references, List.mem_append, List.mem_flatMap]
  refine or_congr_right ⟨?_, ?_⟩
  · rintro ⟨⟨p, b⟩, hb, hk⟩
    obtain ⟨l, hl⟩ := Block.mem_references_iff.1 hk
    exact ⟨p, l, target?_eq_some_iff.2 ⟨b, mem_toList_blocks.1 hb, hl⟩⟩
  · rintro ⟨p, l, hl⟩
    obtain ⟨b, hb, hl⟩ := target?_eq_some_iff.1 hl
    exact ⟨(p, b), mem_toList_blocks.2 hb, Block.mem_references_iff.2 ⟨l, hl⟩⟩

namespace Coherent

theorem nodup_block_references (h : ws.Coherent) {p : BlockId} {b : Block}
    (hb : ws.get? p = some b) : b.references.Nodup := by
  have names : ∀ {l k}, b.target l = some k → ws.target? p l = some k :=
    fun hl => (target?_of_get? hb _).trans hl
  cases hbody : b.body with
  | none => cases hnext : b.next <;> simp [Block.references, hbody, hnext]
  | some k =>
    cases hnext : b.next with
    | none => simp [Block.references, hbody, hnext]
    | some k' =>
      have ne : k ≠ k' := by
        rintro rfl
        exact Link.noConfusion (h.parent_unique (names (l := .body) hbody)
          (names (l := .next) hnext)).2
      simp [Block.references, hbody, hnext, ne]

theorem nodup_references (h : ws.Coherent) : ws.references.Nodup := by
  refine List.nodup_append.2 ⟨h.top_nodup, List.nodup_flatMap.2 ⟨?_, ?_⟩, ?_⟩
  · rintro ⟨p, b⟩ hb
    exact h.nodup_block_references (mem_toList_blocks.1 hb)
  · refine Std.HashMap.distinct_keys_toList.imp_of_mem ?_
    rintro ⟨p, b⟩ ⟨q, c⟩ hb hc ne k hk hk'
    obtain ⟨l, hl⟩ := Block.mem_references_iff.1 hk
    obtain ⟨m, hm⟩ := Block.mem_references_iff.1 hk'
    have same := (h.parent_unique (target?_eq_some_iff.2 ⟨b, mem_toList_blocks.1 hb, hl⟩)
      (target?_eq_some_iff.2 ⟨c, mem_toList_blocks.1 hc, hm⟩)).1
    simp [same] at ne
  · rintro k hk _ hlink rfl
    obtain ⟨⟨p, b⟩, hb, hl⟩ := List.mem_flatMap.1 hlink
    obtain ⟨l, hl⟩ := Block.mem_references_iff.1 hl
    exact h.not_mem_top (target?_eq_some_iff.2 ⟨b, mem_toList_blocks.1 hb, hl⟩) hk

theorem count_references (h : ws.Coherent) {k : BlockId} (stored : (ws.get? k).isSome) :
    ws.references.count k = 1 :=
  List.count_eq_one_of_mem h.nodup_references (mem_references_iff.2 (h.top_or_target stored))

theorem stored_of_mem_references (h : ws.Coherent) {k : BlockId} (hk : k ∈ ws.references) :
    (ws.get? k).isSome := by
  rcases mem_references_iff.1 hk with hk | ⟨p, l, hp⟩
  · exact h.top_stored hk
  · exact h.target_stored hp

theorem mem_top_iff (h : ws.Coherent) {k : BlockId} (stored : (ws.get? k).isSome) :
    k ∈ ws.top ↔ ∀ p l, ws.target? p l ≠ some k := by
  refine ⟨fun hk p l hp => h.not_mem_top hp hk, fun hk => ?_⟩
  refine (h.top_or_target stored).resolve_right ?_
  rintro ⟨p, l, hp⟩
  exact hk p l hp

end Coherent

/-- After every run of edits, each stored block is stored under its own name and named exactly once
by the top level and the links taken together: it has at most one parent, and it is at the top level
exactly if it has none. Only start and repeat blocks have a body, and start blocks are at the top
level. -/
theorem Reachable.named_exactly_once (h : ws.Reachable) :
    (∀ k b, ws.get? k = some b → b.id = k) ∧
    (∀ k ∈ ws.references, (ws.get? k).isSome) ∧
    (∀ k, (ws.get? k).isSome → ws.references.count k = 1) ∧
    (∀ k p q l m, ws.target? p l = some k → ws.target? q m = some k → p = q ∧ l = m) ∧
    (∀ k, (ws.get? k).isSome → (k ∈ ws.top ↔ ∀ p l, ws.target? p l ≠ some k)) ∧
    (∀ k b, ws.get? k = some b → b.body.isSome →
      b.kind = .start ∨ ∃ times, b.kind = .repetition times) ∧
    (∀ k b, ws.get? k = some b → b.kind = .start → k ∈ ws.top) := by
  have c := h.coherent
  exact ⟨fun _ _ => c.id_eq, fun _ => c.stored_of_mem_references, fun _ => c.count_references,
    fun _ _ _ _ _ => c.parent_unique, fun _ => c.mem_top_iff,
    fun _ _ hb body => Kind.hasBody_iff.1 (c.hasBody hb body), fun _ _ => c.start_mem_top⟩

/-! ### A circle of links -/

theorem new_eq : new = empty.useFreshId.place { id := "blk0", kind := .start } := by
  have fresh : empty.freshId = "blk0" := by decide
  show empty.useFreshId.place { id := empty.freshId, kind := .start } = _
  rw [fresh]

/-- A new workspace with two repeat blocks, each of which is the body of the other. -/
def circle : Workspace :=
  new.run [.insert "outer" (.repetition 2), .insert "inner" (.repetition 3),
    .append "outer" "inner", .append "inner" "outer"]

theorem apply_insert (id : BlockId) (kind : Kind) (free : ws.get? id = none) :
    ws.apply (.insert id kind) = ws.place { id, kind } := by
  rw [apply, insert_eq_ok_iff.2 ⟨free, rfl⟩]
  rfl

/-- A block with a free body takes an attachable block as the first of its body. -/
theorem apply_append {parent child : BlockId} {b : Block} (hb : ws.get? parent = some b)
    (id : b.id = parent) (holds : b.kind.hasBody) (free : b.body = none)
    (attachable : ws.Attachable parent child) :
    ws.apply (.append parent child) = ws.attach parent .body child := by
  have last : ws.lastLink b = (parent, .body) := by simp [lastLink, free, id]
  rw [apply, append_eq_ok_iff.2 ⟨b, hb, holds, attachable, rfl⟩, last]
  rfl

/-- A new workspace with a repeat block that holds another. -/
def boxed : Workspace :=
  new.run [.insert "outer" (.repetition 2), .insert "inner" (.repetition 3),
    .append "outer" "inner"]

theorem boxed_eq :
    boxed = ((new.place { id := "outer", kind := .repetition 2 }).place
      { id := "inner", kind := .repetition 3 }).attach "outer" .body "inner" := by
  simp only [boxed, run, List.foldl_cons, List.foldl_nil]
  rw [apply_insert "outer" _ (by simp [new_eq, get?_place]),
    apply_insert "inner" _ (by simp [new_eq, get?_place])]
  rw [apply_append (b := { id := "outer", kind := .repetition 2 }) (by simp [get?_place]) rfl rfl
    rfl (by simp [Attachable, get?_place])]

theorem get?_boxed_outer :
    boxed.get? "outer" = some { id := "outer", kind := .repetition 2, body := some "inner" } := by
  simp [boxed_eq, get?_attach, get?_place, Block.retarget]

theorem get?_boxed_inner :
    boxed.get? "inner" = some { id := "inner", kind := .repetition 3 } := by
  simp [boxed_eq, get?_attach, get?_place]

/-- In `boxed`, the outer block may be attached to the inner one. -/
theorem attachable_boxed : boxed.Attachable "inner" "outer" := by
  refine ⟨by decide, ⟨_, get?_boxed_outer, nofun⟩, ?_⟩
  simp [boxed_eq, mem_top_attach]

theorem circle_eq_attach : circle = boxed.attach "inner" .body "outer" := by
  have last : circle = boxed.apply (.append "inner" "outer") := rfl
  rw [last, apply_append get?_boxed_inner rfl rfl rfl attachable_boxed]

theorem circle_eq :
    circle = (((new.place { id := "outer", kind := .repetition 2 }).place
      { id := "inner", kind := .repetition 3 }).attach "outer" .body "inner").attach
        "inner" .body "outer" := by
  rw [circle_eq_attach, boxed_eq]

theorem get?_circle_outer :
    circle.get? "outer" = some { id := "outer", kind := .repetition 2, body := some "inner" } := by
  simp [circle_eq, get?_attach, get?_place, Block.retarget]

theorem Reachable.named_exactly_once_circle :
    circle.Reachable ∧ circle.references.count "outer" = 1 ∧ "outer" ∉ circle.top := by
  have reachable : circle.Reachable := ⟨_, Or.inr rfl⟩
  have once := reachable.named_exactly_once.2.2.1 "outer" (by rw [get?_circle_outer]; rfl)
  exact ⟨reachable, once, by simp [circle_eq, mem_top_attach]⟩

end Workspace

end BlockBoard
