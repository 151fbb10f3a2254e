import BlockBoard.Proofs.Workspace.Edits

/-!
# Lists that are joined

Lists of blocks begin at the top level and at bodies, and no block is on two of them
(`Coherent.origin_unique`). Attaching a block that is at the top level puts the list that it begins
behind the one whose free link it takes, and every other list stays, also where a body now leads
back to its owner (`Coherent.joined`). The link that appending takes is the one at which the body
goes on; the one that `setNext` takes is at the end of exactly one list (`Coherent.exists_origin`).
-/

namespace BlockBoard

open Relation

namespace Workspace

/-- Where a list of blocks begins: at a block of the top level, or at the first block of a body. -/
inductive Origin where
  | top (id : BlockId)
  | body (owner : BlockId)
deriving DecidableEq, Repr

variable {ws ws' : Workspace} {o o' : Origin}

/-- The first block of the list of an origin. There is none if the body is empty, or if no block of
the name is at the top level. -/
def first? (ws : Workspace) : Origin → Option BlockId
  | .top id => if id ∈ ws.top then some id else none
  | .body owner => ws.target? owner .body

/-- The names of the blocks that a walk along the list of an origin meets. -/
def listed (ws : Workspace) (o : Origin) : List BlockId :=
  (ws.chain (ws.first? o)).map Block.id

theorem first?_top {id : BlockId} (isTop : id ∈ ws.top) : ws.first? (.top id) = some id :=
  if_pos isTop

theorem mem_top_of_first? {id k : BlockId} (h : ws.first? (.top id) = some k) :
    id = k ∧ k ∈ ws.top := by
  simp only [first?] at h
  split_ifs at h with isTop
  obtain rfl := Option.some.inj h
  exact ⟨rfl, isTop⟩

/-- What a stored block is reached from is stored. -/
theorem stored_of_reach {k x : BlockId} (reach : ReflTransGen ws.Follows x k)
    (stored : (ws.get? k).isSome) : (ws.get? x).isSome := by
  rcases ReflTransGen.cases_head reach with rfl | ⟨n, step, -⟩
  · exact stored
  · obtain ⟨b, hb, -⟩ := target?_eq_some_iff.1 step
    exact Option.isSome_of_eq_some hb

/-- The way back from a block without a successor ends, since no circle runs through it: turned
around, the links let nothing have two predecessors, and the block is a root. -/
theorem acc_of_last {k : BlockId} {b : Block} (stored : ws.get? k = some b)
    (last : b.next = none) : Acc ws.Follows k := by
  have none : ws.target? k .next = none := (target?_of_get? stored .next).trans last
  have unique : Relator.LeftUnique (Function.swap ws.Follows) :=
    fun _ _ _ hp hq => Option.some.inj (hp.symm.trans hq)
  have root (n : BlockId) : ¬ Function.swap ws.Follows n k := by
    intro step
    have next : ws.target? k .next = some n := step
    rw [none] at next
    cases next
  refine acc_of_root unique root (ws.finite_stored.subset fun x back => ?_)
  exact stored_of_reach (reflTransGen_swap.1 back) (Option.isSome_of_eq_some stored)

namespace Coherent

variable (c : ws.Coherent)
include c

/-! ### Where a block is listed -/

/-- A walk from an origin covers a whole list. -/
theorem lists (o : Origin) : ws.Lists (ws.first? o) (ws.chain (ws.first? o)) := by
  cases first : ws.first? o with
  | none =>
    have empty : ws.Lists none [] := .nil
    rw [empty.chain_eq c]
    exact empty
  | some k =>
    refine c.lists_chain ?_
    cases o with
    | top id => exact .inl ⟨k, (mem_top_of_first? first).2, rfl⟩
    | body owner =>
      obtain ⟨b, stored, body⟩ := target?_eq_some_iff.1 first
      exact .inr ⟨owner, b, stored, body.symm⟩

theorem listed_eq {bs : List Block} (h : ws.Lists (ws.first? o) bs) :
    ws.listed o = bs.map Block.id := by
  unfold listed
  rw [h.chain_eq c]

theorem listed_eq_nil (h : ws.first? o = none) : ws.listed o = [] := by
  have empty : ws.Lists none [] := .nil
  rw [← h] at empty
  exact c.listed_eq empty

theorem listed_top {k : BlockId} {bs : List Block} (isTop : k ∈ ws.top)
    (h : ws.Lists (some k) bs) : ws.listed (.top k) = bs.map Block.id := by
  rw [← first?_top isTop] at h
  exact c.listed_eq h

theorem listed_body {k : BlockId} {b : Block} {bs : List Block} (stored : ws.get? k = some b)
    (h : ws.Lists b.body bs) : ws.listed (.body k) = bs.map Block.id := by
  have first : ws.first? (.body k) = b.body := target?_of_get? stored .body
  rw [← first] at h
  exact c.listed_eq h

theorem mem_listed_iff {x : BlockId} :
    x ∈ ws.listed o ↔ ∃ k, ws.first? o = some k ∧ ReflTransGen ws.Follows k x :=
  (c.lists o).mem_ids_iff c

theorem not_follows_first {k : BlockId} (h : ws.first? o = some k) (p : BlockId) :
    ¬ ws.Follows p k := by
  cases o with
  | top id => exact c.not_follows_of_top (mem_top_of_first? h).2 p
  | body owner => exact c.not_follows_of_body h p

theorem origin_eq_of_first {k : BlockId} (h : ws.first? o = some k) (h' : ws.first? o' = some k) :
    o = o' := by
  cases o with
  | top id =>
    obtain ⟨rfl, isTop⟩ := mem_top_of_first? h
    cases o' with
    | top id' => rw [(mem_top_of_first? h').1]
    | body owner' => exact absurd isTop (c.not_mem_top h')
  | body owner =>
    cases o' with
    | top id' => exact absurd (mem_top_of_first? h').2 (c.not_mem_top h)
    | body owner' => rw [(c.parent_unique h h').1]

/-- No block is on two lists. -/
theorem origin_unique {x : BlockId} (h : x ∈ ws.listed o) (h' : x ∈ ws.listed o') : o = o' := by
  obtain ⟨k, first, reach⟩ := c.mem_listed_iff.1 h
  obtain ⟨k', first', reach'⟩ := c.mem_listed_iff.1 h'
  obtain rfl := root_unique c.follows_unique (c.not_follows_first first)
    (c.not_follows_first first') reach reach'
  exact c.origin_eq_of_first first first'

/-- Each block without a successor is the last of a list. -/
theorem exists_origin {k : BlockId} {b : Block} (stored : ws.get? k = some b)
    (last : b.next = none) : ∃ o, (ws.listed o).getLast? = some k := by
  obtain ⟨t, root, reach⟩ := exists_root_of_acc (acc_of_last stored last)
  have storedRoot := stored_of_reach reach (Option.isSome_of_eq_some stored)
  obtain ⟨o, first⟩ : ∃ o, ws.first? o = some t := by
    rcases c.top_or_target storedRoot with isTop | ⟨p, l, hp⟩
    · exact ⟨.top t, first?_top isTop⟩
    · cases l with
      | body => exact ⟨.body p, hp⟩
      | next => exact absurd hp (root p)
  refine ⟨o, ?_⟩
  obtain ⟨b', hb', rfl⟩ := List.mem_map.1 (c.mem_listed_iff.2 ⟨t, first, reach⟩)
  obtain rfl := Option.some.inj (stored.symm.trans ((c.lists o).get?_of_mem c hb'))
  unfold listed
  rw [List.getLast?_map, (c.lists o).getLast?_of_next hb' last]
  rfl

end Coherent

/-! ### Attaching behind a list -/

/-- A free link is where the list of an origin goes on: the body, if it is empty, or the successor
of the last block. -/
inductive GoesOn (ws : Workspace) : Origin → BlockId → Link → Prop
  | body {owner : BlockId} : ws.first? (.body owner) = none → GoesOn ws (.body owner) owner .body
  | next {o : Origin} {p : BlockId} : (ws.listed o).getLast? = some p → GoesOn ws o p .next

section Attach

variable {p child : BlockId} {l : Link}

/-- A list that does not run through the new link shows the same blocks as before. -/
theorem Lists.exists_attach (c : ws.Coherent) (child : BlockId) {first : Option BlockId}
    {bs : List Block} (h : ws.Lists first bs) (apart : l = .next → p ∉ bs.map Block.id) :
    ∃ bs', (ws.attach p l child).Lists first bs' ∧ bs'.map Block.id = bs.map Block.id := by
  induction h with
  | nil => exact ⟨[], .nil, rfl⟩
  | @cons k b bs hk _ ih =>
    rw [List.map_cons, List.mem_cons, not_or, c.id_eq hk] at apart
    obtain ⟨bs', lists, same⟩ := ih fun hl => (apart hl).2
    by_cases hp : p = k
    · have moved : (ws.attach p l child).get? k = some (b.retarget child l) := by
        rw [get?_attach, if_pos hp, hk]
        rfl
      cases l with
      | next => exact absurd hp (apart rfl).1
      | body => exact ⟨_, .cons moved lists, by simp [same]⟩
    · have kept : (ws.attach p l child).get? k = some b := by
        rw [get?_attach, if_neg hp, hk]
      exact ⟨_, .cons kept lists, by simp [same]⟩

/-- A list that ends at the new link goes on with the list of the attached block. -/
theorem Lists.exists_attach_next (c : ws.Coherent) {first : Option BlockId} {bs cs : List Block}
    (h : ws.Lists first bs) (last : (bs.map Block.id).getLast? = some p)
    (chain : (ws.attach p .next child).Lists (some child) cs) :
    ∃ bs', (ws.attach p .next child).Lists first bs' ∧
      bs'.map Block.id = bs.map Block.id ++ cs.map Block.id := by
  have nodup := h.nodup_ids c
  induction h with
  | nil => cases last
  | @cons k b bs hk _ ih =>
    rw [List.map_cons, List.nodup_cons, c.id_eq hk] at nodup
    cases bs with
    | nil =>
      obtain rfl : k = p := by simpa [c.id_eq hk] using last
      have moved : (ws.attach k .next child).get? k = some (b.retarget child .next) := by
        rw [get?_attach, if_pos rfl, hk]
        rfl
      exact ⟨_, .cons moved chain, by simp⟩
    | cons b' bs =>
      rw [List.map_cons, List.map_cons, List.getLast?_cons_cons, ← List.map_cons] at last
      have ne : p ≠ k := by
        rintro rfl
        exact nodup.1 (List.mem_of_getLast? last)
      have kept : (ws.attach p .next child).get? k = some b := by
        rw [get?_attach, if_neg ne, hk]
      obtain ⟨bs', lists, same⟩ := ih last nodup.2
      exact ⟨_, .cons kept lists, by rw [List.map_cons, same]; rfl⟩

theorem first?_attach (stored : (ws.get? p).isSome) (ne : o ≠ .top child)
    (apart : l = .body → o ≠ .body p) : (ws.attach p l child).first? o = ws.first? o := by
  cases o with
  | top id =>
    have other : id ≠ child := fun same => ne (congrArg Origin.top same)
    unfold first?
    simp only [mem_top_attach, other, ne_eq, not_false_eq_true, and_true]
  | body owner =>
    show (ws.attach p l child).target? owner .body = ws.target? owner .body
    rw [target?_attach stored, if_neg]
    rintro ⟨rfl, hl⟩
    exact apart hl rfl

end Attach

/-- The list of a block of the top level was put behind the list of an origin. -/
structure Joined (ws : Workspace) (o : Origin) (child : BlockId) (ws' : Workspace) : Prop where
  /-- Names and types stay. -/
  blocks : ∀ k, (ws'.get? k).map (fun b => (b.id, b.kind)) =
    (ws.get? k).map fun b => (b.id, b.kind)
  isTop : child ∈ ws.top
  top : ws'.top = ws.top.filter (· ≠ child)
  /-- The block begins a list, and the walk along it covers it all. -/
  chain : ∃ b bs, ws.get? child = some b ∧ ws.Lists b.next bs ∧
    ws.listed (.top child) = child :: bs.map Block.id
  extended : ws'.listed o = ws.listed o ++ ws.listed (.top child)
  others : ∀ o', o' ≠ o → o' ≠ .top child → ws'.listed o' = ws.listed o'

namespace Coherent

/-- Attaching a block where a list goes on joins the two lists, unless they are the same. -/
theorem joined (c : ws.Coherent) {p child : BlockId} {l : Link}
    (c' : (ws.attach p l child).Coherent) (goesOn : ws.GoesOn o p l) (stored : (ws.get? p).isSome)
    (isTop : child ∈ ws.top) (apart : o ≠ .top child) : ws.Joined o child (ws.attach p l child) := by
  have chain := c.lists_chain (.inl ⟨child, isTop, rfl⟩)
  have listed := c.listed_top isTop chain
  -- The new link is on no list but the one that goes on there.
  have away : ∀ o', o' ≠ o → l = .next → p ∉ ws.listed o' := by
    rintro o' ne rfl hp
    cases goesOn with
    | next last => exact ne (c.origin_unique hp (List.mem_of_getLast? last))
  constructor
  case blocks =>
    intro k
    rw [get?_attach]
    split_ifs
    · cases ws.get? k <;> simp
    · rfl
  case isTop => exact isTop
  case top => exact top_attach p child l
  case chain =>
    rw [listed]
    generalize ws.chain (some child) = cs at chain
    cases chain with
    | cons hk rest => exact ⟨_, _, hk, rest, by rw [List.map_cons, c.id_eq hk]⟩
  case extended =>
    obtain ⟨cs, chain', same⟩ := chain.exists_attach c child fun hl =>
      listed ▸ away (.top child) apart.symm hl
    rw [listed, ← same]
    cases goesOn with
    | body empty =>
      have first : (ws.attach p .body child).first? (.body p) = some child := by
        show (ws.attach p .body child).target? p .body = some child
        rw [target?_attach stored, if_pos ⟨rfl, rfl⟩]
      rw [← first] at chain'
      rw [c'.listed_eq chain', c.listed_eq_nil empty, List.nil_append]
    | next last =>
      obtain ⟨bs, lists, joined⟩ := (c.lists o).exists_attach_next c last chain'
      have first : (ws.attach p .next child).first? o = ws.first? o :=
        first?_attach stored apart nofun
      rw [← first] at lists
      rw [c'.listed_eq lists, joined]
      rfl
  case others =>
    intro o' ne neTop
    have first : (ws.attach p l child).first? o' = ws.first? o' := by
      refine first?_attach stored neTop fun hl => ?_
      rintro rfl
      cases goesOn with
      | body => exact ne rfl
      | next => cases hl
    obtain ⟨bs, lists, same⟩ := (c.lists o').exists_attach c child (away o' ne)
    rw [← first] at lists
    rw [c'.listed_eq lists, same]
    rfl

/-- The link that appending takes is where the body goes on. -/
theorem goesOn_lastLink (c : ws.Coherent) {k : BlockId} {parent : Block}
    (stored : ws.get? k = some parent) :
    ws.GoesOn (.body k) (ws.lastLink parent).1 (ws.lastLink parent).2 := by
  unfold lastLink
  cases hbody : parent.body with
  | none =>
    rw [c.id_eq stored]
    exact .body ((target?_of_get? stored .body).trans hbody)
  | some first =>
    refine .next ?_
    have lists : ws.Lists (some first) (ws.chain (some first)) :=
      c.lists_chain (.inr ⟨k, parent, stored, hbody.symm⟩)
    have listed : ws.listed (.body k) = (ws.chain (some first)).map Block.id := by
      refine c.listed_body stored ?_
      rwa [hbody]
    show (ws.listed (.body k)).getLast? = some (ws.lastOf first)
    rw [listed, List.getLast?_map]
    unfold lastOf
    generalize ws.chain (some first) = bs at lists
    cases lists with
    | cons hk rest =>
      rw [List.getLast?_cons]
      rfl

end Coherent

/-- What an append adds to a body, and `setNext` to the list that ends in the anchor, is the whole
list of the block that was at the top level. All other lists show the same blocks as before, also if
a circle was closed through bodies. The names and types of blocks stay, and the top level loses no
other block. -/
theorem Reachable.joins_lists (h : ws.Reachable) :
    (∀ parent child ws', ws.append parent child = .ok ws' →
      ws.Joined (.body parent) child ws') ∧
    ∀ anchor next ws', ws.setNext anchor next = .ok ws' →
      (∃ o, (ws.listed o).getLast? = some anchor) ∧
      ∀ o, (ws.listed o).getLast? = some anchor → anchor ∉ ws.listed (.top next) →
        ws.Joined o next ws' := by
  have c := h.coherent
  constructor
  · intro parent child ws' ha
    have c' := c.append ha
    obtain ⟨b, hb, hasBody, ⟨-, -, isTop⟩, rfl⟩ := append_eq_ok_iff.1 ha
    obtain ⟨owner, stored, -⟩ := c.lastLink_free hb hasBody
    exact c.joined c' (c.goesOn_lastLink hb) (Option.isSome_of_eq_some stored) isTop nofun
  · intro anchor next ws' hs
    have c' := c.setNext hs
    obtain ⟨b, hb, free, ⟨-, -, isTop⟩, rfl⟩ := setNext_eq_ok_iff.1 hs
    refine ⟨c.exists_origin hb free, fun o last apart => ?_⟩
    refine c.joined c' (.next last) (Option.isSome_of_eq_some hb) isTop ?_
    rintro rfl
    exact apart (List.mem_of_getLast? last)

/-- The list of the outer block goes behind the body of the inner one, or behind the inner block
itself. Both close a circle, and a walk meets each block of the list once. -/
theorem Reachable.joins_lists_boxed :
    boxed.Reachable ∧ boxed.append "inner" "outer" = .ok circle ∧
      circle.listed (.body "inner") = ["outer"] ∧ circle.listed (.body "outer") = ["inner"] ∧
      ∃ ws', boxed.setNext "inner" "outer" = .ok ws' ∧
        ws'.listed (.body "outer") = ["inner", "outer"] := by
  have reachable : boxed.Reachable := ⟨_, Or.inr rfl⟩
  have c := reachable.coherent
  have onTop : boxed.listed (.top "outer") = ["outer"] :=
    c.listed_top attachable_boxed.2.2 (.cons get?_boxed_outer .nil)
  have below : boxed.listed (.body "outer") = ["inner"] :=
    c.listed_body get?_boxed_outer (.cons get?_boxed_inner .nil)
  have empty : boxed.listed (.body "inner") = [] :=
    c.listed_body get?_boxed_inner .nil
  have appended : boxed.append "inner" "outer" = .ok circle :=
    append_eq_ok_iff.2 ⟨_, get?_boxed_inner, rfl, attachable_boxed, circle_eq_attach.symm⟩
  have follows : boxed.setNext "inner" "outer" = .ok (boxed.attach "inner" .next "outer") :=
    setNext_eq_ok_iff.2 ⟨_, get?_boxed_inner, rfl, attachable_boxed, rfl⟩
  obtain ⟨append, setNext⟩ := reachable.joins_lists
  have joined := append _ _ _ appended
  have joined' := (setNext _ _ _ follows).2 (.body "outer") (by rw [below]; rfl)
    (by rw [onTop]; decide)
  refine ⟨reachable, appended, ?_, ?_, _, follows, ?_⟩
  · rw [joined.extended, empty, onTop]
    rfl
  · rw [joined.others (.body "outer") (by decide) nofun, below]
  · rw [joined'.extended, below, onTop]
    rfl

end Workspace

end BlockBoard
