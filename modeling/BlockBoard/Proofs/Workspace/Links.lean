import Mathlib.Data.Fintype.EquivFin
import Mathlib.Data.Set.Finite.Lemmas
import Mathlib.Logic.Relation
import Mathlib.Order.WellFounded
import BlockBoard.Proofs.Workspace.View

/-!
# Links between blocks

A block has two links, to the first block of its body and to the block that follows it. A workspace
is coherent if every stored block is named exactly once, by the top level or by one link of one
block. Links of a coherent workspace may run in a circle, but not below a block that nothing leads
to (`not_transGen_of_root`), so a list that starts at the top level or at a body ends
(`Coherent.exists_lists`), and `chain` walks all of it (`Lists.chain_eq`).
-/

namespace BlockBoard

open Relation

/-! ### Relations in which nothing has two predecessors -/

section Relations

variable {α : Type} {r : α → α → Prop}

/-- Nothing on a circle is reached from a root: going back from it stays on the circle. -/
theorem not_transGen_of_root (unique : Relator.LeftUnique r) {t x : α} (root : ∀ p, ¬ r p t)
    (reach : ReflTransGen r t x) : ¬ TransGen r x x := by
  induction reach with
  | refl =>
    intro circle
    obtain ⟨p, -, hp⟩ := TransGen.tail'_iff.1 circle
    exact root p hp
  | tail _ step ih =>
    intro circle
    obtain ⟨p, back, hp⟩ := TransGen.tail'_iff.1 circle
    obtain rfl := unique hp step
    exact ih (TransGen.head' step back)

/-- Below a root from which finitely much is reached, every descent ends. -/
theorem acc_of_root (unique : Relator.LeftUnique r) {t : α} (root : ∀ p, ¬ r p t)
    (finite : {x | ReflTransGen r t x}.Finite) : Acc (Function.swap r) t := by
  have := finite.to_subtype
  let below : {x | ReflTransGen r t x} → {x | ReflTransGen r t x} → Prop :=
    fun a b => TransGen r b.1 a.1
  have : IsTrans _ below := ⟨fun _ _ _ hab hbc => hbc.trans hab⟩
  have : Std.Irrefl below := ⟨fun a => not_transGen_of_root unique root a.2⟩
  have wf : WellFounded below := Finite.wellFounded_of_trans_of_irrefl below
  suffices ∀ x : {x | ReflTransGen r t x}, Acc (Function.swap r) x.1 from this ⟨t, .refl⟩
  intro x
  induction x using wf.induction with
  | _ x ih => exact ⟨_, fun y hy => ih ⟨y, x.2.tail hy⟩ (TransGen.single hy)⟩

/-- Two roots from which one thing is reached are the same. -/
theorem root_unique (unique : Relator.LeftUnique r) {s t x : α} (hs : ∀ p, ¬ r p s)
    (ht : ∀ p, ¬ r p t) (reach : ReflTransGen r s x) (reach' : ReflTransGen r t x) : s = t := by
  induction reach with
  | refl =>
    rcases ReflTransGen.cases_tail reach' with same | ⟨p, -, step⟩
    · exact same
    · exact absurd step (hs p)
  | tail _ step ih =>
    rcases ReflTransGen.cases_tail reach' with rfl | ⟨p, before, step'⟩
    · exact absurd step (ht _)
    · obtain rfl := unique step step'
      exact ih before

/-- Where every way back ends, there is a root at its end. -/
theorem exists_root_of_acc {x : α} (acc : Acc r x) :
    ∃ t, (∀ p, ¬ r p t) ∧ ReflTransGen r t x := by
  induction acc with
  | intro x _ ih =>
    by_cases root : ∃ p, r p x
    · obtain ⟨p, step⟩ := root
      obtain ⟨t, root, reach⟩ := ih p step
      exact ⟨t, root, reach.tail step⟩
    · exact ⟨x, fun p step => root ⟨p, step⟩, .refl⟩

end Relations

/-! ### The links of a block -/

/-- The links of a block: to the first block of its body, and to the block that follows it. -/
inductive Link where
  | body
  | next
deriving DecidableEq, Repr

namespace Block

/-- The block that a link names. -/
def target (b : Block) : Link → Option BlockId
  | .body => b.body
  | .next => b.next

/-- The block with another target of a link. -/
def retarget (b : Block) (child : BlockId) : Link → Block
  | .body => { b with body := some child }
  | .next => { b with next := some child }

@[simp]
theorem id_retarget (b : Block) (child : BlockId) (l : Link) : (b.retarget child l).id = b.id := by
  cases l <;> rfl

@[simp]
theorem kind_retarget (b : Block) (child : BlockId) (l : Link) :
    (b.retarget child l).kind = b.kind := by
  cases l <;> rfl

theorem target_retarget (b : Block) (child : BlockId) (l m : Link) :
    (b.retarget child l).target m = if l = m then some child else b.target m := by
  cases l <;> cases m <;> rfl

end Block

namespace Workspace

variable {ws : Workspace}

/-- The block that a link of a stored block names. -/
def target? (ws : Workspace) (p : BlockId) (l : Link) : Option BlockId :=
  (ws.get? p).bind fun b => b.target l

/-- A link of a block names another one. -/
def Leads (ws : Workspace) (p c : BlockId) : Prop :=
  ∃ l, ws.target? p l = some c

/-- A block follows another one. -/
def Follows (ws : Workspace) (p c : BlockId) : Prop :=
  ws.target? p .next = some c

theorem target?_eq_some_iff {p c : BlockId} {l : Link} :
    ws.target? p l = some c ↔ ∃ b, ws.get? p = some b ∧ b.target l = some c :=
  Option.bind_eq_some_iff

theorem target?_of_get? {p : BlockId} {b : Block} (h : ws.get? p = some b) (l : Link) :
    ws.target? p l = b.target l := by
  simp [target?, h]

/-- Every stored block is named exactly once, and stands where a block of its type may stand. -/
structure Coherent (ws : Workspace) : Prop where
  id_eq : ∀ {k b}, ws.get? k = some b → b.id = k
  top_stored : ∀ {k}, k ∈ ws.top → (ws.get? k).isSome
  target_stored : ∀ {p l k}, ws.target? p l = some k → (ws.get? k).isSome
  top_nodup : ws.top.Nodup
  parent_unique : ∀ {p l q m k}, ws.target? p l = some k → ws.target? q m = some k → p = q ∧ l = m
  not_mem_top : ∀ {p l k}, ws.target? p l = some k → k ∉ ws.top
  top_or_target : ∀ {k}, (ws.get? k).isSome → k ∈ ws.top ∨ ∃ p l, ws.target? p l = some k
  hasBody : ∀ {k b}, ws.get? k = some b → b.body.isSome → b.kind.hasBody
  start_mem_top : ∀ {k b}, ws.get? k = some b → b.kind = .start → k ∈ ws.top

namespace Coherent

theorem leads_unique (h : ws.Coherent) : Relator.LeftUnique ws.Leads := by
  rintro p k q ⟨l, hp⟩ ⟨m, hq⟩
  exact (h.parent_unique hp hq).1

theorem follows_unique (h : ws.Coherent) : Relator.LeftUnique ws.Follows :=
  fun _ _ _ hp hq => (h.parent_unique hp hq).1

theorem not_leads_top (h : ws.Coherent) {t : BlockId} (ht : t ∈ ws.top) (p : BlockId) :
    ¬ ws.Leads p t :=
  fun ⟨_, hp⟩ => h.not_mem_top hp ht

/-- A block that is the first of a body follows no block. -/
theorem not_follows_of_body (h : ws.Coherent) {p k : BlockId} (hp : ws.target? p .body = some k)
    (q : BlockId) : ¬ ws.Follows q k :=
  fun hq => Link.noConfusion (h.parent_unique hp hq).2

theorem not_follows_of_top (h : ws.Coherent) {t : BlockId} (ht : t ∈ ws.top) (p : BlockId) :
    ¬ ws.Follows p t :=
  fun hp => h.not_mem_top hp ht

end Coherent

theorem finite_stored (ws : Workspace) : {k | (ws.get? k).isSome}.Finite := by
  refine ws.blocks.keys.finite_toSet.subset fun k hk => ?_
  show k ∈ ws.blocks.keys
  rwa [Std.HashMap.mem_keys, ← Std.HashMap.contains_iff_mem, contains_blocks]

/-- What is reached from a stored block along links that lead to stored blocks is finite. -/
theorem Coherent.finite_reach (h : ws.Coherent) {r : BlockId → BlockId → Prop}
    (leads : ∀ {p c}, r p c → ws.Leads p c) {t : BlockId} (ht : (ws.get? t).isSome) :
    {x | ReflTransGen r t x}.Finite := by
  refine ws.finite_stored.subset fun x hx => ?_
  rcases ReflTransGen.cases_tail hx with rfl | ⟨p, -, hp⟩
  · exact ht
  · obtain ⟨l, hl⟩ := leads hp
    exact h.target_stored hl

/-! ### Lists of blocks -/

/-- The blocks of a list from a given one on, up to one without a successor. -/
inductive Lists (ws : Workspace) : Option BlockId → List Block → Prop
  | nil : ws.Lists none []
  | cons {k : BlockId} {b : Block} {bs : List Block} :
      ws.get? k = some b → ws.Lists b.next bs → ws.Lists (some k) (b :: bs)

namespace Lists

variable {first : Option BlockId} {bs bs' : List Block}

theorem unique (h : ws.Lists first bs) (h' : ws.Lists first bs') : bs = bs' := by
  induction h generalizing bs' with
  | nil => cases h'; rfl
  | cons hk _ ih =>
    cases h' with
    | cons hk' rest =>
      obtain rfl := Option.some.inj (hk.symm.trans hk')
      rw [ih rest]

theorem get?_of_mem (h : ws.Coherent) (hl : ws.Lists first bs) {b : Block} (hb : b ∈ bs) :
    ws.get? b.id = some b := by
  induction hl with
  | nil => simp at hb
  | cons hk _ ih =>
    rcases List.mem_cons.1 hb with rfl | hb
    · rwa [h.id_eq hk]
    · exact ih hb

/-- From any block of a list on, the list goes on to the same end. -/
theorem exists_suffix (hl : ws.Lists first bs) {b : Block} (hb : b ∈ bs) :
    ∃ k rest, ws.get? k = some b ∧ ws.Lists (some k) (b :: rest) ∧ rest.length < bs.length := by
  induction hl with
  | nil => simp at hb
  | @cons k _ bs hk tail ih =>
    rcases List.mem_cons.1 hb with rfl | hb
    · exact ⟨k, bs, hk, .cons hk tail, by simp⟩
    · obtain ⟨k, rest, hk, hrest, lt⟩ := ih hb
      exact ⟨k, rest, hk, hrest, by rw [List.length_cons]; omega⟩

/-- A list holds no block twice, since it would go on from both in the same way. -/
theorem nodup_ids (h : ws.Coherent) (hl : ws.Lists first bs) : (bs.map Block.id).Nodup := by
  induction hl with
  | nil => simp
  | @cons k b bs hk tail ih =>
    refine List.nodup_cons.2 ⟨fun hmem => ?_, ih⟩
    obtain ⟨b', hb', same⟩ := List.mem_map.1 hmem
    obtain ⟨k', rest, hk', hrest, lt⟩ := tail.exists_suffix hb'
    have hkk : k' = k := by rw [← h.id_eq hk', ← h.id_eq hk, same]
    subst hkk
    have := congrArg List.length ((Lists.cons hk tail).unique hrest)
    simp only [List.length_cons] at this
    omega

theorem walk_eq (hl : ws.Lists first bs) {n : ℕ} (hn : bs.length ≤ n) : ws.walk n first = bs := by
  induction hl generalizing n with
  | nil => cases n <;> rfl
  | cons hk _ ih =>
    cases n with
    | zero => simp at hn
    | succ n =>
      rw [walk, hk]
      exact congrArg _ (ih (by simpa using hn))

theorem length_le_size (h : ws.Coherent) (hl : ws.Lists first bs) : bs.length ≤ ws.size := by
  rw [← List.length_map (f := Block.id)]
  refine ws.length_le_size (hl.nodup_ids h) fun k hk => ?_
  obtain ⟨b, hb, rfl⟩ := List.mem_map.1 hk
  rw [hl.get?_of_mem h hb]
  rfl

/-- The walk reaches the end of the list before its bound. -/
theorem chain_eq (h : ws.Coherent) (hl : ws.Lists first bs) : ws.chain first = bs :=
  hl.walk_eq (hl.length_le_size h)

/-- A list holds what is reached from its first block by going on to the next. -/
theorem mem_ids_iff (h : ws.Coherent) (hl : ws.Lists first bs) {x : BlockId} :
    x ∈ bs.map Block.id ↔ ∃ k, first = some k ∧ ReflTransGen ws.Follows k x := by
  induction hl with
  | nil => simp
  | @cons k b bs hk _ ih =>
    rw [List.map_cons, List.mem_cons, ih, h.id_eq hk]
    have follows : ∀ {n}, b.next = some n → ws.Follows k n :=
      fun hn => (target?_of_get? hk .next).trans hn
    constructor
    · rintro (rfl | ⟨n, hn, reach⟩)
      · exact ⟨x, rfl, .refl⟩
      · exact ⟨k, rfl, .head (follows hn) reach⟩
    · rintro ⟨k', hk', reach⟩
      obtain rfl := Option.some.inj hk'
      rcases ReflTransGen.cases_head reach with rfl | ⟨n, step, reach⟩
      · exact Or.inl rfl
      · exact Or.inr ⟨n, (target?_of_get? hk .next).symm.trans step, reach⟩

theorem next_of_getLast? (hl : ws.Lists first bs) {b : Block} (hb : bs.getLast? = some b) :
    b.next = none := by
  induction hl with
  | nil => simp at hb
  | @cons k b' bs hk tail ih =>
    cases bs with
    | nil =>
      obtain rfl : b' = b := by simpa using hb
      generalize b'.next = next at tail
      cases tail
      rfl
    | cons b'' bs => exact ih (by simpa using hb)

/-- A block without a successor is the last of its list. -/
theorem getLast?_of_next (hl : ws.Lists first bs) {b : Block} (hb : b ∈ bs) (last : b.next = none) :
    bs.getLast? = some b := by
  induction hl with
  | nil => exact absurd hb List.not_mem_nil
  | @cons k b' bs _ tail ih =>
    rcases List.mem_cons.1 hb with rfl | hb
    · rw [last] at tail
      cases tail
      rfl
    · rw [List.getLast?_cons, ih hb]
      rfl

end Lists

/-- A list that starts at a block which follows no other ends. -/
theorem Coherent.exists_lists (h : ws.Coherent) {k : BlockId} (stored : (ws.get? k).isSome)
    (first : ∀ p, ¬ ws.Follows p k) : ∃ bs, ws.Lists (some k) bs := by
  have acc : Acc (Function.swap ws.Follows) k :=
    acc_of_root h.follows_unique first (h.finite_reach (fun hp => ⟨.next, hp⟩) stored)
  clear first
  induction acc with
  | intro k _ ih =>
    obtain ⟨b, hb⟩ := Option.isSome_iff_exists.1 stored
    cases hn : b.next with
    | none => exact ⟨[b], .cons hb (hn ▸ .nil)⟩
    | some c =>
      have follows : ws.Follows k c := (target?_of_get? hb .next).trans hn
      obtain ⟨bs, hbs⟩ := ih c follows (h.target_stored follows)
      exact ⟨b :: bs, .cons hb (hn ▸ hbs)⟩

/-- Where a walk may start such that it covers a whole list: at the top level, or at a body. -/
def Begins (ws : Workspace) (first : Option BlockId) : Prop :=
  (∃ t ∈ ws.top, first = some t) ∨ ∃ k b, ws.get? k = some b ∧ first = b.body

theorem Coherent.lists_chain (h : ws.Coherent) {first : Option BlockId} (begins : ws.Begins first) :
    ws.Lists first (ws.chain first) := by
  suffices ∃ bs, ws.Lists first bs by
    obtain ⟨bs, hbs⟩ := this
    rwa [hbs.chain_eq h]
  rcases begins with ⟨t, ht, rfl⟩ | ⟨k, b, hb, rfl⟩
  · exact h.exists_lists (h.top_stored ht) (h.not_follows_of_top ht)
  · cases hbody : b.body with
    | none => exact ⟨[], .nil⟩
    | some c =>
      have names : ws.target? k .body = some c := (target?_of_get? hb .body).trans hbody
      exact h.exists_lists (h.target_stored names) (h.not_follows_of_body names)

end Workspace

end BlockBoard
