import Mathlib.Data.List.Nodup
import Mathlib.Data.List.Perm.Subperm
import Std.Data.String.ToNat
import BlockBoard.Program.Workspace

/-!
# What a workspace shows

A workspace is observed through `get?`, the block of a name, and `top`, the names of the top level.
This file says what each operation does to the two. It also shows that different stored names are no
more than `size` (`length_le_size`) and that a generated name is free (`get?_freshId`).
-/

namespace BlockBoard

/-! ### Refusals -/

section Refusals

variable {ε α β : Type}

@[simp]
theorem ok_bind (a : α) (f : α → Except ε β) : (Except.ok a >>= f) = f a := rfl

@[simp]
theorem error_bind (e : ε) (f : α → Except ε β) : (Except.error e >>= f) = .error e := rfl

@[simp]
theorem throw_eq_error (e : ε) : (throw e : Except ε α) = .error e := rfl

@[simp]
theorem pure_eq_ok (a : α) : (pure a : Except ε α) = .ok a := rfl

theorem bind_eq_ok_iff {x : Except ε α} {f : α → Except ε β} {b : β} :
    (x >>= f) = .ok b ↔ ∃ a, x = .ok a ∧ f a = .ok b := by
  cases x <;> simp

end Refusals

namespace Workspace

variable (ws : Workspace)

/-! ### Placing, changing and removing blocks -/

@[simp]
theorem get?_empty (k : BlockId) : empty.get? k = none := by
  simp [empty, get?]

@[simp]
theorem top_empty : empty.top = [] := rfl

theorem get?_place (b : Block) (k : BlockId) :
    (ws.place b).get? k = if b.id = k then some b else ws.get? k := by
  simp [place, get?, Std.HashMap.getElem?_insert]

@[simp]
theorem top_place (b : Block) : (ws.place b).top = ws.top ++ [b.id] := rfl

theorem get?_modify (id k : BlockId) (f : Block → Block) :
    (ws.modify id f).get? k = if id = k then (ws.get? k).map f else ws.get? k := by
  by_cases h : id = k
  · subst h
    simp [modify, get?]
  · simp [modify, get?, Std.HashMap.getElem?_modify, h]

@[simp]
theorem top_modify (id : BlockId) (f : Block → Block) : (ws.modify id f).top = ws.top := rfl

@[simp]
theorem get?_detach (id k : BlockId) : (ws.detach id).get? k = ws.get? k := rfl

theorem mem_top_detach {id k : BlockId} : k ∈ (ws.detach id).top ↔ k ∈ ws.top ∧ k ≠ id := by
  simp [detach]

theorem get?_remove (id k : BlockId) :
    (ws.remove id).get? k = if id = k then none else ws.get? k := by
  simp [remove, get?, detach, Std.HashMap.getElem?_erase]

theorem top_remove (id : BlockId) : (ws.remove id).top = ws.top.filter (· ≠ id) := rfl

@[simp]
theorem get?_useFreshId (k : BlockId) : ws.useFreshId.get? k = ws.get? k := rfl

@[simp]
theorem top_useFreshId : ws.useFreshId.top = ws.top := rfl

@[simp]
theorem get?_clear (k : BlockId) : ws.clear.get? k = none := by
  simp [clear, get?]

@[simp]
theorem top_clear : ws.clear.top = [] := rfl

theorem contains_blocks (k : BlockId) : ws.blocks.contains k = (ws.get? k).isSome :=
  Std.HashMap.contains_eq_isSome_getElem?

variable {ws} in
/-- The start block is the stored block of a top-level name. -/
theorem exists_top_of_start? {start : Block} (h : ws.start? = some start) :
    ∃ k ∈ ws.top, ws.get? k = some start ∧ start.kind = .start := by
  obtain ⟨k, hk, stored⟩ := List.mem_filterMap.1 (List.mem_of_find?_eq_some h)
  have kind := List.find?_some (p := fun b : Block => decide (b.kind = .start)) h
  exact ⟨k, hk, stored, of_decide_eq_true kind⟩

/-! ### Counting stored names -/

/-- Different names of stored blocks are no more than there are blocks. -/
theorem length_le_size {ids : List BlockId} (nodup : ids.Nodup)
    (stored : ∀ k ∈ ids, (ws.get? k).isSome) : ids.length ≤ ws.size := by
  have sub : ids ⊆ ws.blocks.keys := by
    intro k hk
    rw [Std.HashMap.mem_keys, ← Std.HashMap.contains_iff_mem, contains_blocks]
    exact stored k hk
  have := (List.subperm_of_subset nodup sub).length_le
  rwa [Std.HashMap.length_keys] at this

/-! ### Generated names -/

theorem generated_injective : Function.Injective generated := by
  intro m n h
  have : toString m = toString n := by
    simpa [generated] using h
  exact Nat.repr_inj.1 this

/-- The search passes over taken names only, and stops early only at a free one. -/
theorem freeNumber_spec (tries n : ℕ) :
    ∃ passed ≤ tries, ws.freeNumber tries n = n + passed ∧
      (∀ i < passed, (ws.get? (generated (n + i))).isSome) ∧
      (passed < tries → ws.get? (generated (n + passed)) = none) := by
  induction tries generalizing n with
  | zero => exact ⟨0, Nat.le_refl 0, rfl, by simp, by simp⟩
  | succ tries ih =>
    rw [freeNumber, contains_blocks]
    cases taken : (ws.get? (generated n)).isSome with
    | false => exact ⟨0, by omega, rfl, by simp, fun _ => by simpa using taken⟩
    | true =>
      obtain ⟨passed, le, eq, all, free⟩ := ih (n + 1)
      have shift : ∀ i, n + 1 + i = n + (i + 1) := fun i => by omega
      simp only [shift] at eq all free
      refine ⟨passed + 1, by omega, by simpa using eq, fun i hi => ?_, fun h => free (by omega)⟩
      cases i with
      | zero => exact taken
      | succ i => exact all i (by omega)

/-- A generated name is free: the names that the search may pass over and the one that it ends at
are more than the stored ones. -/
theorem get?_freshId : ws.get? ws.freshId = none := by
  obtain ⟨passed, le, eq, all, free⟩ := ws.freeNumber_spec ws.size ws.nextNumber
  rw [freshId, freshNumber, eq]
  rcases Nat.lt_or_eq_of_le le with lt | rfl
  · exact free lt
  · by_contra h
    have taken : ∀ k ∈ (List.range (ws.size + 1)).map fun i => generated (ws.nextNumber + i),
        (ws.get? k).isSome := by
      intro k hk
      obtain ⟨i, hi, rfl⟩ := List.mem_map.1 hk
      rcases Nat.lt_succ_iff_lt_or_eq.1 (List.mem_range.1 hi) with lt | rfl
      · exact all i lt
      · exact Option.isSome_iff_ne_none.2 h
    have nodup : ((List.range (ws.size + 1)).map fun i =>
        generated (ws.nextNumber + i)).Nodup :=
      List.nodup_range.map fun i j h => Nat.add_left_cancel (generated_injective h)
    have := ws.length_le_size nodup taken
    rw [List.length_map, List.length_range] at this
    omega

theorem freshId_ne_of_get? {k : BlockId} {b : Block} (stored : ws.get? k = some b) :
    ws.freshId ≠ k := by
  rintro rfl
  rw [get?_freshId] at stored
  cases stored

theorem get?_add (kind : Kind) (k : BlockId) :
    (ws.add kind).1.get? k = if ws.freshId = k then some { id := ws.freshId, kind }
      else ws.get? k := by
  simp [add, get?_place]

@[simp]
theorem top_add (kind : Kind) : (ws.add kind).1.top = ws.top ++ [ws.freshId] := rfl

theorem exists_start?_ensureStart : ∃ start, ws.ensureStart.1.start? = some start := by
  unfold ensureStart
  cases found : ws.start? with
  | some start => exact ⟨start, found⟩
  | none =>
    rw [← Option.isSome_iff_exists, start?, List.find?_isSome]
    refine ⟨{ id := ws.freshId, kind := .start }, List.mem_filterMap.2 ⟨ws.freshId, ?_, ?_⟩, rfl⟩
    · simp
    · rw [get?_add, if_pos rfl]

end Workspace

end BlockBoard
