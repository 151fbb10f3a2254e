import BlockBoard.Proofs.Workspace.Outcomes

/-!
# Generated names

A generated name is the first of the names of the counter that is free. The search for it is a loop
without a bound over a 64-bit counter; it ends after at most one round more than there are blocks
(`searchName_freshId`), since different numbers have different names. The counter only goes up: a
block that is taken out again keeps its name used up, and so do all blocks that are cleared away. So
over a run of edits no name is generated twice (`names_never_repeat`).
-/

namespace BlockBoard

namespace Workspace

variable {ws : Workspace}

/-! ### The search for a free name -/

/-- The search for a free name, for a number of rounds. Each round tries the name of the counter and
counts on, and the first free name ends it, with what the counter then is. -/
def searchName (ws : Workspace) : (rounds : ℕ) → (counter : UInt64) → Option (BlockId × UInt64)
  | 0, _ => none
  | rounds + 1, counter =>
    if ws.blocks.contains (generated counter.toNat) then ws.searchName rounds (counter + 1)
    else some (generated counter.toNat, counter + 1)

theorem searchName_succ (ws : Workspace) (rounds : ℕ) {n : ℕ} (small : n < 2 ^ 64) :
    ws.searchName (rounds + 1) (.ofNat n) =
      if (ws.get? (generated n)).isSome then ws.searchName rounds (.ofNat (n + 1))
      else some (generated n, .ofNat (n + 1)) := by
  rw [searchName, UInt64.toNat_ofNat_of_lt' small, contains_blocks, UInt64.ofNat_add n 1]
  rfl

/-- The search passes over taken names, as long as the counter does not run over. -/
theorem searchName_eq {n passed rounds : ℕ}
    (taken : ∀ i < passed, (ws.get? (generated (n + i))).isSome)
    (free : ws.get? (generated (n + passed)) = none) (small : n + passed < 2 ^ 64)
    (enough : passed < rounds) :
    ws.searchName rounds (.ofNat n) =
      some (generated (n + passed), .ofNat (n + passed + 1)) := by
  induction passed generalizing n rounds with
  | zero =>
    obtain ⟨rounds, rfl⟩ := Nat.exists_eq_add_one_of_ne_zero enough.ne'
    rw [Nat.add_zero] at free small ⊢
    rw [searchName_succ ws rounds small, free]
    rfl
  | succ passed ih =>
    obtain ⟨rounds, rfl⟩ := Nat.exists_eq_add_one_of_ne_zero (Nat.ne_zero_of_lt enough)
    have shift : ∀ i, n + 1 + i = n + (i + 1) := fun i => by omega
    have here : (ws.get? (generated n)).isSome := taken 0 (Nat.succ_pos _)
    have taken' : ∀ i < passed, (ws.get? (generated (n + 1 + i))).isSome := by
      intro i hi
      rw [shift]
      exact taken (i + 1) (Nat.succ_lt_succ hi)
    have low : n < 2 ^ 64 := by omega
    rw [← shift] at free small ⊢
    rw [searchName_succ ws rounds low, if_pos here]
    exact ih taken' free small (Nat.lt_of_succ_lt_succ enough)

/-- The search ends at the next generated name, after at most one round more than there are
blocks. -/
theorem searchName_freshId (small : ws.freshNumber < 2 ^ 64) :
    ws.searchName (ws.size + 1) (.ofNat ws.nextNumber) =
      some (ws.freshId, .ofNat (ws.freshNumber + 1)) := by
  obtain ⟨passed, le, eq, taken, -⟩ := ws.freeNumber_spec ws.size ws.nextNumber
  have number : ws.freshNumber = ws.nextNumber + passed := eq
  have free := ws.get?_freshId
  rw [freshId, number] at free ⊢
  exact searchName_eq taken free (number ▸ small) (Nat.lt_succ_of_le le)

/-! ### The names of a run of edits -/

/-- The name that an edit generates. Pushing generates one if the parent is stored, also for a block
that is then refused. -/
def issued? (ws : Workspace) : Edit → Option BlockId
  | .add kind => some (ws.add kind).2
  | .push parent kind => (ws.get? parent).map fun _ => (ws.add kind).2
  | .ensureStart => if ws.start?.isSome then none else some ws.ensureStart.2
  | .insert _ _ | .append _ _ | .setNext _ _ | .clear => none

/-- The names that edits generate, in order. -/
def issued (ws : Workspace) : List Edit → List BlockId
  | [] => []
  | edit :: edits => (ws.issued? edit).toList ++ (ws.apply edit).issued edits

theorem nextNumber_afterEdit {result : Except EditError Workspace}
    (ok : ∀ {ws'}, result = .ok ws' → ws'.nextNumber = ws.nextNumber) :
    (ws.afterEdit result).nextNumber = ws.nextNumber := by
  cases result with
  | error e => rfl
  | ok ws' => exact ok rfl

/-- Linking blocks leaves the counter. -/
theorem nextNumber_of_append {ws' : Workspace} {parent child : BlockId}
    (h : ws.append parent child = .ok ws') : ws'.nextNumber = ws.nextNumber := by
  obtain ⟨_, -, -, -, rfl⟩ := append_eq_ok_iff.1 h
  rfl

/-- An edit generates no name and leaves the counter, or it generates the next free name and the
counter goes on behind its number. -/
theorem issued?_cases (ws : Workspace) (edit : Edit) :
    (ws.issued? edit = none ∧ (ws.apply edit).nextNumber = ws.nextNumber) ∨
      ws.issued? edit = some ws.freshId ∧ (ws.apply edit).nextNumber = ws.freshNumber + 1 := by
  cases edit with
  | add kind => exact Or.inr ⟨rfl, rfl⟩
  | insert id kind =>
    refine Or.inl ⟨rfl, nextNumber_afterEdit fun h => ?_⟩
    obtain ⟨-, rfl⟩ := insert_eq_ok_iff.1 h
    rfl
  | append parent child => exact Or.inl ⟨rfl, nextNumber_afterEdit nextNumber_of_append⟩
  | setNext anchor next =>
    refine Or.inl ⟨rfl, nextNumber_afterEdit fun h => ?_⟩
    obtain ⟨_, -, -, -, rfl⟩ := setNext_eq_ok_iff.1 h
    rfl
  | push parent kind =>
    rw [apply, issued?]
    cases stored : ws.get? parent with
    | none =>
      rw [push_of_unknown stored]
      exact Or.inl ⟨rfl, rfl⟩
    | some b =>
      rw [push_of_stored stored]
      refine Or.inr ⟨rfl, ?_⟩
      -- The counter went on when the block was added, and is not put back if it is refused.
      cases linked : (ws.add kind).1.append parent ws.freshId with
      | error e => rfl
      | ok ws' => exact nextNumber_of_append linked
  | ensureStart =>
    rw [apply, issued?]
    unfold ensureStart
    cases ws.start? with
    | some start => exact Or.inl ⟨rfl, rfl⟩
    | none => exact Or.inr ⟨rfl, rfl⟩
  | clear => exact Or.inl ⟨rfl, rfl⟩

/-- What a push answers is the name that it generated. -/
theorem issued?_of_push_eq_ok {parent id : BlockId} {kind : Kind}
    (pushed : (ws.push parent kind).2 = .ok id) : ws.issued? (.push parent kind) = some id := by
  cases stored : ws.get? parent with
  | none =>
    rw [push_of_unknown stored] at pushed
    cases pushed
  | some b =>
    rw [push_of_stored stored] at pushed
    rw [issued?, stored]
    cases linked : (ws.add kind).1.append parent ws.freshId with
    | error e =>
      rw [linked] at pushed
      cases pushed
    | ok ws' =>
      rw [linked] at pushed
      exact congrArg some (Except.ok.inj pushed)

theorem nextNumber_le_apply (ws : Workspace) (edit : Edit) :
    ws.nextNumber ≤ (ws.apply edit).nextNumber := by
  rcases ws.issued?_cases edit with ⟨-, same⟩ | ⟨-, next⟩
  · exact same.ge
  · rw [next]
    exact Nat.le_succ_of_le ws.nextNumber_le_freshNumber

theorem nextNumber_le_run (ws : Workspace) (edits : List Edit) :
    ws.nextNumber ≤ (ws.run edits).nextNumber := by
  induction edits generalizing ws with
  | nil => exact le_rfl
  | cons edit edits ih => exact (ws.nextNumber_le_apply edit).trans (ih _)

/-- The numbers of the generated names go up, from the counter that a run begins with to the one that
it ends with. -/
theorem exists_issued_eq_map (ws : Workspace) (edits : List Edit) :
    ∃ numbers : List ℕ, ws.issued edits = numbers.map generated ∧ numbers.Pairwise (· < ·) ∧
      ∀ n ∈ numbers, ws.nextNumber ≤ n ∧ n < (ws.run edits).nextNumber := by
  induction edits generalizing ws with
  | nil => exact ⟨[], rfl, .nil, nofun⟩
  | cons edit edits ih =>
    obtain ⟨numbers, names, ordered, bounds⟩ := ih (ws.apply edit)
    rw [issued, names]
    rcases ws.issued?_cases edit with ⟨without, same⟩ | ⟨issues, next⟩
    · rw [without]
      exact ⟨numbers, rfl, ordered, same ▸ bounds⟩
    · rw [issues]
      have low := ws.nextNumber_le_freshNumber
      have high := (ws.apply edit).nextNumber_le_run edits
      refine ⟨ws.freshNumber :: numbers, rfl, List.pairwise_cons.2 ⟨fun n hn => ?_, ordered⟩,
        List.forall_mem_cons.2 ⟨⟨low, ?_⟩, fun n hn => ⟨?_, (bounds n hn).2⟩⟩⟩
      · have := (bounds n hn).1
        omega
      · show ws.freshNumber < ((ws.apply edit).run edits).nextNumber
        omega
      · have := (bounds n hn).1
        omega

/-- No name is generated twice over a run of edits, whatever was named by hand, refused or cleared
away on the way; the names that blocks are pushed under are among them. If the counter stays a word,
each name is the one at which the search for a free name ends, after at most one round more than
there are blocks, and no block has it yet. -/
theorem names_never_repeat (ws : Workspace) (edits : List Edit)
    (small : (ws.run edits).nextNumber < 2 ^ 64) :
    (ws.issued edits).Nodup ∧
    ∀ before edit, before ++ [edit] <+: edits →
      (∀ parent kind id, edit = .push parent kind →
        ((ws.run before).push parent kind).2 = .ok id → (ws.run before).issued? edit = some id) ∧
      ∀ id, (ws.run before).issued? edit = some id →
        (ws.run before).searchName ((ws.run before).size + 1)
            (.ofNat (ws.run before).nextNumber) =
          some (id, .ofNat ((ws.run before).apply edit).nextNumber) ∧
        (ws.run before).get? id = none := by
  refine ⟨?_, fun before edit made => ⟨?_, fun id generates => ?_⟩⟩
  · obtain ⟨numbers, names, ordered, -⟩ := ws.exists_issued_eq_map edits
    rw [names]
    exact (ordered.imp Nat.ne_of_lt).map _ fun _ _ => generated_injective.ne
  · rintro parent kind id rfl pushed
    exact issued?_of_push_eq_ok pushed
  · rcases (ws.run before).issued?_cases edit with ⟨without, -⟩ | ⟨issues, next⟩
    · rw [without] at generates
      cases generates
    · obtain rfl := Option.some.inj (issues.symm.trans generates)
      obtain ⟨after, rfl⟩ := made
      have whole : ws.run (before ++ [edit] ++ after) =
          ((ws.run before).apply edit).run after := by
        simp [run]
      have le := ((ws.run before).apply edit).nextNumber_le_run after
      rw [whole] at small
      rw [next]
      exact ⟨searchName_freshId (by omega), (ws.run before).get?_freshId⟩

/-- The number of the next generated name is the first one whose name is free. -/
theorem freshNumber_eq {n : ℕ} (le : ws.nextNumber ≤ n)
    (taken : ∀ i, ws.nextNumber ≤ i → i < n → (ws.get? (generated i)).isSome)
    (free : ws.get? (generated n) = none) : ws.freshNumber = n := by
  obtain ⟨passed, -, eq, passes, -⟩ := ws.freeNumber_spec ws.size ws.nextNumber
  have number : ws.freshNumber = ws.nextNumber + passed := eq
  have fresh : ws.get? (generated ws.freshNumber) = none := ws.get?_freshId
  rcases Nat.lt_trichotomy ws.freshNumber n with lt | same | gt
  · have stored := taken _ ws.nextNumber_le_freshNumber lt
    rw [fresh] at stored
    cases stored
  · exact same
  · have stored := passes (n - ws.nextNumber) (by omega)
    rw [Nat.add_sub_cancel' le, free] at stored
    cases stored

/-! ### A name that was given by hand -/

/-- A workspace in which a start block was given the first generated name by hand. -/
def crowded : Workspace :=
  empty.run [.insert "blk0" .start]

theorem crowded_eq : crowded = empty.place { id := "blk0", kind := .start } :=
  apply_insert "blk0" .start (get?_empty _)

theorem freshNumber_crowded : crowded.freshNumber = 1 := by
  have zero : generated 0 = "blk0" := by decide
  have one : ¬ "blk0" = generated 1 := by decide
  rw [crowded_eq]
  refine freshNumber_eq (Nat.zero_le 1) (fun i _ hi => ?_) ?_
  · obtain rfl := Nat.lt_one_iff.1 hi
    simp [get?_place, zero]
  · simp [get?_place, one]

/-- A push that is refused, after which all is cleared away and a start block is asked for. -/
def restart : List Edit :=
  [.push "blk0" .start, .clear, .ensureStart]

/-- The name of the refused block is found in the second round, and is not generated again. -/
theorem names_never_repeat_crowded :
    (crowded.run restart).nextNumber < 2 ^ 64 ∧ crowded.issued restart = ["blk1", "blk2"] ∧
      (crowded.issued restart).Nodup ∧ crowded.searchName 2 0 = some ("blk1", 2) := by
  have size : crowded.size = 1 := by
    rw [crowded_eq]
    exact Std.HashMap.size_insert.trans (by simp [empty])
  have start : crowded.nextNumber = 0 := by
    rw [crowded_eq]
    rfl
  have id : crowded.freshId = "blk1" := by
    rw [freshId, freshNumber_crowded]
    decide
  have generates : crowded.issued? (.push "blk0" .start) = some "blk1" := by
    rw [← id, issued?, crowded_eq, get?_place]
    rfl
  have counter : (crowded.apply (.push "blk0" .start)).nextNumber = 2 := by
    rcases crowded.issued?_cases (.push "blk0" .start) with ⟨without, -⟩ | ⟨-, next⟩
    · rw [generates] at without
      cases without
    · rw [next, freshNumber_crowded]
  have small : (crowded.run restart).nextNumber < 2 ^ 64 := by
    show (crowded.apply (.push "blk0" .start)).nextNumber + 1 < 2 ^ 64
    rw [counter]
    decide
  have names : crowded.issued restart = (crowded.issued? (.push "blk0" .start)).toList ++
      [generated (crowded.apply (.push "blk0" .start)).nextNumber] := rfl
  obtain ⟨nodup, issues⟩ := crowded.names_never_repeat restart small
  have search : crowded.searchName (crowded.size + 1) (.ofNat crowded.nextNumber) =
      some ("blk1", .ofNat (crowded.apply (.push "blk0" .start)).nextNumber) :=
    ((issues [] (.push "blk0" .start) ⟨_, rfl⟩).2 "blk1" generates).1
  refine ⟨small, ?_, nodup, ?_⟩
  · rw [names, generates, counter]
    decide
  · rwa [size, start, counter] at search

end Workspace

end BlockBoard
