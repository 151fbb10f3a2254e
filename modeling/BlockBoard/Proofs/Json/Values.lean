import Mathlib.Algebra.Order.Ring.Int
import BlockBoard.Proofs.Json.Lists

/-!
# Reading written values

A written value is read back if its arrays and objects are not nested deeper than the reader goes,
and refused otherwise (`reads_value`).
-/

namespace BlockBoard

namespace Json

mutual

/-- How many arrays and objects are open at a time. -/
def depth : Json → ℕ
  | .array items => listDepth items + 1
  | .object members => membersDepth members + 1
  | .null | .bool _ | .int _ | .real | .text _ => 0

def listDepth : List Json → ℕ
  | [] => 0
  | j :: js => max j.depth (listDepth js)

def membersDepth : List (String × Json) → ℕ
  | [] => 0
  | (_, j) :: members => max j.depth (membersDepth members)

end

mutual

/-- All numbers are words. -/
def Faithful : Json → Prop
  | .array items => ListFaithful items
  | .object members => MembersFaithful members
  | .int n => Word.Fits n
  | .real => False
  | .null | .bool _ | .text _ => True

def ListFaithful : List Json → Prop
  | [] => True
  | j :: js => j.Faithful ∧ ListFaithful js

def MembersFaithful : List (String × Json) → Prop
  | [] => True
  | (_, j) :: members => j.Faithful ∧ MembersFaithful members

end

theorem listDepth_le_iff {js : List Json} {n : ℕ} : listDepth js ≤ n ↔ ∀ j ∈ js, j.depth ≤ n := by
  induction js with
  | nil => simp [listDepth]
  | cons j js ih => simp [listDepth, ih]

theorem membersDepth_le_iff {ms : List (String × Json)} {n : ℕ} :
    membersDepth ms ≤ n ↔ ∀ m ∈ ms, m.2.depth ≤ n := by
  induction ms with
  | nil => simp [membersDepth]
  | cons m ms ih => simp [membersDepth, ih]

theorem listFaithful_iff {js : List Json} : ListFaithful js ↔ ∀ j ∈ js, j.Faithful := by
  induction js with
  | nil => simp [ListFaithful]
  | cons j js ih => simp [ListFaithful, ih]

theorem membersFaithful_iff {ms : List (String × Json)} :
    MembersFaithful ms ↔ ∀ m ∈ ms, m.2.Faithful := by
  induction ms with
  | nil => simp [MembersFaithful]
  | cons m ms ih => simp [MembersFaithful, ih]

/-- Values are made of their items or members, or have no parts. -/
theorem value_induction {motive : Json → Prop} (flat : ∀ j, j.depth = 0 → motive j)
    (array : ∀ js, (∀ j ∈ js, motive j) → motive (.array js))
    (object : ∀ ms, (∀ m ∈ ms, motive m.2) → motive (.object ms)) : ∀ j, motive j
  | .null => flat _ rfl
  | .bool _ => flat _ rfl
  | .int _ => flat _ rfl
  | .real => flat _ rfl
  | .text _ => flat _ rfl
  | .array js => array js fun j _ => value_induction flat array object j
  | .object ms => object ms fun m _ => value_induction flat array object m.2
termination_by j => j
decreasing_by
  · next hj =>
    have := List.sizeOf_lt_of_mem hj
    simp only [Json.array.sizeOf_spec]
    omega
  · next hm =>
    obtain ⟨k, v⟩ := m
    have := List.sizeOf_lt_of_mem hm
    simp only [Json.object.sizeOf_spec, Prod.mk.sizeOf_spec] at this ⊢
    omega

theorem skipBlanks_write (layout : Layout) (level : ℕ) (j : Json) {blanks : List Char}
    (blank : ∀ c ∈ blanks, isBlank c) (rest : List Char) :
    skipBlanks (blanks ++ ((j.write layout level).toList ++ rest)) =
      (j.write layout level).toList ++ rest := by
  obtain ⟨c, cs, text, notBlank, -⟩ := exists_write_eq_cons layout level j
  rw [skipBlanks_append blank, text, List.cons_append, skipBlanks_of_not_blank notBlank]

variable {layout : Layout} {level limit : ℕ}

/-! ### Values without parts -/

/-- The characters begin with an array or object. -/
def Opens (cs : List Char) : Prop :=
  ∃ rest, cs = '[' :: rest ∨ cs = '\x7b' :: rest

theorem not_opens_cons {c : Char} (h : c ≠ '[' ∧ c ≠ '\x7b') (cs : List Char) :
    ¬ Opens (c :: cs) := by
  rintro ⟨rest, same | same⟩
  · exact h.1 (List.cons.inj same).1
  · exact h.2 (List.cons.inj same).1

theorem value_eq_scalar {cs cs' : List Char} (text : skipBlanks cs = cs') (flat : ¬ Opens cs')
    (depth : ℕ) : value .strict limit depth cs = scalar .strict limit cs' := by
  cases depth <;> unfold value <;> rw [text] <;> split
  all_goals first | rfl | exact absurd ⟨_, .inl rfl⟩ flat | exact absurd ⟨_, .inr rfl⟩ flat

theorem flat_eq_scalar {cs cs' : List Char} (text : skipBlanks cs = cs') (flat : ¬ Opens cs') :
    Json.flat limit cs = scalar .strict limit cs' := by
  unfold Json.flat
  rw [text]
  split
  · exact absurd ⟨_, .inl rfl⟩ flat
  · exact absurd ⟨_, .inr rfl⟩ flat
  · rfl

theorem scalar_quote (s : String) (short : s.toList.length < limit) (rest : List Char) :
    scalar .strict limit ((quote s).toList ++ rest) = .ok (.text s, rest) := by
  rw [toList_quote, List.cons_append, List.append_assoc, List.singleton_append, scalar,
    stringRest_quote s short]
  rfl

theorem not_opens_toString (n : ℤ) (rest : List Char) :
    ¬ Opens ((toString n).toList ++ rest) := by
  obtain ⟨d, ds, digits⟩ :=
    List.exists_cons_of_ne_nil (Nat.toDigits_ne_nil (n := n.toNat) (b := 10))
  have first : d.isDigit = true := isDigit_of_mem_toDigits d (by rw [digits]; simp)
  rw [toList_toString]
  split_ifs
  · rw [digits]
    refine not_opens_cons ⟨?_, ?_⟩ _ <;> rintro rfl <;> simp at first
  · exact not_opens_cons (by decide) _

theorem scalar_write {j : Json} (faithful : j.Faithful) (flat : j.depth = 0) (layout : Layout)
    (level : ℕ) (short : (j.write layout level).toList.length < limit) {rest : List Char}
    (ends : EndsNumber rest) :
    ¬ Opens ((j.write layout level).toList ++ rest) ∧
      scalar .strict limit ((j.write layout level).toList ++ rest) = .ok (j, rest) := by
  cases j with
  | null =>
    rw [write]
    exact ⟨not_opens_cons (by decide) _, rfl⟩
  | bool b =>
    cases b <;> rw [write] <;> exact ⟨not_opens_cons (by decide) _, rfl⟩
  | int n =>
    rw [write]
    exact ⟨not_opens_toString n rest, scalar_toString faithful limit ends⟩
  | text s =>
    rw [write] at short ⊢
    refine ⟨?_, scalar_quote s ((length_lt_quote s).trans short) rest⟩
    rw [toList_quote]
    exact not_opens_cons (by decide) _
  | array js => exact absurd flat (Nat.succ_ne_zero _)
  | object ms => exact absurd flat (Nat.succ_ne_zero _)
  | real => exact faithful.elim

/-! ### Values -/

theorem value_array {js : List Json} {cs rest : List Char} {d : ℕ}
    (start : skipBlanks cs = '[' :: (arrayTail layout level js ++ rest))
    (reads : ∀ j ∈ js, Reads (value .strict limit d) (j.write layout (level + 1)).toList
      (if j.depth ≤ d then .ok j else .error .malformed))
    (room : js.length < limit) :
    value .strict limit (d + 1) cs =
      if (array js).depth ≤ d + 1 then .ok (array js, rest) else .error .malformed := by
  have opened : value .strict limit (d + 1) cs =
      items (value .strict limit d) limit (arrayTail layout level js ++ rest) >>= fun r =>
        .ok (.array r.1, r.2) := by
    unfold value
    rw [start]
    rfl
  have read := reads_items (w := id) reads room rest
  rw [List.map_id] at read
  rw [opened, read, mapM_ite, List.map_id']
  simp only [depth, Nat.add_le_add_iff_right, listDepth_le_iff]
  split_ifs <;> rfl

theorem value_object {ms : List (String × Json)} {cs rest : List Char} {d : ℕ}
    (start : skipBlanks cs = '\x7b' :: (objectTail layout level ms ++ rest))
    (reads : ∀ m ∈ ms, Reads (value .strict limit d) (m.2.write layout (level + 1)).toList
      (if m.2.depth ≤ d then .ok m.2 else .error .malformed))
    (keys : ∀ m ∈ ms, m.1.toList.length < limit) (room : ms.length < limit) :
    value .strict limit (d + 1) cs =
      if (object ms).depth ≤ d + 1 then .ok (object ms, rest) else .error .malformed := by
  have result (m : String × Json) : (if m.2.depth ≤ d then Except.ok m.2
      else Except.error Fault.malformed).map (m.1, ·) =
        if m.2.depth ≤ d then .ok m else .error .malformed := by
    split_ifs <;> rfl
  have opened : value .strict limit (d + 1) cs =
      foldMembers .strict limit (member (value .strict limit d)) limit true []
        (objectTail layout level ms ++ rest) >>= fun r => .ok (.object r.1.reverse, r.2) := by
    unfold value
    rw [start]
    rfl
  rw [opened, foldMembers_objectTail
    (fun before m hm => ⟨keys m hm, (reads m hm).member layout before m.1⟩) room]
  simp only [result]
  rw [foldlM_push, mapM_ite, List.map_id']
  simp only [depth, Nat.add_le_add_iff_right, membersDepth_le_iff]
  split_ifs
  · simp
  · rfl

/-- What is written for a value is read as the value, unless it is nested too deep. -/
theorem reads_value {j : Json} (faithful : j.Faithful) (layout : Layout) (level : ℕ)
    (short : (j.write layout level).toList.length < limit) (depth : ℕ) :
    Reads (value .strict limit depth) (j.write layout level).toList
      (if j.depth ≤ depth then .ok j else .error .malformed) := by
  -- Parts are read one level further in, and with one level of depth less.
  induction j using value_induction generalizing level depth with
  | flat j flat =>
    intro blanks rest blank ends
    have start := skipBlanks_write layout level j blank rest
    obtain ⟨shut, read⟩ := scalar_write faithful flat layout level short ends
    rw [value_eq_scalar start shut, read, flat, if_pos (Nat.zero_le _)]
    rfl
  | array js ih =>
    intro blanks rest blank ends
    have start := skipBlanks_write layout level (.array js) blank rest
    rw [toList_write_array] at start short ⊢
    obtain ⟨fewer, parts⟩ := length_arrayTail_le layout level js
    rw [List.length_cons] at short
    cases depth with
    | zero =>
      unfold value
      rw [start]
      rfl
    | succ d =>
      have items (j : Json) (hj : j ∈ js) :
          Reads (value .strict limit d) (j.write layout (level + 1)).toList
            (if j.depth ≤ d then .ok j else .error .malformed) := by
        have := parts j hj
        exact ih j hj (listFaithful_iff.1 faithful j hj) (level + 1) (by omega) d
      rw [value_array start items (by omega)]
      split_ifs <;> rfl
  | object ms ih =>
    intro blanks rest blank ends
    have start := skipBlanks_write layout level (.object ms) blank rest
    rw [toList_write_object] at start short ⊢
    obtain ⟨fewer, parts⟩ := length_objectTail_le layout level ms
    rw [List.length_cons] at short
    have member (m : String × Json) (hm : m ∈ ms) :
        m.1.toList.length < limit ∧ (m.2.write layout (level + 1)).toList.length < limit := by
      have := parts m hm
      have := length_memberText layout (level + 1) m
      omega
    cases depth with
    | zero =>
      unfold value
      rw [start]
      rfl
    | succ d =>
      have values (m : String × Json) (hm : m ∈ ms) :
          Reads (value .strict limit d) (m.2.write layout (level + 1)).toList
            (if m.2.depth ≤ d then .ok m.2 else .error .malformed) :=
        ih m hm (membersFaithful_iff.1 faithful m hm) (level + 1) (member m hm).2 d
      rw [value_object start values (fun m hm => (member m hm).1) (by omega)]
      split_ifs <;> rfl

/-! ### Values of a given shape -/

theorem reads_textValue (s : String) (short : s.toList.length < limit) :
    Reads (textValue limit) (quote s).toList (.ok s) := by
  intro blanks rest blank _
  have start : skipBlanks (blanks ++ ((quote s).toList ++ rest)) = (quote s).toList ++ rest := by
    rw [skipBlanks_append blank, skipBlanks_quote]
  have shut : ¬ Opens ((quote s).toList ++ rest) := by
    rw [toList_quote]
    exact not_opens_cons (by decide) _
  unfold textValue
  rw [flat_eq_scalar start shut, scalar_quote s short]
  rfl

theorem reads_wordValue {n : ℤ} (fits : Word.Fits n) :
    Reads (wordValue limit) (toString n).toList (.ok n) := by
  intro blanks rest blank ends
  have start := skipBlanks_write .compact 0 (.int n) blank rest
  rw [write] at start
  unfold wordValue
  rw [flat_eq_scalar start (not_opens_toString n rest), scalar_toString fits limit ends, ok_bind]
  exact if_pos fits

theorem openWith_append {bracket : Char} (notBlank : isBlank bracket = false) {blanks : List Char}
    (blank : ∀ c ∈ blanks, isBlank c) (cs : List Char) :
    openWith bracket limit (blanks ++ bracket :: cs) = .ok cs := by
  unfold openWith
  rw [skipBlanks_append blank, skipBlanks_of_not_blank notBlank]
  exact if_pos rfl

/-- An array of values of one shape is read if each of them is nested less deep than the array may
be. -/
theorem reads_array {α : Type} {read : List Char → Except Fault (α × List Char)} {w : α → Json}
    {as : List α} {d : ℕ}
    (reads : ∀ a ∈ as, ((w a).write layout (level + 1)).toList.length < limit →
      Reads read ((w a).write layout (level + 1)).toList
        (if (w a).depth ≤ d then .ok a else .error .malformed))
    (short : ((array (as.map w)).write layout level).toList.length < limit) :
    Reads (fun cs => do items read limit (← openWith '[' limit cs))
      ((array (as.map w)).write layout level).toList
      (if (array (as.map w)).depth ≤ d + 1 then .ok as else .error .malformed) := by
  intro blanks rest blank ends
  rw [toList_write_array] at short ⊢
  obtain ⟨fewer, parts⟩ := length_arrayTail_le layout level (as.map w)
  rw [List.length_map] at fewer
  rw [List.length_cons] at short
  have items (a : α) (ha : a ∈ as) := reads a ha (by
    have := parts (w a) (List.mem_map_of_mem ha)
    omega)
  dsimp only
  rw [List.cons_append, openWith_append (by decide) blank, ok_bind, reads_items items (by omega),
    mapM_ite, List.map_id']
  simp only [depth, Nat.add_le_add_iff_right, listDepth_le_iff, List.forall_mem_map]

theorem foldMembers_object {σ : Type}
    {member : σ → String → List Char → Except Fault (σ × List Char)}
    {g : σ → String × Json → Except Fault σ} {ms : List (String × Json)}
    (reads : ∀ s, ∀ m ∈ ms, (memberText layout (level + 1) m).length < limit →
      ReadsMember limit member layout (level + 1) s m (g s m))
    (short : ((object ms).write layout level).toList.length < limit) (s : σ) (rest : List Char) :
    foldMembers .strict limit member limit true s (objectTail layout level ms ++ rest) =
      (ms.foldlM g s).map (·, rest) := by
  rw [toList_write_object, List.length_cons] at short
  obtain ⟨fewer, parts⟩ := length_objectTail_le layout level ms
  have members (s : σ) (m : String × Json) (hm : m ∈ ms) := reads s m hm (by
    have := parts m hm
    omega)
  exact foldMembers_objectTail members (by omega) s rest

theorem whole_eq {α : Type} {reader : ℕ → List Char → Except Fault (α × List Char)} {text : String}
    {result : Except Fault α}
    (reads : Reads (reader (text.toList.length + 1)) text.toList result) :
    whole reader text = result := by
  have read := reads.eq endsNumber_nil
  rw [List.append_nil] at read
  unfold whole
  dsimp only
  rw [read]
  cases result <;> rfl

end Json

end BlockBoard
