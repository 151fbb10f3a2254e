import Mathlib.Algebra.Order.Ring.Int
import BlockBoard.Proofs.Json.Tokens

/-!
# Reading written arrays and objects

A reader goes through a written array or object item by item, so what it makes of the whole is the
fold of what it makes of the items (`foldItems_arrayTail`, `foldMembers_objectTail`).
-/

namespace BlockBoard

namespace Json

/-- The reader gets a result out of a text, whatever blanks precede it and whatever follows, unless
that goes on with a number. -/
def Reads {α : Type} (read : List Char → Except Fault (α × List Char)) (text : List Char)
    (result : Except Fault α) : Prop :=
  ∀ blanks rest : List Char, (∀ c ∈ blanks, isBlank c) → EndsNumber rest →
    read (blanks ++ (text ++ rest)) = result.map (·, rest)

variable {α σ : Type} {layout : Layout} {level limit : ℕ}

theorem Reads.eq {read : List Char → Except Fault (α × List Char)} {text rest : List Char}
    {result : Except Fault α} (h : Reads read text result) (ends : EndsNumber rest) :
    read (text ++ rest) = result.map (·, rest) :=
  h [] rest (by simp) ends

theorem Reads.map {β : Type} {read : List Char → Except Fault (α × List Char)} {text : List Char}
    {result : Except Fault α} (h : Reads read text result) (f : α → β) :
    Reads (fun cs => do
      let (a, cs) ← read cs
      .ok (f a, cs)) text (result.map f) := by
  intro blanks rest blank ends
  simp only [h blanks rest blank ends]
  cases result <;> rfl

@[simp] theorem map_ok {ε β : Type} (f : α → β) (a : α) :
    (Except.ok a : Except ε α).map f = .ok (f a) := rfl

@[simp] theorem map_error {ε β : Type} (f : α → β) (e : ε) :
    (Except.error e : Except ε α).map f = .error e := rfl

/-! ### The ends of texts -/

theorem endsNumber_nil : EndsNumber [] := nofun

theorem endsNumber_cons {c : Char}
    (h : c.isDigit = false ∧ c ≠ '.' ∧ c ≠ 'e' ∧ c ≠ 'E') (cs : List Char) :
    EndsNumber (c :: cs) := by
  rintro _ ⟨⟩
  exact h

theorem endsNumber_lineStart {cs : List Char} (h : EndsNumber cs) :
    EndsNumber ((layout.lineStart level).toList ++ cs) := by
  cases layout with
  | compact => simpa [Layout.lineStart] using h
  | indented =>
    rw [Layout.lineStart, String.toList_append, List.append_assoc]
    exact endsNumber_cons (by decide) _

/-! ### Texts as characters -/

/-- The text of an array behind its first item. -/
def itemsTail (layout : Layout) (level : ℕ) (js : List Json) : List Char :=
  (writeItems layout (level + 1) js).toList ++ ((layout.lineStart level).toList ++ [']'])

/-- The text of an array behind its opening bracket. -/
def arrayTail (layout : Layout) (level : ℕ) : List Json → List Char
  | [] => [']']
  | j :: js =>
    (layout.lineStart (level + 1)).toList ++
      ((j.write layout (level + 1)).toList ++ itemsTail layout level js)

/-- The text of a member. -/
def memberText (layout : Layout) (level : ℕ) (m : String × Json) : List Char :=
  (quote m.1).toList ++ (layout.colon.toList ++ (m.2.write layout level).toList)

/-- The text of an object behind its first member. -/
def membersTail (layout : Layout) (level : ℕ) (ms : List (String × Json)) : List Char :=
  (writeMembers layout (level + 1) ms).toList ++ ((layout.lineStart level).toList ++ ['\x7d'])

/-- The text of an object behind its opening bracket. -/
def objectTail (layout : Layout) (level : ℕ) : List (String × Json) → List Char
  | [] => ['\x7d']
  | m :: ms =>
    (layout.lineStart (level + 1)).toList ++
      (memberText layout (level + 1) m ++ membersTail layout level ms)

theorem toList_write_array (js : List Json) :
    ((array js).write layout level).toList = '[' :: arrayTail layout level js := by
  cases js with
  | nil => simp [write, arrayTail]
  | cons j js => simp [write, arrayTail, itemsTail]

theorem toList_write_object (ms : List (String × Json)) :
    ((object ms).write layout level).toList = '\x7b' :: objectTail layout level ms := by
  cases ms with
  | nil => simp [write, objectTail]
  | cons m ms => simp [write, objectTail, membersTail, memberText]

theorem itemsTail_nil :
    itemsTail layout level [] = (layout.lineStart level).toList ++ [']'] := by
  simp [itemsTail, writeItems]

theorem itemsTail_cons (j : Json) (js : List Json) : itemsTail layout level (j :: js) =
    ',' :: ((layout.lineStart (level + 1)).toList ++
      ((j.write layout (level + 1)).toList ++ itemsTail layout level js)) := by
  simp [itemsTail, writeItems]

theorem membersTail_nil :
    membersTail layout level [] = (layout.lineStart level).toList ++ ['\x7d'] := by
  simp [membersTail, writeMembers]

theorem membersTail_cons (m : String × Json) (ms : List (String × Json)) :
    membersTail layout level (m :: ms) =
      ',' :: ((layout.lineStart (level + 1)).toList ++
        (memberText layout (level + 1) m ++ membersTail layout level ms)) := by
  simp [membersTail, writeMembers, memberText]

theorem endsNumber_itemsTail (layout : Layout) (level : ℕ) (js : List Json) (rest : List Char) :
    EndsNumber (itemsTail layout level js ++ rest) := by
  cases js with
  | nil =>
    rw [itemsTail_nil, List.append_assoc]
    exact endsNumber_lineStart (endsNumber_cons (by decide) _)
  | cons j js =>
    rw [itemsTail_cons]
    exact endsNumber_cons (by decide) _

theorem endsNumber_membersTail (layout : Layout) (level : ℕ) (ms : List (String × Json))
    (rest : List Char) : EndsNumber (membersTail layout level ms ++ rest) := by
  cases ms with
  | nil =>
    rw [membersTail_nil, List.append_assoc]
    exact endsNumber_lineStart (endsNumber_cons (by decide) _)
  | cons m ms =>
    rw [membersTail_cons]
    exact endsNumber_cons (by decide) _

theorem exists_write_eq_cons (layout : Layout) (level : ℕ) (j : Json) :
    ∃ c cs, (j.write layout level).toList = c :: cs ∧ isBlank c = false ∧ c ≠ ']' := by
  cases j with
  | null => exact ⟨'n', ['u', 'l', 'l'], by simp [write], by decide⟩
  | bool b =>
    cases b with
    | true => exact ⟨'t', ['r', 'u', 'e'], by simp [write], by decide⟩
    | false => exact ⟨'f', ['a', 'l', 's', 'e'], by simp [write], by decide⟩
  | real => exact ⟨'0', ['.', '0'], by simp [write], by decide⟩
  | text s => exact ⟨'"', _, by rw [write, toList_quote], by decide⟩
  | array js => exact ⟨'[', _, toList_write_array js, by decide⟩
  | object ms => exact ⟨'\x7b', _, toList_write_object ms, by decide⟩
  | int n =>
    obtain ⟨d, ds, digits⟩ :=
      List.exists_cons_of_ne_nil (Nat.toDigits_ne_nil (n := n.toNat) (b := 10))
    have first : d.isDigit = true := isDigit_of_mem_toDigits d (by rw [digits]; simp)
    rw [write, toList_toString]
    split_ifs
    · refine ⟨d, ds, digits, ?_, ?_⟩
      · by_contra blank
        simp only [isBlank, Bool.or_eq_false_iff, not_and_or, Bool.not_eq_false,
          decide_eq_true_eq] at blank
        rcases blank with ((rfl | rfl) | rfl) | rfl <;> simp at first
      · rintro rfl
        simp at first
    · exact ⟨'-', _, rfl, by decide⟩

/-! ### Arrays -/

theorem nextItem_lineStart {c : Char} (notBlank : isBlank c = false) (notClose : c ≠ ']')
    (cs : List Char) :
    nextItem true ((layout.lineStart level).toList ++ c :: cs) = .ok (.more () (c :: cs)) := by
  unfold nextItem
  rw [skipBlanks_lineStart, skipBlanks_of_not_blank notBlank]
  split <;> simp_all

theorem nextItem_comma {c : Char} (notBlank : isBlank c = false) (notClose : c ≠ ']')
    (cs : List Char) :
    nextItem false (',' :: ((layout.lineStart level).toList ++ c :: cs)) =
      .ok (.more () (c :: cs)) := by
  unfold nextItem
  rw [skipBlanks_of_not_blank (c := ',') (by decide)]
  split
  · contradiction
  · simp_all
  · next heq =>
    obtain ⟨rfl, rfl⟩ := List.cons_eq_cons.1 heq
    rw [if_neg Bool.false_ne_true, if_pos rfl, skipBlanks_lineStart,
      skipBlanks_of_not_blank notBlank]
    split <;> simp_all

theorem nextItem_close (first : Bool) (cs : List Char) :
    nextItem first ((layout.lineStart level).toList ++ ']' :: cs) = .ok (.done cs) := by
  unfold nextItem
  rw [skipBlanks_lineStart, skipBlanks_of_not_blank (by decide)]
  rfl

section Fold

variable {β : Type} {item : σ → List Char → Except Fault (σ × List Char)} {w : β → Json}
  {g : σ → β → Except Fault σ}

theorem foldItems_itemsTail {bs : List β}
    (reads : ∀ s, ∀ b ∈ bs, Reads (item s) ((w b).write layout (level + 1)).toList (g s b))
    (room : bs.length < limit) (s : σ) (rest : List Char) :
    foldItems item limit false s (itemsTail layout level (bs.map w) ++ rest) =
      (bs.foldlM g s).map (·, rest) := by
  -- Each item takes a round, and the closing bracket takes the last one.
  induction bs generalizing limit s with
  | nil =>
    obtain ⟨limit, rfl⟩ := Nat.exists_eq_succ_of_ne_zero (Nat.ne_of_gt room)
    rw [List.map_nil, itemsTail_nil, List.append_assoc, foldItems, List.singleton_append,
      nextItem_close]
    rfl
  | cons b bs ih =>
    obtain ⟨limit, rfl⟩ := Nat.exists_eq_succ_of_ne_zero (Nat.ne_of_gt (Nat.zero_lt_of_lt room))
    obtain ⟨c, cs, text, notBlank, notClose⟩ := exists_write_eq_cons layout (level + 1) (w b)
    have read :=
      (reads s b List.mem_cons_self).eq (endsNumber_itemsTail layout level (bs.map w) rest)
    have fewer : bs.length < limit := Nat.lt_of_succ_lt_succ room
    have later := ih (fun s b hb => reads s b (List.mem_cons_of_mem _ hb)) fewer
    rw [List.map_cons, itemsTail_cons, foldItems]
    rw [text] at read ⊢
    simp only [List.cons_append, List.append_assoc] at read ⊢
    rw [nextItem_comma notBlank notClose, ok_bind]
    dsimp only
    rw [read, List.foldlM_cons]
    cases g s b with
    | error e => rfl
    | ok s' => exact later s'

/-- An array is read item by item. -/
theorem foldItems_arrayTail {bs : List β}
    (reads : ∀ s, ∀ b ∈ bs, Reads (item s) ((w b).write layout (level + 1)).toList (g s b))
    (room : bs.length < limit) (s : σ) (rest : List Char) :
    foldItems item limit true s (arrayTail layout level (bs.map w) ++ rest) =
      (bs.foldlM g s).map (·, rest) := by
  obtain ⟨limit, rfl⟩ := Nat.exists_eq_succ_of_ne_zero (Nat.ne_of_gt (Nat.zero_lt_of_lt room))
  cases bs with
  | nil => rfl
  | cons b bs =>
    obtain ⟨c, cs, text, notBlank, notClose⟩ := exists_write_eq_cons layout (level + 1) (w b)
    have read :=
      (reads s b List.mem_cons_self).eq (endsNumber_itemsTail layout level (bs.map w) rest)
    have fewer : bs.length < limit := Nat.lt_of_succ_lt_succ room
    have later :=
      foldItems_itemsTail (fun s b hb => reads s b (List.mem_cons_of_mem _ hb)) fewer
    rw [List.map_cons, arrayTail, foldItems]
    rw [text] at read ⊢
    simp only [List.cons_append, List.append_assoc] at read ⊢
    rw [nextItem_lineStart notBlank notClose, ok_bind]
    dsimp only
    rw [read, List.foldlM_cons]
    cases g s b with
    | error e => rfl
    | ok s' => exact later s' rest

end Fold

/-- Folding results onto a list collects them. -/
theorem foldlM_push {β γ ε : Type} (f : β → Except ε γ) (bs : List β) (before : List γ) :
    bs.foldlM (fun before b => (f b).map (· :: before)) before =
      (bs.mapM f).map fun as => as.reverse ++ before := by
  induction bs generalizing before with
  | nil => rfl
  | cons b bs ih =>
    rw [List.foldlM_cons, List.mapM_cons]
    cases f b with
    | error e => rfl
    | ok a =>
      rw [map_ok, ok_bind, ok_bind, ih]
      cases bs.mapM f with
      | error e => rfl
      | ok as => simp

theorem mapM_ite {β γ ε : Type} (P : β → Prop) [DecidablePred P] (h : β → γ) (e : ε)
    (bs : List β) :
    bs.mapM (fun b => if P b then Except.ok (h b) else .error e) =
      if ∀ b ∈ bs, P b then .ok (bs.map h) else .error e := by
  induction bs with
  | nil => rfl
  | cons b bs ih =>
    rw [List.mapM_cons, ih]
    by_cases hb : P b
    · by_cases hbs : ∀ b ∈ bs, P b
      · rw [if_pos hb, if_pos hbs, if_pos (by simpa [hb] using hbs)]
        rfl
      · rw [if_pos hb, if_neg hbs, if_neg (by simpa [hb] using hbs)]
        rfl
    · have bad : ¬ ∀ b' ∈ b :: bs, P b' := fun all => hb (all b List.mem_cons_self)
      rw [if_neg bad, if_neg hb]
      rfl

theorem reads_items {β : Type} {read : List Char → Except Fault (α × List Char)} {w : β → Json}
    {f : β → Except Fault α} {bs : List β}
    (reads : ∀ b ∈ bs, Reads read ((w b).write layout (level + 1)).toList (f b))
    (room : bs.length < limit) (rest : List Char) :
    items read limit (arrayTail layout level (bs.map w) ++ rest) =
      (bs.mapM f).map (·, rest) := by
  unfold items
  rw [foldItems_arrayTail (fun before b hb => (reads b hb).map (· :: before)) room, foldlM_push]
  cases bs.mapM f with
  | error e => rfl
  | ok as => simp

/-! ### Objects -/

/-- A key is a token of its own; the reader of a member begins at the colon. -/
def ReadsMember (limit : ℕ) (member : σ → String → List Char → Except Fault (σ × List Char))
    (layout : Layout) (level : ℕ) (s : σ) (m : String × Json) (result : Except Fault σ) : Prop :=
  m.1.toList.length < limit ∧
    Reads (member s m.1) (layout.colon.toList ++ (m.2.write layout level).toList) result

theorem memberKey_quote {key : String} (h : key.toList.length < limit) (cs : List Char) :
    memberKey .strict limit ((quote key).toList ++ cs) = .ok (.more key cs) := by
  rw [toList_quote, List.cons_append, List.append_assoc, List.singleton_append, memberKey,
    stringRest_quote key h]
  rfl

theorem skipBlanks_quote (key : String) (cs : List Char) :
    skipBlanks ((quote key).toList ++ cs) = (quote key).toList ++ cs := by
  rw [toList_quote, List.cons_append, skipBlanks_of_not_blank (by decide)]

theorem nextMember_lineStart (strings : ℕ) (key : String) (cs : List Char) :
    nextMember .strict strings true
        ((layout.lineStart level).toList ++ ((quote key).toList ++ cs)) =
      memberKey .strict strings ((quote key).toList ++ cs) := by
  unfold nextMember
  rw [skipBlanks_lineStart, skipBlanks_quote, toList_quote]
  rfl

theorem nextMember_comma (strings : ℕ) (key : String) (cs : List Char) :
    nextMember .strict strings false
        (',' :: ((layout.lineStart level).toList ++ ((quote key).toList ++ cs))) =
      memberKey .strict strings ((quote key).toList ++ cs) := by
  have behind (cs : List Char) : nextMember .strict strings false (',' :: cs) =
    memberKey .strict strings (skipBlanks cs) := rfl
  rw [behind, skipBlanks_lineStart, skipBlanks_quote]

theorem nextMember_close (strings : ℕ) (first : Bool) (cs : List Char) :
    nextMember .strict strings first ((layout.lineStart level).toList ++ '\x7d' :: cs) =
      .ok (.done cs) := by
  unfold nextMember
  rw [skipBlanks_lineStart, skipBlanks_of_not_blank (by decide)]
  rfl

section Fold

variable {member : σ → String → List Char → Except Fault (σ × List Char)}
  {g : σ → String × Json → Except Fault σ} {strings : ℕ}

theorem foldMembers_membersTail {ms : List (String × Json)}
    (reads : ∀ s, ∀ m ∈ ms, ReadsMember strings member layout (level + 1) s m (g s m))
    (room : ms.length < limit) (s : σ) (rest : List Char) :
    foldMembers .strict strings member limit false s (membersTail layout level ms ++ rest) =
      (ms.foldlM g s).map (·, rest) := by
  induction ms generalizing limit s with
  | nil =>
    obtain ⟨limit, rfl⟩ := Nat.exists_eq_succ_of_ne_zero (Nat.ne_of_gt room)
    rw [membersTail_nil, List.append_assoc, foldMembers, List.singleton_append, nextMember_close]
    rfl
  | cons m ms ih =>
    obtain ⟨limit, rfl⟩ := Nat.exists_eq_succ_of_ne_zero (Nat.ne_of_gt (Nat.zero_lt_of_lt room))
    obtain ⟨short, read⟩ := reads s m List.mem_cons_self
    have read := read.eq (endsNumber_membersTail layout level ms rest)
    have fewer : ms.length < limit := Nat.lt_of_succ_lt_succ room
    have later := ih (fun s m hm => reads s m (List.mem_cons_of_mem _ hm)) fewer
    rw [membersTail_cons, foldMembers, memberText]
    simp only [List.cons_append, List.append_assoc] at read ⊢
    rw [nextMember_comma, memberKey_quote short, ok_bind]
    dsimp only
    rw [read, List.foldlM_cons]
    cases g s m with
    | error e => rfl
    | ok s' => exact later s'

/-- An object is read member by member. -/
theorem foldMembers_objectTail {ms : List (String × Json)}
    (reads : ∀ s, ∀ m ∈ ms, ReadsMember strings member layout (level + 1) s m (g s m))
    (room : ms.length < limit) (s : σ) (rest : List Char) :
    foldMembers .strict strings member limit true s (objectTail layout level ms ++ rest) =
      (ms.foldlM g s).map (·, rest) := by
  obtain ⟨limit, rfl⟩ := Nat.exists_eq_succ_of_ne_zero (Nat.ne_of_gt (Nat.zero_lt_of_lt room))
  cases ms with
  | nil => rfl
  | cons m ms =>
    obtain ⟨short, read⟩ := reads s m List.mem_cons_self
    have read := read.eq (endsNumber_membersTail layout level ms rest)
    have fewer : ms.length < limit := Nat.lt_of_succ_lt_succ room
    have later :=
      foldMembers_membersTail (fun s m hm => reads s m (List.mem_cons_of_mem _ hm)) fewer
    rw [objectTail, foldMembers, memberText]
    simp only [List.append_assoc] at read ⊢
    rw [nextMember_lineStart, memberKey_quote short, ok_bind]
    dsimp only
    rw [read, List.foldlM_cons]
    cases g s m with
    | error e => rfl
    | ok s' => exact later s' rest

end Fold

theorem colon_append (layout : Layout) {blanks : List Char} (blank : ∀ c ∈ blanks, isBlank c)
    (cs : List Char) : ∃ blanks', (∀ c ∈ blanks', isBlank c) ∧
      colon (blanks ++ (layout.colon.toList ++ cs)) = .ok (blanks' ++ cs) := by
  unfold colon
  rw [skipBlanks_append blank]
  cases layout with
  | compact => exact ⟨[], by simp, rfl⟩
  | indented => exact ⟨[' '], by simp [isBlank], rfl⟩

/-- A reader of values makes a reader of members. -/
theorem Reads.colon {read : List Char → Except Fault (α × List Char)} {text : List Char}
    {result : Except Fault α} (h : Reads read text result) (layout : Layout) :
    Reads (fun cs => do read (← Json.colon cs)) (layout.colon.toList ++ text) result := by
  intro blanks rest blank ends
  obtain ⟨blanks', blank', taken⟩ := colon_append layout blank (text ++ rest)
  simp only [List.append_assoc, taken, ok_bind]
  exact h blanks' rest blank' ends

theorem Reads.member {read : List Char → Except Fault (α × List Char)} {text : List Char}
    {result : Except Fault α} (h : Reads read text result) (layout : Layout)
    (before : List (String × α)) (key : String) :
    Reads (Json.member read before key) (layout.colon.toList ++ text)
      ((result.map (key, ·)).map (· :: before)) := by
  have read := (h.colon layout).map fun a => (key, a) :: before
  have result_eq : (result.map (key, ·)).map (· :: before) =
      result.map fun a => (key, a) :: before := by cases result <;> rfl
  rw [result_eq]
  unfold Json.member
  simpa only [bind_assoc] using read

/-! ### Parts are no longer than the whole -/

theorem length_itemsTail_le (layout : Layout) (level : ℕ) (js : List Json) :
    js.length ≤ (itemsTail layout level js).length ∧
      ∀ j ∈ js,
        (j.write layout (level + 1)).toList.length ≤ (itemsTail layout level js).length := by
  induction js with
  | nil => simp
  | cons j js ih =>
    have := ih.1
    rw [itemsTail_cons]
    simp only [List.length_cons, List.length_append, List.mem_cons, forall_eq_or_imp]
    refine ⟨by omega, by omega, fun j hj => ?_⟩
    have := ih.2 j hj
    omega

theorem length_arrayTail_le (layout : Layout) (level : ℕ) (js : List Json) :
    js.length ≤ (arrayTail layout level js).length ∧
      ∀ j ∈ js,
        (j.write layout (level + 1)).toList.length ≤ (arrayTail layout level js).length := by
  cases js with
  | nil => simp
  | cons j js =>
    obtain ⟨c, cs, text, -⟩ := exists_write_eq_cons layout (level + 1) j
    have pos : 0 < (j.write layout (level + 1)).toList.length := by rw [text]; simp
    obtain ⟨length, parts⟩ := length_itemsTail_le layout level js
    rw [arrayTail]
    simp only [List.length_cons, List.length_append, List.mem_cons, forall_eq_or_imp]
    refine ⟨by omega, by omega, fun j hj => ?_⟩
    have := parts j hj
    omega

theorem length_le_flatMap_escape (cs : List Char) : cs.length ≤ (cs.flatMap escape).length := by
  induction cs with
  | nil => simp
  | cons c cs ih =>
    have pos : 0 < (escape c).length := by
      unfold escape
      split_ifs <;> simp
    rw [List.flatMap_cons, List.length_append, List.length_cons]
    omega

theorem length_lt_quote (s : String) : s.toList.length < (quote s).toList.length := by
  have := length_le_flatMap_escape s.toList
  rw [toList_quote, List.length_cons, List.length_append]
  omega

theorem length_memberText (layout : Layout) (level : ℕ) (m : String × Json) :
    m.1.toList.length < (memberText layout level m).length ∧
      (m.2.write layout level).toList.length ≤ (memberText layout level m).length := by
  have := length_lt_quote m.1
  unfold memberText
  simp only [List.length_append]
  omega

theorem length_membersTail_le (layout : Layout) (level : ℕ) (ms : List (String × Json)) :
    ms.length ≤ (membersTail layout level ms).length ∧
      ∀ m ∈ ms,
        (memberText layout (level + 1) m).length ≤ (membersTail layout level ms).length := by
  induction ms with
  | nil => simp
  | cons m ms ih =>
    have := ih.1
    rw [membersTail_cons]
    simp only [List.length_cons, List.length_append, List.mem_cons, forall_eq_or_imp]
    refine ⟨by omega, by omega, fun m hm => ?_⟩
    have := ih.2 m hm
    omega

theorem length_objectTail_le (layout : Layout) (level : ℕ) (ms : List (String × Json)) :
    ms.length ≤ (objectTail layout level ms).length ∧
      ∀ m ∈ ms, (memberText layout (level + 1) m).length ≤ (objectTail layout level ms).length := by
  cases ms with
  | nil => simp
  | cons m ms =>
    have := length_memberText layout (level + 1) m
    obtain ⟨length, parts⟩ := length_membersTail_le layout level ms
    rw [objectTail]
    simp only [List.length_cons, List.length_append, List.mem_cons, forall_eq_or_imp]
    refine ⟨by omega, by omega, fun m hm => ?_⟩
    have := parts m hm
    omega

end Json

end BlockBoard
