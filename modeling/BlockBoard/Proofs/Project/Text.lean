import BlockBoard.Project.Read
import BlockBoard.Proofs.Json.Values
import BlockBoard.Proofs.Project.Build

/-!
# Reading written documents

The text of a document is read as the document, if at most 127 arrays and objects are open at a
time in it and its numbers are words (`Document.parse_write`). The readers of its parts count on
from the depth at which these stand: nodes of stacks are read if at most `depthInside + 1` are open
in them.
-/

namespace BlockBoard

open Json (Layout Reads ReadsMember Fault)

variable {layout : Layout} {level limit : ℕ}

/-- A member that must not have been given before. -/
theorem Json.Reads.once {α β : Type} {read : List Char → Except Fault (α × List Char)}
    {text : List Char} {result : Except Fault α} (h : Reads read text result) (layout : Layout)
    (given : Bool) (f : α → β) :
    Reads (fun cs => do
      if given then .error .shape
      let (a, cs) ← read (← Json.colon cs)
      .ok (f a, cs)) (layout.colon.toList ++ text)
      (if given then .error .shape else result.map f) := by
  intro blanks rest blank ends
  cases given with
  | true => rfl
  | false =>
    have read := (h.colon layout).map f blanks rest blank ends
    dsimp only at read
    rw [bind_assoc] at read
    exact read

/-! ### Nodes as JSON values -/

/-- The count is a word. -/
def Kind.Fits : Kind → Prop
  | .repetition times => Word.Fits times
  | .start | .move _ | .fill _ => True

instance : (kind : Kind) → Decidable kind.Fits
  | .repetition times => inferInstanceAs (Decidable (Word.Fits times))
  | .start | .move _ | .fill _ => inferInstanceAs (Decidable True)

namespace Node

/-- The members behind the name. -/
def fields : Node → List (String × Json)
  | start _ body => [("type", .text "start"), ("body", .array (listToJson body))]
  | move _ direction => [("type", .text "move"), ("direction", .text direction)]
  | fill _ color => [("type", .text "fill"), ("color", .text color)]
  | repetition _ times body =>
    [("type", .text "repeat"), ("times", .int times), ("body", .array (listToJson body))]

theorem toJson_eq (node : Node) :
    node.toJson = .object (("id", .text node.id) :: node.fields) := by
  cases node <;> rw [toJson] <;> rfl

theorem listToJson_eq_map (nodes : List Node) : listToJson nodes = nodes.map toJson := by
  induction nodes with
  | nil => rw [listToJson, List.map_nil]
  | cons node nodes ih => rw [listToJson, ih, List.map_cons]

theorem ne_id_of_mem_fields {node : Node} : ∀ m ∈ node.fields, m.1 ≠ "id" := by
  cases node <;> simp [fields]

theorem faithful_toJson_iff {node : Node} :
    node.toJson.Faithful ↔ node.kind.Fits ∧ Json.ListFaithful (listToJson node.body) := by
  cases node <;> simp [toJson, kind, body, Kind.Fits, Json.Faithful, Json.MembersFaithful,
    listToJson, Json.ListFaithful]

theorem ofJson?_of_body {node : Node} (fits : node.kind.Fits)
    (body : listOfJson? (listToJson node.body) = some node.body) :
    ofJson? node.toJson = some node := by
  cases node with
  | start id nodes =>
    rw [Node.body] at body
    simp [toJson, ofJson?, fieldsOf, fieldOf, ofFields?, Field.once?, NodeType.ofField?,
      Field.nodes?, body]
  | move id direction =>
    simp [toJson, ofJson?, fieldsOf, fieldOf, ofFields?, Field.once?, NodeType.ofField?,
      Field.text?]
  | fill id color =>
    simp [toJson, ofJson?, fieldsOf, fieldOf, ofFields?, Field.once?, NodeType.ofField?,
      Field.text?]
  | repetition id times nodes =>
    rw [Node.body] at body
    have fits : Word.Fits times := fits
    simp [toJson, ofJson?, fieldsOf, fieldOf, ofFields?, Field.once?, NodeType.ofField?,
      Field.nodes?, Field.word?, body, fits]

theorem listOfJson?_listToJson {nodes : List Node}
    (faithful : Json.ListFaithful (listToJson nodes)) :
    listOfJson? (listToJson nodes) = some nodes := by
  induction nodes using nodes_induction with
  | nil => rw [listToJson, listOfJson?]
  | cons node nodes ihBody ihRest =>
    rw [listToJson, Json.ListFaithful, faithful_toJson_iff] at faithful
    obtain ⟨⟨fits, inside⟩, after⟩ := faithful
    rw [listToJson, listOfJson?, ofJson?_of_body fits (ihBody inside), ihRest after]

theorem ofJson?_toJson {node : Node} (faithful : node.toJson.Faithful) :
    ofJson? node.toJson = some node := by
  obtain ⟨fits, inside⟩ := faithful_toJson_iff.1 faithful
  exact ofJson?_of_body fits (listOfJson?_listToJson inside)

/-! ### Reading nodes -/

/-- What a member adds to the fields before it. -/
def withMember (before : List (String × Field)) (m : String × Json) :
    Except Fault (List (String × Field)) :=
  if m.1 = "id" ∧ before.any fun field => field.1 = "id" then .error .shape
  else if m.2.depth ≤ depthInside then .ok ((m.1, fieldOf m.2) :: before)
  else .error .malformed

theorem foldlM_withMember {ms : List (String × Json)} (others : ∀ m ∈ ms, m.1 ≠ "id")
    (before : List (String × Field)) :
    ms.foldlM withMember before =
      if ∀ m ∈ ms, m.2.depth ≤ depthInside then .ok ((fieldsOf ms).reverse ++ before)
      else .error .malformed := by
  induction ms generalizing before with
  | nil => simp [fieldsOf]
  | cons m ms ih =>
    have key : m.1 ≠ "id" := others m List.mem_cons_self
    rw [List.foldlM_cons, withMember, if_neg fun both => key both.1]
    by_cases shallow : m.2.depth ≤ depthInside
    · rw [if_pos shallow, ok_bind, ih fun m hm => others m (List.mem_cons_of_mem _ hm)]
      simp only [List.forall_mem_cons, shallow, true_and, fieldsOf, List.reverse_cons,
        List.append_assoc, List.singleton_append]
    · rw [if_neg shallow, if_neg fun all => shallow (all m List.mem_cons_self)]
      rfl

theorem reads_member {m : String × Json} (faithful : m.2.Faithful)
    (name : m.1 = "id" → ∃ s, m.2 = .text s)
    (short : (Json.memberText layout level m).length < limit) (before : List (String × Field)) :
    ReadsMember limit (member limit) layout level before m (withMember before m) := by
  obtain ⟨key, j⟩ := m
  obtain ⟨keyShort, valueShort⟩ := Json.length_memberText layout level (key, j)
  refine ⟨keyShort.trans short, ?_⟩
  dsimp only at faithful name valueShort ⊢
  have valueLess := valueShort.trans_lt short
  by_cases isId : key = "id"
  · subst isId
    obtain ⟨s, rfl⟩ := name rfl
    by_cases second : before.any fun field => field.1 = "id"
    · rw [withMember, if_pos ⟨rfl, second⟩]
      intro blanks rest _ _
      simp [member, second]
    · rw [Json.write] at valueLess ⊢
      have read := ((Json.reads_textValue s ((Json.length_lt_quote s).trans valueLess)).map
        Field.text).member layout before "id"
      have flat : (Json.text s).depth ≤ depthInside := Nat.zero_le _
      rw [withMember, if_neg fun both => second both.2, if_pos flat]
      intro blanks rest blank ends
      rw [member, if_pos rfl, if_neg second]
      exact read blanks rest blank ends
  · have read := ((Json.reads_value faithful layout level valueLess depthInside).map
      fieldOf).member layout before key
    rw [withMember, if_neg fun both => isId both.1]
    intro blanks rest blank ends
    rw [member, if_neg isId]
    refine (read blanks rest blank ends).trans ?_
    split_ifs <;> rfl

theorem depth_toJson_le_iff {node : Node} :
    node.toJson.depth ≤ depthInside + 1 ↔ ∀ m ∈ node.fields, m.2.depth ≤ depthInside := by
  rw [toJson_eq, Json.depth, Nat.add_le_add_iff_right, Json.membersDepth_le_iff,
    List.forall_mem_cons]
  exact and_iff_right (Nat.zero_le _)

theorem reads_read {node : Node} (faithful : node.toJson.Faithful)
    (short : (node.toJson.write layout level).toList.length < limit) :
    Reads (read limit) (node.toJson.write layout level).toList
      (if node.toJson.depth ≤ depthInside + 1 then .ok node else .error .malformed) := by
  have found := ofJson?_toJson faithful
  simp only [depth_toJson_le_iff]
  rw [toJson_eq] at faithful short found ⊢
  have members (before : List (String × Field)) (m : String × Json)
      (hm : m ∈ ("id", .text node.id) :: node.fields)
      (short : (Json.memberText layout (level + 1) m).length < limit) :
      ReadsMember limit (member limit) layout (level + 1) before m (withMember before m) := by
    refine reads_member (Json.membersFaithful_iff.1 faithful m hm) (fun isId => ?_) short before
    rcases List.mem_cons.1 hm with rfl | hm
    · exact ⟨_, rfl⟩
    · exact absurd isId (ne_id_of_mem_fields m hm)
  -- Only the name could be given twice, and it is the first member.
  have first : withMember [] ("id", .text node.id) = .ok [("id", .text node.id)] := by
    simp [withMember, Json.depth, fieldOf]
  intro blanks rest blank ends
  have fold := Json.foldMembers_object members short [] rest
  rw [List.foldlM_cons, first, ok_bind, foldlM_withMember ne_id_of_mem_fields] at fold
  unfold read
  rw [Json.toList_write_object, List.cons_append, Json.openWith_append (by decide) blank, ok_bind,
    fold]
  split_ifs
  · rw [Json.map_ok, ok_bind]
    rw [ofJson?, fieldsOf, fieldOf] at found
    simp [found]
  · rfl

theorem reads_readStack {stack : List Node} (faithful : ∀ node ∈ stack, node.toJson.Faithful)
    (short : ((Json.array (listToJson stack)).write layout level).toList.length < limit) :
    Reads (readStack limit) ((Json.array (listToJson stack)).write layout level).toList
      (if (Json.array (listToJson stack)).depth ≤ depthInside + 2 then .ok stack
        else .error .malformed) := by
  rw [listToJson_eq_map] at short ⊢
  exact Json.reads_array (fun node hn short => reads_read (faithful node hn) short) short

theorem reads_readStacks {lists : List (List Node)}
    (faithful : ∀ stack ∈ lists, ∀ node ∈ stack, node.toJson.Faithful)
    (short : ((Json.array (lists.map fun stack => .array (listToJson stack))).write layout
      level).toList.length < limit) :
    Reads (readStacks limit)
      ((Json.array (lists.map fun stack => .array (listToJson stack))).write layout level).toList
      (if (Json.array (lists.map fun stack => .array (listToJson stack))).depth ≤ depthInside + 3
        then .ok lists else .error .malformed) :=
  Json.reads_array (fun stack hs short => reads_readStack (faithful stack hs) short) short

end Node

/-! ### Reading settings -/

namespace Settings

/-- What a number adds to settings that are given in part. -/
def Partial.withMember (p : Partial) : String × Json → Except Fault Partial
  | ("rows", .int n) => if p.rows.isSome then .error .shape else .ok { p with rows := some n }
  | ("cols", .int n) => if p.cols.isSome then .error .shape else .ok { p with cols := some n }
  | ("startrow", .int n) =>
    if p.startRow.isSome then .error .shape else .ok { p with startRow := some n }
  | ("startcol", .int n) =>
    if p.startCol.isSome then .error .shape else .ok { p with startCol := some n }
  | _ => .error .shape

theorem reads_readField {n : ℤ} (fits : Word.Fits n) (before : Option ℤ)
    (set : Option ℤ → Partial) :
    Reads (readField limit before set) (layout.colon.toList ++ (toString n).toList)
      (if before.isSome then .error .shape else .ok (set (some n))) :=
  (Json.reads_wordValue fits).once layout before.isSome fun n => set (some n)

/-- The members of the object. -/
def members (s : Settings) : List (String × Json) :=
  [("rows", .int s.rows), ("cols", .int s.cols), ("startrow", .int s.startRow),
    ("startcol", .int s.startCol)]

theorem toJson_eq (s : Settings) : s.toJson = .object s.members := rfl

theorem reads_member {p : Partial} {s : Settings} {m : String × Json} (hm : m ∈ s.members)
    (faithful : m.2.Faithful) (short : (Json.memberText layout level m).length < limit) :
    ReadsMember limit (member limit) layout level p m (p.withMember m) := by
  refine ⟨(Json.length_memberText layout level m).1.trans short, ?_⟩
  simp only [members, List.mem_cons, List.not_mem_nil, or_false] at hm
  rcases hm with rfl | rfl | rfl | rfl <;> rw [Json.write]
  · exact reads_readField faithful p.rows fun n => { p with rows := n }
  · exact reads_readField faithful p.cols fun n => { p with cols := n }
  · exact reads_readField faithful p.startRow fun n => { p with startRow := n }
  · exact reads_readField faithful p.startCol fun n => { p with startCol := n }

theorem read_object {cs cs' : List Char} (h : Json.skipBlanks cs = '\x7b' :: cs') :
    read limit cs = (do
      let (p, cs) ← Json.foldMembers .strict limit (member limit) limit true {} cs'
      .ok (p.complete, cs)) := by
  unfold read
  rw [h]
  rfl

theorem readOption_object {cs cs' : List Char} (h : Json.skipBlanks cs = '\x7b' :: cs') :
    readOption limit cs = (do
      let (p, cs) ← Json.foldMembers .strict limit (member limit) limit true {} cs'
      .ok (some p.complete, cs)) := by
  have again : Json.skipBlanks ('\x7b' :: cs') = '\x7b' :: cs' := rfl
  have opened : readOption limit cs =
      read limit ('\x7b' :: cs') >>= fun r => .ok (some r.1, r.2) := by
    unfold readOption
    rw [h]
    rfl
  rw [opened, read_object again, bind_assoc]
  rfl

theorem reads_readOption {s : Settings} (faithful : s.toJson.Faithful)
    (short : (s.toJson.write layout level).toList.length < limit) :
    Reads (readOption limit) (s.toJson.write layout level).toList (.ok (some s)) := by
  intro blanks rest blank ends
  have start := Json.skipBlanks_write layout level s.toJson blank rest
  rw [toJson_eq] at faithful short start ⊢
  have fold := Json.foldMembers_object (fun p m hm short =>
    reads_member (p := p) hm (Json.membersFaithful_iff.1 faithful m hm) short) short {} rest
  have all : s.members.foldlM Partial.withMember {} =
      .ok ⟨some s.rows, some s.cols, some s.startRow, some s.startCol⟩ := rfl
  rw [Json.toList_write_object, List.cons_append] at start ⊢
  rw [readOption_object start, fold, all]
  rfl

end Settings

/-! ### Reading documents -/

namespace Document

/-- The stacks as a JSON value. -/
def blocksJson (d : Document) : Json :=
  .array (d.blocks.map fun stack => .array (Node.listToJson stack))

/-- The members of the object. -/
def members (d : Document) : List (String × Json) :=
  ("blocks", d.blocksJson) :: d.settings.toList.map fun s => ("settings", s.toJson)

theorem toJson_eq (d : Document) : d.toJson = .object d.members := rfl

theorem mem_members {d : Document} {m : String × Json} :
    m ∈ d.members ↔ m = ("blocks", d.blocksJson) ∨ ∃ s, d.settings = some s ∧
      m = ("settings", s.toJson) := by
  cases h : d.settings <;> simp [members, h]

/-- What a member of the text of a document adds to a document that is given in part. -/
def withMember (d : Document) (p : Partial) (m : String × Json) : Except Fault Partial :=
  if m.1 = "blocks" then
    if p.blocks.isSome then .error .shape
    else if m.2.depth ≤ Node.depthInside + 3 then .ok { p with blocks := some d.blocks }
    else .error .malformed
  else if p.settings.isSome then .error .shape
  else .ok { p with settings := some d.settings }

theorem faithful_node {d : Document} (faithful : d.blocksJson.Faithful) :
    ∀ stack ∈ d.blocks, ∀ node ∈ stack, node.toJson.Faithful := by
  intro stack hs node hn
  have items := Json.listFaithful_iff.1 faithful _ (List.mem_map_of_mem hs)
  rw [Json.Faithful, Node.listToJson_eq_map, Json.listFaithful_iff] at items
  exact items _ (List.mem_map_of_mem hn)

theorem reads_member {d : Document} {p : Partial} {m : String × Json} (hm : m ∈ d.members)
    (faithful : m.2.Faithful) (short : (Json.memberText layout level m).length < limit) :
    ReadsMember limit (member limit) layout level p m (d.withMember p m) := by
  obtain ⟨keyLess, valueLe⟩ := Json.length_memberText layout level m
  refine ⟨keyLess.trans short, ?_⟩
  have short := valueLe.trans_lt short
  rcases mem_members.1 hm with rfl | ⟨s, given, rfl⟩
  · have read := (Node.reads_readStacks (faithful_node faithful) short).once layout p.blocks.isSome
      fun blocks => { p with blocks := some blocks }
    have result : d.withMember p ("blocks", d.blocksJson) =
        if p.blocks.isSome then .error .shape
        else (if d.blocksJson.depth ≤ Node.depthInside + 3 then Except.ok d.blocks
          else .error .malformed).map fun blocks => { p with blocks := some blocks } := by
      rw [withMember, if_pos rfl]
      split_ifs <;> rfl
    rw [result]
    exact read
  · have read := (Settings.reads_readOption faithful short).once layout p.settings.isSome
      fun settings => { p with settings := some settings }
    have result : d.withMember p ("settings", s.toJson) = _ := if_neg (by simp)
    rw [result, given]
    exact read

theorem read_object {cs cs' : List Char} (h : Json.skipBlanks cs = '\x7b' :: cs') :
    read limit cs = (do
      let (p, cs) ← Json.foldMembers .strict limit (member limit) limit true {} cs'
      .ok (p.complete, cs)) := by
  unfold read
  rw [h]
  rfl

theorem depth_toJson_le_iff {d : Document} :
    d.toJson.depth ≤ Node.depthInside + 4 ↔ d.blocksJson.depth ≤ Node.depthInside + 3 := by
  rw [toJson_eq, Json.depth, Nat.add_le_add_iff_right, Json.membersDepth_le_iff]
  constructor
  · exact fun h => h _ (mem_members.2 (.inl rfl))
  · intro h m hm
    rcases mem_members.1 hm with rfl | ⟨s, -, rfl⟩
    · exact h
    · have flat : s.toJson.depth = 1 := rfl
      rw [flat]
      decide

theorem foldlM_withMember {d : Document} :
    (d.members.foldlM d.withMember {}).map Partial.complete =
      if d.toJson.depth ≤ Node.depthInside + 4 then .ok d else .error .malformed := by
  simp only [depth_toJson_le_iff]
  have first : d.withMember {} ("blocks", d.blocksJson) =
      if d.blocksJson.depth ≤ Node.depthInside + 3 then .ok { blocks := some d.blocks }
      else .error .malformed := rfl
  rw [members, List.foldlM_cons, first]
  split_ifs
  · obtain ⟨blocks, _ | s⟩ := d <;> rfl
  · rfl

theorem reads_read {d : Document} (faithful : d.toJson.Faithful)
    (short : (d.toJson.write layout level).toList.length < limit) :
    Reads (read limit) (d.toJson.write layout level).toList
      (if d.toJson.depth ≤ Node.depthInside + 4 then .ok d else .error .malformed) := by
  intro blanks rest blank ends
  have start := Json.skipBlanks_write layout level d.toJson blank rest
  have all := d.foldlM_withMember
  rw [toJson_eq] at faithful short start ⊢
  have fold := Json.foldMembers_object (fun p m hm short =>
    reads_member (p := p) hm (Json.membersFaithful_iff.1 faithful m hm) short) short {} rest
  rw [Json.toList_write_object, List.cons_append] at start ⊢
  rw [read_object start, fold, ← toJson_eq, ← all]
  cases d.members.foldlM d.withMember {} <;> rfl

/-- The text of a document is read as the document, unless more than 127 arrays and objects are open
at a time in it. -/
theorem parse_write {d : Document} (faithful : d.toJson.Faithful) (layout : Layout) :
    parse (d.toJson.write layout 0) =
      if d.toJson.depth ≤ 127 then .ok d else .error .malformed :=
  Json.whole_eq (reads_read faithful (Nat.lt_succ_self _))

end Document

end BlockBoard
