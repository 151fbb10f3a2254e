import BlockBoard.Proofs.Board.Colors
import BlockBoard.Proofs.Pane.Outline
import BlockBoard.Proofs.Program.Actions
import BlockBoard.Proofs.Run.Meaning

/-!
# What a line says its step does

The line of a move or fill block is made of the field of the block, and so is its step, which takes
another way to the board. Both come to the same: the color that a line shows is the color that its
step leaves in the cell under the piece, and the direction that it shows is that in which its step
moves the piece (`Reachable.outline_shows_steps`). A block that lies too deep has no line, though,
even if it runs (`exists_hidden_step`).
-/

namespace BlockBoard

open Workspace

/-! ### What steps do -/

namespace Board

variable {b : Board}

theorem Sound.advance_eq (h : b.Sound) (d : Direction) :
    b.advance d = draw { b with piece := b.piece.neighbor b.rows b.cols d } := by
  rw [← piece_advance h.piece_inside]
  rfl

theorem piece_advance_standard_inj : ∀ d d' : Direction,
    (standard.advance d).piece = (standard.advance d').piece → d = d' := by
  intro d d'
  cases d <;> cases d' <;> decide

end Board

namespace Step

/-- What is made of each board that there can be by executing the step, whatever the host does. -/
def Makes (step : Step) (f : Board → Board) : Prop :=
  ∀ (σ : Type) (p : Host σ) (s : σ) (m : Machine), m.board.Reachable →
    (m.execute p step s).2.1.board = f m.board

theorem makes_iff {step : Step} {f : Board → Board} :
    step.Makes f ↔ ∀ b : Board, b.Reachable → b.act step = f b := by
  have board {σ : Type} (p : Host σ) (s : σ) (m : Machine) :
      (m.execute p step s).2.1.board = m.board.act step := by
    rw [Machine.execute_eq]
    obtain ⟨answer, speed, s', paused⟩ := Machine.exists_pause_eq p
      { m with
        board := m.board.act step
        highlighted := step.mark m.highlighted
        executed := m.executed + 1 } (step.wait m.speed.delay) s
    rw [paused]
  constructor
  · intro makes b reachable
    rw [← makes Unit Host.silent () { Machine.standard with board := b } reachable, board]
  · intro acts σ p s m reachable
    rw [board, acts _ reachable]

theorem makes_fill (color : String) : (Step.fill color).Makes fun b =>
    .draw { b with fills := b.fills.insert b.piece (Color.normalize color) } :=
  makes_iff.2 fun _ reachable => reachable.sound.fillPiece_eq color

/-- A step that may move the piece moves it in a direction only if it has this direction. -/
theorem makes_move_iff {direction : Option Direction} {d : Direction} :
    ((Step.move direction).Makes fun b =>
      .draw { b with piece := b.piece.neighbor b.rows b.cols d }) ↔ direction = some d := by
  rw [makes_iff]
  constructor
  · intro acts
    have moved := acts _ Board.reachable_standard
    rw [← Board.reachable_standard.sound.advance_eq] at moved
    cases direction with
    | none => exact absurd (congrArg (·.redraws) moved) Nat.zero_ne_one
    | some d' =>
      have same : d' = d := Board.piece_advance_standard_inj _ _ (congrArg (·.piece) moved)
      rw [same]
  · rintro rfl b reachable
    exact reachable.sound.advance_eq d

theorem makes_id_iff {direction : Option Direction} :
    (Step.move direction).Makes id ↔ direction = none := by
  rw [makes_iff]
  constructor
  · intro acts
    cases direction with
    | none => rfl
    | some d =>
      have same := acts _ Board.reachable_standard
      exact absurd (congrArg (·.redraws) same) Nat.one_ne_zero
  · rintro rfl b -
    rfl

end Step

/-! ### What lines show -/

/-- The texts of a line behind its arrow and its indent. -/
def Line.words (l : Line) : List String :=
  (l.spans.drop 2).map Span.text

/-- The color in which the second of these texts is written. -/
def Line.sample? (l : Line) : Option Tint :=
  l.spans[3]?.bind fun span => span.style.fg

namespace Kind

/-- The color that is shown is the one that is painted. -/
theorem paintedColor_eq (field : String) :
    paintedColor field = Color.normalize (fillColor field) := by
  have default : Color.normalize Color.defaultFill = Color.defaultFill :=
    Color.Spelled.normalize_eq_self (by decide)
  unfold paintedColor fillColor
  split_ifs
  · exact default.symm
  · rfl

theorem swatch_eq (color : String) :
    swatch color = ⟨if (Color.toRgb? color).isSome then " ■" else " □",
      { fg := (Color.toRgb? color).map Tint.rgb }⟩ := by
  unfold swatch
  cases Color.toRgb? color <;> rfl

/-- The line of a direction tells it, and is not that of a field that names none. -/
theorem text_directionSpan_eq_iff {field : String} {d : Direction} :
    (directionSpan field).text = s!" {d.arrow} {d.name}" ↔ Direction.ofText? field = some d := by
  have apart : ∀ d e : Direction, s!" {e.arrow} {e.name}" = s!" {d.arrow} {d.name}" ↔
      some e = some d := by
    intro d e
    cases d <;> cases e <;> decide
  unfold directionSpan
  cases Direction.ofText? field with
  | some e => exact apart d e
  | none =>
    refine ⟨fun same => ?_, nofun⟩
    have second : (" ? " ++ field).toList[1]? = s!" {d.arrow} {d.name}".toList[1]? :=
      congrArg (fun text => text.toList[1]?) same
    have mark : (" ? " ++ field).toList[1]? = some '?' := by
      rw [String.toList_append]
      rfl
    rw [mark] at second
    cases d <;> exact absurd second (by decide)

end Kind

theorem OutlineRow.words_line (depth : ℕ) (detached : Bool) (b : Block)
    (highlighted : Option BlockId) :
    ((block depth detached b).line highlighted).words = b.kind.spans.map Span.text := rfl

/-- The line of a fill block shows a color and whether it can be decoded, and this is the color that
the step of the block puts in the cell under the piece. -/
def Line.ShowsFill (l : Line) (step : Step) : Prop :=
  ∃ color,
    l.words = ["fill", if (Color.toRgb? color).isSome then " ■" else " □", " " ++ color] ∧
    l.sample? = (Color.toRgb? color).map Tint.rgb ∧
    step.Makes fun b => .draw { b with fills := b.fills.insert b.piece color }

/-- The line of a move block shows a direction if the step of the block moves the piece one cell in
this direction, and only then. If the step moves it in no direction, the line shows the field behind
a question mark, and the step does nothing. -/
def Line.ShowsMove (l : Line) (step : Step) (field : String) : Prop :=
  (∀ d : Direction, l.words = ["move", s!" {d.arrow} {d.name}"] ↔
    step.Makes fun b => .draw { b with piece := b.piece.neighbor b.rows b.cols d }) ∧
  ((∀ d : Direction,
      ¬ step.Makes fun b => .draw { b with piece := b.piece.neighbor b.rows b.cols d }) →
    l.words = ["move", " ? " ++ field] ∧ step.Makes id)

namespace OutlineRow

variable {depth : ℕ} {detached : Bool} {b : Block} {field : String}

theorem showsFill_line (hb : b.kind = .fill field) (highlighted : Option BlockId) :
    ((block depth detached b).line highlighted).ShowsFill (.fill (fillColor field)) := by
  refine ⟨Kind.paintedColor field, ?_, ?_, ?_⟩
  · rw [words_line, hb, Kind.spans, Kind.swatch_eq]
    rfl
  · show (b.kind.spans[1]?.bind fun span => span.style.fg) = _
    rw [hb, Kind.spans, Kind.swatch_eq]
    rfl
  · rw [Kind.paintedColor_eq]
    exact Step.makes_fill _

theorem showsMove_line (hb : b.kind = .move field) (highlighted : Option BlockId) :
    ((block depth detached b).line highlighted).ShowsMove (.move (Direction.ofText? field))
      field := by
  have words : ((block depth detached b).line highlighted).words =
      ["move", (Kind.directionSpan field).text] := by
    rw [words_line, hb]
    rfl
  rw [Line.ShowsMove, words]
  constructor
  · intro d
    rw [Step.makes_move_iff, ← Kind.text_directionSpan_eq_iff, List.cons_inj_right,
      List.singleton_inj]
  · intro still
    have unknown : Direction.ofText? field = none :=
      Option.eq_none_iff_forall_ne_some.2 fun d named => still d (Step.makes_move_iff.2 named)
    refine ⟨?_, Step.makes_id_iff.2 unknown⟩
    rw [Kind.directionSpan, unknown]
    rfl

end OutlineRow

/-! ### The steps of a program -/

theorem Block.kind_of_steps {b : Block} {step : Step} (h : b.steps[1]? = some step) :
    (∃ field, b.kind = .fill field ∧ step = .fill (fillColor field)) ∨
      ∃ field, b.kind = .move field ∧ step = .move (Direction.ofText? field) := by
  unfold steps expand at h
  cases kind : b.kind with
  | start => simp [kind] at h
  | repetition times => simp [kind] at h
  | fill field =>
    rw [kind] at h
    exact Or.inl ⟨field, rfl, (Option.some.inj h).symm⟩
  | move field =>
    rw [kind] at h
    exact Or.inr ⟨field, rfl, (Option.some.inj h).symm⟩

namespace Workspace

variable {ws : Workspace}

/-- The step behind a mark is the action of the block that is marked. -/
theorem Coherent.exists_of_mark (c : ws.Coherent) {compiled : Compilation}
    (hc : ws.compile? = some compiled) {k : ℕ} {id : BlockId} {step : Step}
    (marks : compiled.steps.toList[k]? = some (.highlight id))
    (next : compiled.steps.toList[k + 1]? = some step) :
    ∃ b, ws.get? id = some b ∧ b.steps[1]? = some step := by
  obtain ⟨b, hb, first⟩ := exists_block_of_compile hc marks
  obtain ⟨b', hb', second⟩ := exists_block_of_compile hc next
  have mem : b ∈ ws.actions := List.mem_of_getElem? hb
  obtain ⟨action, isAction, steps⟩ := acts_of_mem_actions mem
  -- Of the three steps of a block only the first is a mark.
  have start : k % 3 = 0 ∧ b.id = id := by
    rw [steps] at first
    have cases : k % 3 = 0 ∨ k % 3 = 1 ∨ k % 3 = 2 := by omega
    rcases cases with at0 | at1 | at2
    · rw [at0] at first
      exact ⟨at0, Step.highlight.inj (Option.some.inj first)⟩
    · rw [at1] at first
      obtain rfl : action = .highlight id := Option.some.inj first
      exact isAction.elim
    · rw [at2] at first
      cases first
  have index : (k + 1) / 3 = k / 3 ∧ (k + 1) % 3 = 1 := by omega
  rw [index.1, hb] at hb'
  obtain rfl := Option.some.inj hb'
  rw [index.2] at second
  exact ⟨b, start.2 ▸ c.get?_of_mem_actions mem, second⟩

/-- A block that runs has a line, which shows what the step behind the mark of the block does: the
color that a fill block leaves in the cell, or the direction in which a move block moves the piece.
If the block lies at the last level of the program, it has none. -/
theorem Reachable.outline_shows_steps (h : ws.Reachable) {compiled : Compilation}
    (hc : ws.compile? = some compiled) {k : ℕ} {id : BlockId} {step : Step}
    (marks : compiled.steps.toList[k]? = some (.highlight id))
    (next : compiled.steps.toList[k + 1]? = some step) :
    ∃ n b, ws.Lies n id ∧ ws.get? id = some b ∧ n ≤ maxDepth + 1 ∧
      ((∃ field, b.kind = .fill field) ∨ ∃ field, b.kind = .move field) ∧
      (n ≤ maxDepth → ∃ i : ℕ, ws.outline[i]? = some (.block n false b) ∧
        ∀ highlighted, ∃ l, (ws.outlineLines highlighted)[i]? = some l ∧
          (∀ field, b.kind = .fill field → l.ShowsFill step) ∧
          ∀ field, b.kind = .move field → l.ShowsMove step field) ∧
      (n = maxDepth + 1 → ∀ row ∈ ws.outline, row.id? ≠ some id) := by
  have c := h.coherent
  obtain ⟨n, b, lies, hb, -, high, row⟩ :=
    c.exists_row_of_highlight hc (List.mem_of_getElem? marks)
  obtain ⟨b', hb', second⟩ := c.exists_of_mark hc marks next
  obtain rfl := Option.some.inj (hb.symm.trans hb')
  have kinds := Block.kind_of_steps second
  refine ⟨n, b, lies, hb, high, ?_, fun le => ?_, fun last => c.id?_ne_of_deep lies (by omega)⟩
  · exact kinds.imp (fun ⟨field, kind, _⟩ => ⟨field, kind⟩) fun ⟨field, kind, _⟩ => ⟨field, kind⟩
  · obtain ⟨i, hi⟩ := row le
    refine ⟨i, hi, fun highlighted => ⟨(OutlineRow.block n false b).line highlighted, ?_, ?_⟩⟩
    · rw [outlineLines, List.getElem?_map, hi]
      rfl
    · rcases kinds with ⟨field, kind, rfl⟩ | ⟨field, kind, rfl⟩
      · rw [kind]
        exact ⟨fun _ _ => OutlineRow.showsFill_line kind highlighted, nofun⟩
      · rw [kind]
        refine ⟨nofun, fun field' same => ?_⟩
        obtain rfl := Kind.move.inj same
        exact OutlineRow.showsMove_line kind highlighted

/-- The first step of `painter` that acts is that of its fill block. -/
theorem Reachable.outline_shows_steps_painter :
    painter.Reachable ∧ ∃ compiled l, painter.compile? = some compiled ∧
      compiled.steps.toList[0]? = some (.highlight "paint") ∧
      compiled.steps.toList[1]? = some (.fill "red") ∧
      l ∈ painter.outlineLines none ∧ l.ShowsFill (.fill "red") := by
  have reachable : painter.Reachable := ⟨_, Or.inr rfl⟩
  obtain ⟨compiled, hc, steps⟩ := exists_compile_painter
  have marks : compiled.steps.toList[0]? = some (.highlight "paint") := by
    rw [steps]
    rfl
  have next : compiled.steps.toList[0 + 1]? = some (.fill "red") := by
    rw [steps]
    rfl
  obtain ⟨n, b, lies, hb, -, -, row, -⟩ := reachable.outline_shows_steps hc marks next
  obtain rfl : n = 2 := by simpa using lies_painter lies
  obtain rfl := Option.some.inj (get?_painter_paint.symm.trans hb)
  obtain ⟨i, -, line⟩ := row (by decide)
  obtain ⟨l, hi, fill, -⟩ := line none
  exact ⟨reachable, compiled, l, hc, marks, next, List.mem_of_getElem? hi, fill "red" rfl⟩

/-- The fill block of the deep program paints the cell under the piece, but it has no line. -/
theorem exists_hidden_step :
    ∃ ws compiled, deep.build = .ok ws ∧ ws.Reachable ∧ ws.compile? = some compiled ∧
      compiled.steps.toList = [.highlight "blk0", .fill "red", .unhighlight "blk0"] ∧
      (∃ b field, ws.get? "blk0" = some b ∧ b.kind = .fill field) ∧
      (Step.fill "red").Makes
        (fun b => .draw { b with fills := b.fills.insert b.piece "#ff0000" }) ∧
      ∀ row ∈ ws.outline, row.id? ≠ some "blk0" := by
  obtain ⟨ws, start, built, hs, unfolds⟩ := exists_build_deep
  have reachable := reachable_of_build built
  have c := reachable.coherent
  obtain ⟨isTop, stored⟩ := c.id_mem_top_of_start? hs
  obtain ⟨compiled, hc, holds⟩ := c.compile_holds hs unfolds
  have name : generated 0 = "blk0" := by decide
  have steps := holds.toList_steps
  rw [flatten_nested, if_pos le_rfl, name] at steps
  have lies := unfolds.lies_nested c fun _ => (Lies.top isTop).of_body stored
  rw [name] at lies
  have isFill : ∃ b field, ws.get? "blk0" = some b ∧ b.kind = .fill field := by
    obtain ⟨b, hb, second⟩ := c.exists_of_mark hc (k := 0) (by rw [steps]; rfl) (by rw [steps]; rfl)
    rcases Block.kind_of_steps second with ⟨field, kind, -⟩ | ⟨field, -, same⟩
    · exact ⟨b, field, hb, kind⟩
    · cases same
  have red : Color.normalize "red" = "#ff0000" := by decide +kernel
  exact ⟨ws, compiled, built, reachable, hc, steps, isFill, red ▸ Step.makes_fill "red",
    c.id?_ne_of_deep lies (by decide)⟩

end Workspace

end BlockBoard
