import BlockBoard.Proofs.Project.Readable
import BlockBoard.Proofs.Project.Words

/-!
# Reading inverts writing

A document is made of texts and numbers of any size, and each is written as it is. A reader takes
words only, so the documents that can be read back are those whose counts and settings are words
(`Document.Fits`). Of these, each is read from its text, in either layout, as it was, unless more
than 127 arrays and objects are open at a time in it (`Document.parse_text_iff`).
-/

namespace BlockBoard

theorem Settings.faithful_toJson_iff {s : Settings} : s.toJson.Faithful ↔ s.Fits := by
  rw [toJson_eq, Json.Faithful, Json.membersFaithful_iff]
  simp only [members, List.forall_mem_cons, Json.Faithful]
  constructor
  · rintro ⟨rows, cols, startRow, startCol, -⟩
    exact ⟨rows, cols, startRow, startCol⟩
  · intro fits
    exact ⟨fits.rows, fits.cols, fits.startRow, fits.startCol, List.forall_mem_nil _⟩

namespace Document

/-- The counts and the settings are words. -/
structure Fits (d : Document) : Prop where
  counts : ∀ stack ∈ d.blocks, ∀ b ∈ listBlocks (listTrees stack), b.kind.Fits
  settings : ∀ s ∈ d.settings, s.Fits

theorem faithful_toJson_iff {d : Document} : d.toJson.Faithful ↔ d.Fits := by
  rw [toJson_eq, Json.Faithful, Json.membersFaithful_iff]
  constructor
  · intro faithful
    refine ⟨faithful_blocksJson_iff.1 (faithful _ (mem_members.2 (.inl rfl))), fun s hs => ?_⟩
    exact Settings.faithful_toJson_iff.1 (faithful _ (mem_members.2 (.inr ⟨s, hs, rfl⟩)))
  · intro fits m hm
    rcases mem_members.1 hm with rfl | ⟨s, hs, rfl⟩
    · exact faithful_blocksJson_iff.2 fits.counts
    · exact Settings.faithful_toJson_iff.2 (fits.settings s hs)

theorem parse_write_eq_ok_iff {d : Document} (fits : d.Fits) (layout : Json.Layout) :
    parse (d.toJson.write layout 0) = .ok d ↔ d.toJson.depth ≤ 127 := by
  rw [parse_write (faithful_toJson_iff.2 fits)]
  split_ifs with shallow
  · exact iff_of_true rfl shallow
  · exact iff_of_false nofun shallow

/-- A document of words is read from its text as the very same document, without blanks as well as
indented, exactly if at most 127 arrays and objects are open at a time in it. -/
theorem parse_text_iff {d : Document} (fits : d.Fits) :
    (parse d.toJson.compact = .ok d ↔ d.toJson.depth ≤ 127) ∧
      (parse d.toJson.pretty = .ok d ↔ d.toJson.depth ≤ 127) :=
  ⟨parse_write_eq_ok_iff fits .compact, parse_write_eq_ok_iff fits .indented⟩

/-- Names that have to be escaped, given twice or empty, numbers at both limits, directions and
colors that mean nothing, a start block in a body, and a stack without blocks. -/
def odd : Document where
  blocks :=
    [[.repetition "a\"\\\x7b\n\t\u0001" (-9223372036854775808)
        [.fill "" "\u007fé∀", .start "body" [.repetition "" 9223372036854775807 []]],
      .move "a\"\\\x7b\n\t\u0001" "null"], []]
  settings := some
    { rows := 9223372036854775807, cols := -9223372036854775808, startRow := 0, startCol := -1 }

theorem fits_odd : odd.Fits where
  counts := by decide
  settings := by
    rintro _ ⟨⟩
    constructor <;> decide

theorem parse_text_iff_odd :
    odd.Fits ∧ parse odd.toJson.compact = .ok odd ∧ parse odd.toJson.pretty = .ok odd := by
  have shallow : odd.toJson.depth ≤ 127 := by decide
  obtain ⟨compact, pretty⟩ := parse_text_iff fits_odd
  exact ⟨fits_odd, compact.2 shallow, pretty.2 shallow⟩

end Document

end BlockBoard
