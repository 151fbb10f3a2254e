import Mathlib.Algebra.Order.Ring.Int
import BlockBoard.Project.File
import BlockBoard.Proofs.Board.Changes
import BlockBoard.Proofs.Workspace.View

/-!
# Settings that are read

A reader of numbers takes words only, and what every member keeps holds behind the last one
(`Json.foldMembers_induction`). So the settings of a text are words (`Document.fits_of_parse`), and
a project makes of a board only what changes of the board can make of it.
-/

namespace BlockBoard

namespace Json

variable {limit : ℕ} {cs cs' : List Char}

theorem fits_of_wordValue {n : ℤ} (h : wordValue limit cs = .ok (n, cs')) : Word.Fits n := by
  obtain ⟨⟨j, rest⟩, -, h⟩ := bind_eq_ok_iff.1 h
  cases j with
  | int m =>
    dsimp only at h
    split_ifs at h with fits
    rw [Except.ok.injEq, Prod.mk.injEq] at h
    exact h.1 ▸ fits
  | _ => cases h

theorem foldMembers_induction {σ : Type} {rigor : Rigor} {strings : ℕ} {P : σ → Prop}
    {member : σ → String → List Char → Except Fault (σ × List Char)}
    (step : ∀ {s key cs s' cs'}, member s key cs = .ok (s', cs') → P s → P s')
    {first : Bool} {s s' : σ}
    (h : foldMembers rigor strings member limit first s cs = .ok (s', cs')) (hs : P s) : P s' := by
  induction limit generalizing first s cs with
  | zero => cases h
  | succ limit ih =>
    obtain ⟨turn, -, h⟩ := bind_eq_ok_iff.1 h
    cases turn with
    | done rest =>
      obtain ⟨rfl, -⟩ := Prod.mk.inj (Except.ok.inj h)
      exact hs
    | more key rest =>
      obtain ⟨⟨s₁, rest'⟩, read, h⟩ := bind_eq_ok_iff.1 h
      exact ih h (step read hs)

end Json

namespace Settings

variable {limit : ℕ} {cs cs' : List Char}

/-- The numbers are words. -/
structure Fits (s : Settings) : Prop where
  rows : Word.Fits s.rows
  cols : Word.Fits s.cols
  startRow : Word.Fits s.startRow
  startCol : Word.Fits s.startCol

theorem fits_default : ({} : Settings).Fits := by
  constructor <;> decide

theorem fits_of_readField {before : Option ℤ} {set : Option ℤ → Partial} {p : Partial}
    (h : readField limit before set cs = .ok (p, cs')) : ∃ n, Word.Fits n ∧ p = set (some n) := by
  unfold readField at h
  dsimp only at h
  split_ifs at h
  · cases h
  obtain ⟨rest, -, h⟩ := bind_eq_ok_iff.1 h
  obtain ⟨⟨n, rest'⟩, read, h⟩ := bind_eq_ok_iff.1 h
  exact ⟨n, Json.fits_of_wordValue read, (Prod.mk.inj (Except.ok.inj h)).1.symm⟩

theorem fits_of_member {p p' : Partial} {key : String}
    (h : member limit p key cs = .ok (p', cs')) (hp : p.complete.Fits) : p'.complete.Fits := by
  unfold member at h
  split at h
  · obtain ⟨n, fits, rfl⟩ := fits_of_readField h
    exact { hp with rows := fits }
  · obtain ⟨n, fits, rfl⟩ := fits_of_readField h
    exact { hp with cols := fits }
  · obtain ⟨n, fits, rfl⟩ := fits_of_readField h
    exact { hp with startRow := fits }
  · obtain ⟨n, fits, rfl⟩ := fits_of_readField h
    exact { hp with startCol := fits }
  · obtain ⟨rest, -, h⟩ := bind_eq_ok_iff.1 h
    obtain ⟨rest', -, h⟩ := bind_eq_ok_iff.1 h
    obtain ⟨rfl, -⟩ := Prod.mk.inj (Except.ok.inj h)
    exact hp

theorem fits_of_readNumbers {room : ℕ} {before ns : List ℤ}
    (h : readNumbers limit room before cs = .ok (ns, cs')) (hb : ∀ n ∈ before, Word.Fits n) :
    ∀ n ∈ ns, Word.Fits n := by
  induction room generalizing before cs with
  | zero =>
    obtain ⟨rest, -, h⟩ := bind_eq_ok_iff.1 h
    obtain ⟨rfl, -⟩ := Prod.mk.inj (Except.ok.inj h)
    simpa using hb
  | succ room ih =>
    obtain ⟨turn, -, h⟩ := bind_eq_ok_iff.1 h
    cases turn with
    | done rest =>
      obtain ⟨rfl, -⟩ := Prod.mk.inj (Except.ok.inj h)
      simpa using hb
    | more key rest =>
      obtain ⟨⟨n, rest'⟩, read, h⟩ := bind_eq_ok_iff.1 h
      exact ih h (List.forall_mem_cons.2 ⟨Json.fits_of_wordValue read, hb⟩)

theorem fits_ofNumbers {ns : List ℤ} (h : ∀ n ∈ ns, Word.Fits n) : (ofNumbers ns).Fits := by
  have item (i : ℕ) {d : ℤ} (hd : Word.Fits d) : Word.Fits (ns[i]?.getD d) := by
    cases found : ns[i]? with
    | none => exact hd
    | some n => exact h n (List.mem_of_getElem? found)
  exact ⟨item 0 fits_default.rows, item 1 fits_default.cols, item 2 fits_default.startRow,
    item 3 fits_default.startCol⟩

theorem fits_of_read {s : Settings} (h : read limit cs = .ok (s, cs')) : s.Fits := by
  unfold read at h
  split at h
  · obtain ⟨⟨ns, rest⟩, numbers, h⟩ := bind_eq_ok_iff.1 h
    obtain ⟨rfl, -⟩ := Prod.mk.inj (Except.ok.inj h)
    exact fits_ofNumbers (fits_of_readNumbers numbers fun _ => nofun)
  · obtain ⟨rest, -, h⟩ := bind_eq_ok_iff.1 h
    obtain ⟨⟨p, rest'⟩, members, h⟩ := bind_eq_ok_iff.1 h
    obtain ⟨rfl, -⟩ := Prod.mk.inj (Except.ok.inj h)
    exact Json.foldMembers_induction (P := fun p => p.complete.Fits) fits_of_member members
      fits_default

theorem fits_of_readOption {s? : Option Settings} (h : readOption limit cs = .ok (s?, cs')) :
    ∀ s ∈ s?, s.Fits := by
  unfold readOption at h
  split at h
  · obtain ⟨rest, -, h⟩ := bind_eq_ok_iff.1 h
    obtain ⟨rfl, -⟩ := Prod.mk.inj (Except.ok.inj h)
    nofun
  · obtain ⟨⟨s, rest⟩, read, h⟩ := bind_eq_ok_iff.1 h
    obtain ⟨rfl, -⟩ := Prod.mk.inj (Except.ok.inj h)
    rintro _ ⟨⟩
    exact fits_of_read read

end Settings

namespace Document

variable {limit : ℕ} {cs cs' : List Char}

theorem fits_of_member {p p' : Partial} {key : String}
    (h : member limit p key cs = .ok (p', cs')) (hp : ∀ s ∈ p.complete.settings, s.Fits) :
    ∀ s ∈ p'.complete.settings, s.Fits := by
  unfold member at h
  split at h
  · dsimp only at h
    split_ifs at h
    · cases h
    obtain ⟨rest, -, h⟩ := bind_eq_ok_iff.1 h
    obtain ⟨⟨blocks, rest'⟩, -, h⟩ := bind_eq_ok_iff.1 h
    obtain ⟨rfl, -⟩ := Prod.mk.inj (Except.ok.inj h)
    exact hp
  · dsimp only at h
    split_ifs at h
    · cases h
    obtain ⟨rest, -, h⟩ := bind_eq_ok_iff.1 h
    obtain ⟨⟨s?, rest'⟩, read, h⟩ := bind_eq_ok_iff.1 h
    obtain ⟨rfl, -⟩ := Prod.mk.inj (Except.ok.inj h)
    exact Settings.fits_of_readOption read
  · obtain ⟨rest, -, h⟩ := bind_eq_ok_iff.1 h
    obtain ⟨rest', -, h⟩ := bind_eq_ok_iff.1 h
    obtain ⟨rfl, -⟩ := Prod.mk.inj (Except.ok.inj h)
    exact hp

theorem fits_of_readSecond {blocks : List (List Node)} {d : Document}
    (h : readSecond limit blocks cs = .ok (d, cs')) : ∀ s ∈ d.settings, s.Fits := by
  obtain ⟨turn, -, h⟩ := bind_eq_ok_iff.1 h
  cases turn with
  | done rest =>
    obtain ⟨rfl, -⟩ := Prod.mk.inj (Except.ok.inj h)
    nofun
  | more key rest =>
    obtain ⟨⟨s?, rest'⟩, read, h⟩ := bind_eq_ok_iff.1 h
    obtain ⟨rest'', -, h⟩ := bind_eq_ok_iff.1 h
    obtain ⟨rfl, -⟩ := Prod.mk.inj (Except.ok.inj h)
    exact Settings.fits_of_readOption read

theorem fits_of_read {d : Document} (h : read limit cs = .ok (d, cs')) :
    ∀ s ∈ d.settings, s.Fits := by
  unfold read at h
  split at h
  · obtain ⟨turn, -, h⟩ := bind_eq_ok_iff.1 h
    cases turn with
    | done rest =>
      obtain ⟨rfl, -⟩ := Prod.mk.inj (Except.ok.inj h)
      nofun
    | more key rest =>
      obtain ⟨⟨blocks, rest'⟩, -, h⟩ := bind_eq_ok_iff.1 h
      exact fits_of_readSecond h
  · obtain ⟨rest, -, h⟩ := bind_eq_ok_iff.1 h
    obtain ⟨⟨p, rest'⟩, members, h⟩ := bind_eq_ok_iff.1 h
    obtain ⟨rfl, -⟩ := Prod.mk.inj (Except.ok.inj h)
    exact Json.foldMembers_induction (P := fun p => ∀ s ∈ p.complete.settings, s.Fits)
      fits_of_member members nofun

/-- Settings in a text are words. -/
theorem fits_of_parse {text : String} {d : Document} (h : parse text = .ok d) :
    ∀ s ∈ d.settings, s.Fits := by
  obtain ⟨⟨d, rest⟩, read, h⟩ := bind_eq_ok_iff.1 h
  dsimp only at h
  split_ifs at h
  obtain rfl := Except.ok.inj h
  exact fits_of_read read

end Document

/-! ### Projects -/

namespace Project

variable {p : Project} {disk : Disk} {path : String}

/-- A file is read, parsed and built, and each of the three can fail. -/
theorem loadFile_eq (disk : Disk) (path : String) :
    loadFile disk path =
      match disk.readText path with
      | .error cause => .error (.unreachable path cause)
      | .ok text =>
        match Document.parse text with
        | .error fault => .error (.unloadable (.unreadable fault))
        | .ok d =>
          match d.build with
          | .error cause => .error (.unloadable (.misplaced cause))
          | .ok ws => .ok ⟨ws, d.settings.getD {}⟩ := by
  unfold loadFile
  cases disk.readText path with
  | error cause => rfl
  | ok text =>
    dsimp only [Except.mapError, ok_bind]
    rw [load_eq]
    cases Document.parse text with
    | error fault => rfl
    | ok d => cases built : d.build <;> simp only [built]

theorem exists_document_of_loadFile (h : loadFile disk path = .ok p) :
    ∃ text d, disk.readText path = .ok text ∧ Document.parse text = .ok d ∧
      d.build = .ok p.workspace ∧ p.settings = d.settings.getD {} := by
  rw [loadFile_eq] at h
  split at h <;> try cases h
  split at h <;> try cases h
  split at h <;> cases h
  exact ⟨_, _, ‹_›, ‹_›, ‹_›, rfl⟩

theorem fits_of_loadFile (h : loadFile disk path = .ok p) : p.settings.Fits := by
  obtain ⟨text, d, -, parsed, -, settings⟩ := exists_document_of_loadFile h
  rw [settings]
  cases given : d.settings with
  | none => exact Settings.fits_default
  | some s => exact Document.fits_of_parse parsed s given

theorem reachable_board (h : loadFile disk path = .ok p) {b : Board} (hb : b.Reachable) :
    (p.board b).Reachable :=
  have fits := fits_of_loadFile h
  hb.change (c := .settings p.settings) ⟨fits.rows, fits.cols⟩

end Project

end BlockBoard
