import BlockBoard.Board.Basic
import Std.Data.TreeSet

/-!
# Portable bitmaps

A board is written in the smallest of three plain text bitmap formats that shows its colors exactly:
P1 when white and one other color are in use, P2 when all colors are among seven grays, and P3
otherwise. White is always in use, for the cells that were never painted. A color that cannot be
decoded is written as black, and reported.
-/

namespace BlockBoard

/-- The three formats. -/
inductive BitmapFormat where
  /-- Two colors. -/
  | bits
  /-- Levels of gray. -/
  | grays
  /-- Red, green and blue. -/
  | colors
deriving DecidableEq, Repr

namespace BitmapFormat

/-- The first line of a bitmap of this format. -/
def magic : BitmapFormat → String
  | bits => "P1"
  | grays => "P2"
  | colors => "P3"

/-- The ending of the name of a file of this format. -/
def extension : BitmapFormat → String
  | bits => "pbm"
  | grays => "pgm"
  | colors => "ppm"

/-- The name of a file of this format. -/
def fileName (format : BitmapFormat) (base : String) : String :=
  base ++ "." ++ format.extension

end BitmapFormat

/-- The grays that P2 can show, with their levels. -/
def grayLevels : List (String × Nat) :=
  [("#000000", 0), ("#333333", 1), ("#666666", 2), ("#999999", 3), ("#c0c0c0", 4), ("#cccccc", 5),
    ("#ffffff", 6)]

/-- The highest level of gray. -/
def grayMax : Nat := 6

/-- The level of a gray. -/
def grayLevel? (color : String) : Option Nat :=
  grayLevels.lookup color

/-- A set of colors, in the order of their code points. -/
abbrev Palette := Std.TreeSet String

namespace Palette

/-- The smallest format that shows the colors exactly. Two colors are enough for P1 only if one of
them is white. -/
def format (colors : Palette) : BitmapFormat :=
  if colors.size = 2 ∧ colors.contains Color.white then .bits
  else if colors.toList.all fun color => (grayLevel? color).isSome then .grays
  else .colors

/-- The first color that is not white, which is the ink of a P1 bitmap. -/
def ink (colors : Palette) : String :=
  (colors.toList.find? (· ≠ Color.white)).getD Color.black

end Palette

/-- A bitmap and its format. -/
structure Bitmap where
  format : BitmapFormat
  text : String
deriving DecidableEq, Repr

namespace Bitmap

/-- The three numbers that stand for a color; black if it cannot be decoded. -/
def triple (color : String) : String :=
  let rgb := (Color.toRgb? color).getD ⟨0, 0, 0⟩
  s!"{rgb.red} {rgb.green} {rgb.blue}"

/-- The report on a color that cannot be decoded. -/
def undecodedRecord (color : String) : Record :=
  ⟨.warn, .bitmap, s!"cannot decode color '{color}', exporting as black"⟩

/-- The report on a bitmap that was written to a file. -/
def writtenRecord (bitmap : Bitmap) (path : String) : Record :=
  ⟨.info, .bitmap, s!"exported {bitmap.format.magic} bitmap to {path}"⟩

end Bitmap

namespace Scene

/-- The colors in use: white and the colors of the painted cells. -/
def palette (s : Scene) : Palette :=
  s.fills.values.foldl (fun colors color => colors.insert (Color.normalize color))
    (Std.TreeSet.ofList [Color.white])

/-- The color a cell is exported in. -/
def exportColor (s : Scene) (cell : Cell) : String :=
  ((s.colorAt? cell).map Color.normalize).getD Color.white

/-- What stands for a cell in a bitmap of the given format. -/
def bitmapEntry (s : Scene) (format : BitmapFormat) (ink : String) (cell : Cell) : String :=
  match format with
  | .bits => if s.exportColor cell = ink then "1" else "0"
  | .grays => toString ((grayLevel? (s.exportColor cell)).getD grayMax)
  | .colors => Bitmap.triple (s.exportColor cell)

/-- The lines before the cells: the format, the dimensions, and the greatest number of an entry. -/
def bitmapHead (s : Scene) (format : BitmapFormat) : String :=
  format.magic ++ "\n" ++ toString s.cols ++ " " ++ toString s.rows ++ "\n"
    ++ match format with
      | .bits => ""
      | .grays => toString grayMax ++ "\n"
      | .colors => "255\n"

/-- The line for one row of cells. -/
def bitmapRow (s : Scene) (format : BitmapFormat) (ink : String) (row : Nat) : String :=
  " ".intercalate ((List.range s.cols).map fun col => s.bitmapEntry format ink ⟨row, col⟩) ++ "\n"

/-- The board as a bitmap in the smallest adequate format. -/
def bitmap (s : Scene) : Bitmap :=
  let colors := s.palette
  let format := colors.format
  let ink := colors.ink
  ⟨format, s.bitmapHead format
    ++ String.join ((List.range s.rows).map fun row => s.bitmapRow format ink row)⟩

/-- The reports on exporting a board: one for each painted cell whose color cannot be decoded, if
the format shows colors. -/
def bitmapRecords (s : Scene) : List Record :=
  match s.palette.format with
  | .colors =>
    ((s.fills.values.map Color.normalize).filter fun color => (Color.toRgb? color).isNone).map
      Bitmap.undecodedRecord
  | _ => []

end Scene

end BlockBoard
