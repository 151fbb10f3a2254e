import BlockBoard.Screen.Style

/-!
# The colors of the panes
-/

namespace BlockBoard

namespace Theme

/-- Text. -/
def text : Tint := .of 205 214 244

/-- The position of the piece, and the badge of an idle machine. -/
def primary : Tint := .of 137 180 250

/-- The arrow beside the running block, and the badge of a running machine. -/
def secondary : Tint := .of 250 179 135

/-- What matters less. -/
def comment : Tint := .of 108 112 134

/-- The speed. -/
def success : Tint := .of 166 227 161

/-- A direction that is not known, and the badge of a stopped machine. -/
def error : Tint := .of 243 139 168

/-- The frame of the program while it runs. -/
def focusedBorder : Tint := .of 249 226 175

/-- Any other frame. -/
def border : Tint := .of 108 112 134

/-- Behind the running block, and behind the status bar. -/
def currentLine : Tint := .of 50 50 70

/-- The keyword of a start block. -/
def startBlock : Tint := .of 249 226 175

/-- The keyword of a move block. -/
def moveBlock : Tint := .of 137 180 250

/-- The keyword of a fill block. -/
def fillBlock : Tint := .of 166 227 161

/-- The keyword of a repeat block. -/
def repeatBlock : Tint := .of 203 166 247

/-- The piece. -/
def piece : Tint := .of 30 144 255

/-- A cell that was never painted. -/
def emptyCell : Tint := .of 255 255 255

/-- The start, where the piece is elsewhere. -/
def startMark : Tint := .of 153 153 153

end Theme

end BlockBoard
