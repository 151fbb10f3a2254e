import BlockBoard.Main
import BlockBoard.Proofs.Project.RoundTrip
import BlockBoard.Proofs.Run.Cancel
import BlockBoard.Proofs.Run.Meaning
import BlockBoard.Proofs.Run.Visits
import BlockBoard.Proofs.Run.Observed
import BlockBoard.Proofs.Json.Tokens
import BlockBoard.Proofs.Json.Values
import BlockBoard.Proofs.Project.Text
import BlockBoard.Proofs.Project.Readable
import BlockBoard.Proofs.Project.Words
import BlockBoard.Proofs.App.Reachable
import BlockBoard.Proofs.App.Load
import BlockBoard.Proofs.Project.Refusals
import BlockBoard.Proofs.Project.Rebuild
import BlockBoard.Proofs.Project.Resave
import BlockBoard.Proofs.Board.Colors
import BlockBoard.Proofs.Board.Decoding
import BlockBoard.Proofs.Board.Raster
import BlockBoard.Proofs.Board.Bitmap
import BlockBoard.Proofs.Board.Watched
import BlockBoard.Proofs.Pane.Outline
import BlockBoard.Proofs.Pane.Listing
import BlockBoard.Proofs.Pane.Effects
import BlockBoard.Proofs.Pane.Pixels
import BlockBoard.Proofs.Pane.Scroll
import BlockBoard.Proofs.Program.Elsewhere
import BlockBoard.Proofs.Project.Inverse
import BlockBoard.Proofs.Board.Moves
import BlockBoard.Proofs.Workspace.Outcomes
import BlockBoard.Proofs.Workspace.Joins
import BlockBoard.Proofs.Project.Placement
import BlockBoard.Proofs.App.Preset
import BlockBoard.Proofs.Run.Sliders
import BlockBoard.Proofs.Workspace.Names
