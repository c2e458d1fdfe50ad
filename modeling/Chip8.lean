import Chip8.Config.Printer
import Chip8.Config.Reader
import Chip8.Headless
import Chip8.Instr.Text
import Chip8.Machine.Host
import Chip8.Machine.Snapshot
import Chip8.Main
import Chip8.Proofs.CallStack
import Chip8.Proofs.KeyWait
import Chip8.Proofs.Glyph
import Chip8.Proofs.Board
import Chip8.Proofs.Failure
import Chip8.Proofs.Observation
import Chip8.Proofs.TwelveBits
import Chip8.Proofs.Decay
import Chip8.Proofs.Draws
import Chip8.Proofs.Reload
import Chip8.Proofs.Effects
import Chip8.Proofs.Interleaving
import Chip8.Proofs.Checked.Safety
import Chip8.Proofs.Progress
import Chip8.Proofs.Course
import Chip8.Proofs.Latch
import Chip8.Proofs.Log
import Chip8.Proofs.Stream
import Chip8.Proofs.Config.Truncation
import Chip8.Proofs.Config.Verdicts
import Chip8.Proofs.Config.Positional
import Chip8.Proofs.Headless
import Chip8.Proofs.Overlap
import Chip8.Proofs.Polling
import Chip8.Proofs.Redraw
import Chip8.Proofs.Stores
import Chip8.Proofs.Drawing
import Chip8.Proofs.Arithmetic
import Chip8.Proofs.Clock
import Chip8.Proofs.Pieces
import Chip8.Proofs.Views
import Chip8.Proofs.Encoding
import Chip8.Proofs.Decoding
