import Chip8.Beeper
import Chip8.FileTree.Standard
import Chip8.HostKey
import Chip8.Main
import Chip8.Op.Pattern
import Chip8.Scheduler.Fair
import Chip8.Tone
import Chip8.Proofs.Run
import Chip8.Proofs.Decoding
import Chip8.Proofs.Atomicity
import Chip8.Proofs.StepFault
import Chip8.Proofs.Bitmap
import Chip8.Proofs.Invariant
import Chip8.Proofs.Calls
import Chip8.Proofs.Timing
import Chip8.Proofs.Loading
import Chip8.Proofs.Assembly
import Chip8.Proofs.Scheduler.Moves
import Chip8.Proofs.Scheduler.Lifecycle
import Chip8.Proofs.FaultLog
import Chip8.Proofs.Scheduler.WholeTicks
import Chip8.Proofs.Stuck
import Chip8.Proofs.Scheduler.FaultCell
import Chip8.Proofs.Absorbing
import Chip8.Proofs.Scheduler.FaultProtocol
import Chip8.Proofs.Painting
import Chip8.Proofs.History
import Chip8.Proofs.RandomStream
import Chip8.Proofs.Dialects
import Chip8.Proofs.Footprint
import Chip8.Proofs.Flags
import Chip8.Proofs.Transfer
import Chip8.Proofs.NextInstruction
import Chip8.Proofs.Countdown
import Chip8.Proofs.KeyWait
import Chip8.Proofs.Scheduler.Alike
import Chip8.Proofs.Scheduler.FailedStart
import Chip8.Proofs.Shown
import Chip8.Proofs.Scheduler.Announced
import Chip8.Proofs.SoundFrames
import Chip8.Proofs.MemoryHistory
import Chip8.Proofs.Scheduler.LastLevel
import Chip8.Proofs.Strict.Parts
import Chip8.Proofs.Strict.Engine
import Chip8.Proofs.Precision
import Chip8.Proofs.Scheduler.ReportedRate
import Chip8.Proofs.CommandLine.Spelling
import Chip8.Proofs.CommandLine.ReadBack
