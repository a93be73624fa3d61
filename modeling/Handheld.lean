import Handheld.Cli.Session
import Handheld.Files.Volume
import Handheld.Keypad.Shared
import Handheld.Link.Cable
import Handheld.Main
import Handheld.Proofs.BudgetOverflow
import Handheld.Proofs.BusChanges
import Handheld.Proofs.BusReads
import Handheld.Proofs.CableTransfers
import Handheld.Proofs.CarryChains
import Handheld.Proofs.CartridgeClock
import Handheld.Proofs.CartridgeLoading
import Handheld.Proofs.CheckedDrawing
import Handheld.Proofs.ClockSnapshot
import Handheld.Proofs.ClockTime
import Handheld.Proofs.ControlHistory
import Handheld.Proofs.CycleAccounts
import Handheld.Proofs.DecimalArithmetic
import Handheld.Proofs.DelayedEnable
import Handheld.Proofs.ExternalRam
import Handheld.Proofs.FrameBudget
import Handheld.Proofs.FrameCounts
import Handheld.Proofs.FrameHandOff
import Handheld.Proofs.FrameLimit
import Handheld.Proofs.HandlerEntry
import Handheld.Proofs.HardwareOrder
import Handheld.Proofs.Histories
import Handheld.Proofs.IllegalOpcodes
import Handheld.Proofs.InstructionEffects
import Handheld.Proofs.InstructionLengths
import Handheld.Proofs.InstructionStores
import Handheld.Proofs.InterruptFlags
import Handheld.Proofs.KeyHistory
import Handheld.Proofs.LinePosition
import Handheld.Proofs.LostPartner
import Handheld.Proofs.MachineRanges
import Handheld.Proofs.ModeOrder
import Handheld.Proofs.Observers
import Handheld.Proofs.PendingRequests
import Handheld.Proofs.PictureReads
import Handheld.Proofs.PictureRuns
import Handheld.Proofs.PixelLaw
import Handheld.Proofs.RomWindows
import Handheld.Proofs.ScanlineTiming
import Handheld.Proofs.Scrolling
import Handheld.Proofs.SerialCalls
import Handheld.Proofs.SerialTiming
import Handheld.Proofs.SpriteCopy
import Handheld.Proofs.StackDiscipline
import Handheld.Proofs.StatusRequests
import Handheld.Proofs.StepOutcomes
import Handheld.Proofs.TimerDrift
import Handheld.Proofs.TimerPeriods
import Handheld.Proofs.TimerSteps
import Handheld.Proofs.WaitingTime
import Handheld.Proofs.WholePictures
import Handheld.Proofs.WordSums
import Handheld.Window
