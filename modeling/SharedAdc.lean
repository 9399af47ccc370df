import SharedAdc.Bench.Burst
import SharedAdc.Dashboard.Rig
import SharedAdc.Firmware.Device
import SharedAdc.Proofs.Callers.Conduct
import SharedAdc.Proofs.History
import SharedAdc.Proofs.Callers.Standing
import SharedAdc.Proofs.Program.Rules
import SharedAdc.Simulator.Rig
import SharedAdc.Vendor.Rig
import SharedAdc.Proofs.Callers.Operations
import SharedAdc.Proofs.Callers.Scene
import SharedAdc.Proofs.Callers.Run
import SharedAdc.Proofs.Callers.Session
import SharedAdc.Proofs.Callers.Exclusion
import SharedAdc.Proofs.Callers.Isolation
import SharedAdc.Proofs.Callers.Solo
import SharedAdc.Proofs.Simulator.Calls
import SharedAdc.Proofs.Simulator.Continuous
import SharedAdc.Proofs.Simulator.OneShot
import SharedAdc.Proofs.Simulator.Recovery
import SharedAdc.Proofs.Callers.Progress
import SharedAdc.Proofs.Accounts.Basic
import SharedAdc.Proofs.Accounts.Ending
import SharedAdc.Proofs.Accounts.Holding
import SharedAdc.Proofs.Accounts.OneShot
import SharedAdc.Proofs.Accounts.Continuous
import SharedAdc.Proofs.Accounts.Calibration
import SharedAdc.Proofs.Accounts.Commands
import SharedAdc.Proofs.Accounts.Run
import SharedAdc.Proofs.Accounts.Steps
import SharedAdc.Proofs.Accounts.Rejection
import SharedAdc.Proofs.Accounts.Rollback
import SharedAdc.Proofs.Accounts.Admission
import SharedAdc.Proofs.Accounts.Routing
import SharedAdc.Proofs.Callers.Following
import SharedAdc.Proofs.Frame.Codec
import SharedAdc.Proofs.Frame.Averages
import SharedAdc.Proofs.Tenure.Basic
import SharedAdc.Proofs.Tenure.Holding
import SharedAdc.Proofs.Tenure.OneShot
import SharedAdc.Proofs.Tenure.Commands
import SharedAdc.Proofs.Tenure.Run
import SharedAdc.Proofs.Tenure.Grants
import SharedAdc.Proofs.Tenure.Reads
import SharedAdc.Proofs.Program.Larger
import SharedAdc.Proofs.Watch.Basic
import SharedAdc.Proofs.Watch.Holding
import SharedAdc.Proofs.Watch.OneShot
import SharedAdc.Proofs.Watch.Continuous
import SharedAdc.Proofs.Watch.Commands
import SharedAdc.Proofs.Crew.Basic
import SharedAdc.Proofs.Crew.Watched
import SharedAdc.Proofs.Crew.Keeps
import SharedAdc.Proofs.Crew.Alone
import SharedAdc.Proofs.Dashboard.Desk
import SharedAdc.Proofs.Dashboard.Voltages
import SharedAdc.Proofs.Dashboard.Sessions
import SharedAdc.Proofs.Dashboard.Readings
import SharedAdc.Proofs.Dashboard.Calibration
import SharedAdc.Proofs.Firmware.Board
import SharedAdc.Proofs.Firmware.Cycles
import SharedAdc.Proofs.Simulator.Bench
import SharedAdc.Proofs.Simulator.Stream
import SharedAdc.Proofs.Callers.Closing
import SharedAdc.Proofs.Simulator.Producer
import SharedAdc.Proofs.Simulator.Codes
import SharedAdc.Proofs.Errands.Basic
import SharedAdc.Proofs.Errands.Commands
import SharedAdc.Proofs.Errands.Run
import SharedAdc.Proofs.Simulator.Frames
import SharedAdc.Proofs.Callers.Turns
import SharedAdc.Proofs.Simulator.Protocol
import SharedAdc.Proofs.Callers.Phases
import SharedAdc.Proofs.Callers.Starting
import SharedAdc.Proofs.Accounts.Bursts
import SharedAdc.Proofs.Frame.Wrapping
import SharedAdc.Proofs.Frame.Repeats
import SharedAdc.Proofs.Vendor.Ledger
import SharedAdc.Proofs.Vendor.Handles
import SharedAdc.Proofs.Errands.Sizes
import SharedAdc.Proofs.Contexts.Scopes
import SharedAdc.Proofs.Contexts.Calibrations
import SharedAdc.Proofs.Simulator.Faults
import SharedAdc.Proofs.Reservation
import SharedAdc.Proofs.Dashboard.LogPane
import SharedAdc.Proofs.Callers.Submitting
import SharedAdc.Proofs.Simulator.Random
import SharedAdc.Proofs.Simulator.Accuracy
import SharedAdc.Proofs.Simulator.Measuring
import SharedAdc.Proofs.Mask
import SharedAdc.Proofs.Simulator.Setup
import SharedAdc.Proofs.Simulator.Rig
