import DeviceSession.Demo
import DeviceSession.Error
import DeviceSession.Main
import DeviceSession.Proofs.Framing.Reassembly
import DeviceSession.Proofs.Run.DriverStep
import DeviceSession.Settings.Formats
import DeviceSession.Simulation.Bench
import DeviceSession.Simulation.Session
import DeviceSession.Simulation.Trial
import DeviceSession.Proofs.Run.Erasure
import DeviceSession.Proofs.Run.Requests
import DeviceSession.Proofs.Run.Wire
import DeviceSession.Proofs.Run.Traffic
import DeviceSession.Proofs.Run.Discipline
import DeviceSession.Proofs.Framing.Verdict
import DeviceSession.Proofs.Run.Inbox
import DeviceSession.Proofs.Run.Provenance
import DeviceSession.Proofs.Framing.Loss
import DeviceSession.Proofs.Run.Inputs
import DeviceSession.Proofs.Run.Budget
import DeviceSession.Proofs.Run.Attempts
import DeviceSession.Proofs.Run.Closing
import DeviceSession.Proofs.Action.Stopping
import DeviceSession.Proofs.Action.OpenApp
import DeviceSession.Proofs.Action.Charts
import DeviceSession.Proofs.Action.Withdrawal
import DeviceSession.Proofs.Exchange.SizeFrames
import DeviceSession.Proofs.Faultless.EndToEnd
import DeviceSession.Proofs.Link.Lifetime
import DeviceSession.Proofs.Action.Readers
import DeviceSession.Proofs.Run.Telling
import DeviceSession.Proofs.Run.Ownership
import DeviceSession.Proofs.Run.Sending
import DeviceSession.Proofs.Apdu.ReadBack
import DeviceSession.Proofs.Framing.WireForms
import DeviceSession.Proofs.Action.Showing
import DeviceSession.Proofs.Action.Cancelling
import DeviceSession.Proofs.Action.Handles
import DeviceSession.Proofs.Action.Lineage
import DeviceSession.Proofs.Framing.Restart
import DeviceSession.Proofs.Settings.Validity
import DeviceSession.Proofs.Link.Conveyance
import DeviceSession.Proofs.Action.Retrying
import DeviceSession.Proofs.Action.Shielding
import DeviceSession.Proofs.Exchange.Retries
import DeviceSession.Proofs.Action.Unlocking
import DeviceSession.Proofs.Apdu.AllOrNothing
import DeviceSession.Proofs.Apdu.Positions
import DeviceSession.Proofs.Command.Descriptions
import DeviceSession.Proofs.Framing.Cutting
import DeviceSession.Proofs.Device.Leaving
import DeviceSession.Proofs.Settings.Storage
import DeviceSession.Proofs.Link.Pauses
import DeviceSession.Proofs.Apdu.HexFields
import DeviceSession.Proofs.Link.Refusals
