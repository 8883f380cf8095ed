import DeviceSuite.Artifact.Rush
import DeviceSuite.Condition
import DeviceSuite.Device.Conduct
import DeviceSuite.Device.Observed
import DeviceSuite.DeviceError
import DeviceSuite.Event
import DeviceSuite.Graph.Build
import DeviceSuite.Graph.Navigator
import DeviceSuite.Proofs.Run.Route
import DeviceSuite.Proofs.Session.Completion
import DeviceSuite.Proofs.Session.Payloads
import DeviceSuite.Registry
import DeviceSuite.Run.Lead
import DeviceSuite.Run.Tour
import DeviceSuite.Run.World
import DeviceSuite.Session.Basic
import DeviceSuite.Settings
import DeviceSuite.Store
import DeviceSuite.Task.Poll
import DeviceSuite.Task.Pool
import DeviceSuite.Task.Retry
import DeviceSuite.Task.Script
import DeviceSuite.Task.Service
import DeviceSuite.Proofs.Session.Stopping
import DeviceSuite.Proofs.Session.Recordings
import DeviceSuite.Proofs.Session.Attendance
import DeviceSuite.Proofs.Session.Helpers
import DeviceSuite.Proofs.Session.Solo
import DeviceSuite.Proofs.Graph.Visits
import DeviceSuite.Proofs.Artifact.Saves
import DeviceSuite.Proofs.Codec.Input
import DeviceSuite.Proofs.Codec.Output
import DeviceSuite.Proofs.Task.Attempts
import DeviceSuite.Proofs.Task.Cadence
import DeviceSuite.Proofs.Run.Exertion
import DeviceSuite.Proofs.Run.Logbook
import DeviceSuite.Proofs.Run.Options
import DeviceSuite.Proofs.Run.Branching
import DeviceSuite.Proofs.Graph.Limits
import DeviceSuite.Proofs.Run.Order
import DeviceSuite.Proofs.Run.Timekeeping
import DeviceSuite.Proofs.Run.Dispatch
import DeviceSuite.Proofs.Session.Pacing
import DeviceSuite.Proofs.Run.Readers
import DeviceSuite.Proofs.Run.Conditions
import DeviceSuite.Proofs.Session.Requests
import DeviceSuite.Proofs.DeviceError
import DeviceSuite.Proofs.Run.Smooth
import DeviceSuite.Proofs.Session.Album
import DeviceSuite.Proofs.Session.Words
