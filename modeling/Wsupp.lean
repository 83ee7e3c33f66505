import Wsupp.Reactive.Prog
import Wsupp.Reactive.View
import Wsupp.Reactive.Machine
import Wsupp.Reactive.Moves
import Wsupp.Reactive.Simulation
import Wsupp.Memory
import Wsupp.Bytes
import Wsupp.Standards.SecureHash
import Wsupp.Standards.KeyedHash
import Wsupp.Wire.Frames
import Wsupp.Wire.Socket
import Wsupp.Wire.Attrs
import Wsupp.Wire.Elements
import Wsupp.Nlusctl.Message
import Wsupp.Nlusctl.Get
import Wsupp.Nlusctl.Put
import Wsupp.Nlusctl.Receive
import Wsupp.Crypto.Sha1
import Wsupp.Crypto.Aes128
import Wsupp.Crypto.Pbkdf2
import Wsupp.Crypto
import Wsupp.Config
import Wsupp.Text.Lines
import Wsupp.Psk.Lines
import Wsupp.Psk.Content
import Wsupp.Psk.Entries
import Wsupp.Psk.Edits
import Wsupp.Psk.Store
import Wsupp.Psk.Cache
import Wsupp.Psk.Known
import Wsupp.Choice.First
import Wsupp.Choice.Last
import Wsupp.State
import Wsupp.NetlinkCommands
import Wsupp.StationIes
import Wsupp.Slots
import Wsupp.Apsel
import Wsupp.Eapol
import Wsupp.NetlinkEvents
import Wsupp.Cntrl
import Wsupp.Conn
import Wsupp.Requests
import Wsupp.Status
import Wsupp.Wifi
import Wsupp.Main
import Wsupp.Control.Connection
import Wsupp.Control.Negotiation
import Wsupp.Control.Netlink
import Wsupp.Control.Step
import Wsupp.Control.Session
import Wsupp.Control.Link
import Wsupp.Control.Turns
import Wsupp.Control.Tables
import Wsupp.Control.TableSteps
import Wsupp.Control.TableEvents
import Wsupp.Control.TableShape
import Wsupp.Control.Descriptors
import Wsupp.Control.Choosing
import Wsupp.Safety.KeyFreshness
import Wsupp.Safety.ReplayCounters
import Wsupp.Safety.Installation
import Wsupp.Safety.Modes
import Wsupp.Safety.Progress
import Wsupp.Safety.AuthStates
import Wsupp.Safety.Takeover
import Wsupp.Safety.InFlight
import Wsupp.Safety.RfkillOrder
import Wsupp.Safety.ScanRequests
import Wsupp.Safety.Tuning
import Wsupp.Safety.StaleSlots
import Wsupp.Safety.FlagCoherence
import Wsupp.Safety.ControlStream
import Wsupp.Safety.MessageStream
import Wsupp.Safety.MessageReads
import Wsupp.Safety.ControlRoundTrip
import Wsupp.Safety.StatusMessage
import Wsupp.Safety.StatusDelivery
import Wsupp.Safety.Replies
import Wsupp.Safety.FailedSends
import Wsupp.Safety.NetlinkOverflow
import Wsupp.Safety.NetlinkStream
import Wsupp.Safety.FamilyGroups
import Wsupp.Nl.Attr
import Wsupp.Nl.Puts
import Wsupp.Nl.Receive
import Wsupp.Safety.NetlinkRoundTrip
import Wsupp.Safety.NetlinkReads
import Wsupp.Crypto.Inverse
import Wsupp.Crypto.Hashing
import Wsupp.Crypto.KeyWrap
import Wsupp.Safety.KeyTransport
import Wsupp.Safety.KeyData
import Wsupp.Safety.KeyDerivation
import Wsupp.Safety.Integrity
import Wsupp.Safety.Passphrases
import Wsupp.Safety.OutgoingFrames
import Wsupp.Safety.ScanSlots
import Wsupp.Safety.PollTable
import Wsupp.Safety.Selection
import Wsupp.Safety.RepeatedRequests
import Wsupp.Safety.Attempts
import Wsupp.Safety.Pursuit
import Wsupp.Safety.FileEdits
import Wsupp.Safety.FileFormats
import Wsupp.Safety.StationElements
import Wsupp.Safety.ElementReads
import Wsupp.Safety.PacketReads
import Wsupp.NetlinkInput
import Wsupp.Refinement.NetlinkDecoding
import Wsupp.Service
import Wsupp.Refinement.Service
import Wsupp.Reactive.Paths
import Wsupp.Control.Changes
import Wsupp.Safety.Sizes
import Wsupp.NetlinkOutput
import Wsupp.Safety.NetlinkCommands
import Wsupp.Choice.Sorted
import Wsupp.Reports
import Wsupp.Client
import Wsupp.Safety.ClientMessages
import Wsupp.Safety.ClientTexts
import Wsupp.Reactive.Outputs
import Wsupp.Safety.ClientSessions
import Wsupp.Safety.ClientRuns
