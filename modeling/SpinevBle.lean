import SpinevBle.Lib.Transition
import SpinevBle.Lib.Interaction
import SpinevBle.Lib.Arrivals
import SpinevBle.Lib.Debounce
import SpinevBle.Lib.Asyncio
import SpinevBle.Lib.Hex
import SpinevBle.Lib.Inevitable
import SpinevBle.Lib.Rounding
import SpinevBle.Const
import SpinevBle.Exceptions
import SpinevBle.Protocol.Float
import SpinevBle.Protocol.Frame
import SpinevBle.Protocol.Records
import SpinevBle.Protocol.Text
import SpinevBle.Protocol.Alarms
import SpinevBle.Protocol.Codec
import SpinevBle.Protocol.FloatCodec
import SpinevBle.Protocol.Chunks
import SpinevBle.Protocol.Sessions
import SpinevBle.Charger.Program
import SpinevBle.Charger.Machine
import SpinevBle.Charger.Steps
import SpinevBle.Charger.Consistent
import SpinevBle.Charger.Changes
import SpinevBle.Charger.Matching
import SpinevBle.Charger.Cancellation
import SpinevBle.Charger.Lifecycle
import SpinevBle.Charger.Readings
import SpinevBle.Charger.Rest
import SpinevBle.Charger.Sends
import SpinevBle.Charger.Overlap
import SpinevBle.Charger.Blocks
import SpinevBle.Charger.Calls
import SpinevBle.Charger.Order
import SpinevBle.Charger.Traces
import SpinevBle.Charger.Commit
import SpinevBle.Charger.Drop
import SpinevBle.Charger.History
import SpinevBle.Charger.Confirmation
import SpinevBle.Charger.Methods
import SpinevBle.Charger.Refusals
import SpinevBle.Charger.Promises
import SpinevBle.Charger.Answers
import SpinevBle.Charger.Echoes
import SpinevBle.Charger.Arguments
import SpinevBle.Charger.Failures
import SpinevBle.Charger.Guard
import SpinevBle.Charger.Wifi
import SpinevBle.Charger.Passwords
import SpinevBle.Charger.Control
import SpinevBle.Charger.Writes
import SpinevBle.Charger.Collection
import SpinevBle.Charger.IdleGap
import SpinevBle.Transports.Ble
import SpinevBle.Transports.Slot
import SpinevBle.Transports.Listening
import SpinevBle.Transports.Reports
import SpinevBle.Transports.Ocpp
import SpinevBle.Transports.Replies
import SpinevBle.Transports.Exchange
import SpinevBle.Transports.Agreement
import SpinevBle.Link.Tunnel
import SpinevBle.Link.FromBelow
import SpinevBle.Link.Script
import SpinevBle.Link.Line
import SpinevBle.Link.Standing
import SpinevBle.Link.Calls
import SpinevBle.Link.Course
import SpinevBle.Link.Joined
import SpinevBle.Link.Transfers
import SpinevBle.Link.TunnelLine
import SpinevBle.Link.Streams
import SpinevBle.Link.Classes
import SpinevBle.Link.Carried
import SpinevBle.Link.Effects
import SpinevBle.Link.AlarmBanks
import SpinevBle.Link.AlarmWords
import SpinevBle.Link.Settings
import SpinevBle.Link.Record
import SpinevBle.Lib.IpAddress
import SpinevBle.Lib.Serial
import SpinevBle.Link.Station
import SpinevBle.Link.Shared
import SpinevBle.Link.TunnelStation
import SpinevBle.Link.Bluetooth
import SpinevBle.Cli.Command
import SpinevBle.Cli.Ocpp
