import AmlService.Lib.Scan
import AmlService.Aml.Protocol
import AmlService.Aml.ProtocolScan
import AmlService.Aml.ParserStream
import AmlService.Core.State
import AmlService.Lib.Calendar
import AmlService.Lib.Effect
import AmlService.Lib.Json
import AmlService.Lib.CachedRecord
import AmlService.World
import AmlService.Aml.Transport
import AmlService.Aml.BuildRequest
import AmlService.Aml.Link
import AmlService.Aml.PolledReceive
import AmlService.Aml.ReceiveBounds
import AmlService.Core.Sweetdawn
import AmlService.Core.Exchange
import AmlService.Core.Requests
import AmlService.Core.ShortAnswers
import AmlService.Core.PendingFrames
import AmlService.Core.Events
import AmlService.Core.Control
import AmlService.Core.Written
import AmlService.Core.Device
import AmlService.App.Conversions
import AmlService.App.Evenements
import AmlService.App.Horloge
import AmlService.App.NextAlarm
import AmlService.App.ColorReading
import AmlService.App.DateReading
import AmlService.App.Handlers
import AmlService.App.HandlersRequest
import AmlService.App.SettingsWrites
import AmlService.App.AlarmEdits
import AmlService.Core.LateAnswers
import AmlService.Core.Supervision
import AmlService.Core.LinkState
import AmlService.Core.Backoff
import AmlService.App.Steps
import AmlService.App.Refusals
import AmlService.App.Validation
import AmlService.App.Periodic
import AmlService.App.AlarmTracking
import AmlService.App.AlarmRuns
import AmlService.App.StopRequests
import AmlService.App.Readings
import AmlService.App.SeparateAlarms
import AmlService.App.SnoozeBound
import AmlService.App.EventQueue
import AmlService.App.LightRefresh
import AmlService.App.ClockKnown
import AmlService.App.ClockUpkeep
import AmlService.App.ClockSetting
import AmlService.Lib.Run
import AmlService.Lib.Backlog
import AmlService.Lib.Text
import AmlService.Lib.Lines
import AmlService.Lib.Answering
import AmlService.Core.Config
import AmlService.Core.Devices
import AmlService.Command.AmlCommands
import AmlService.Command.NodeForest
import AmlService.Command.RegistryPaths
import AmlService.Command.Registry
import AmlService.Ipc.Server
import AmlService.Ipc.ClientStream
import AmlService.Ipc.ServerLoop
import AmlService.Ipc.ClientFate
import AmlService.Ipc.LongLines
import AmlService.Ipc.LateClients
import AmlService.Ipc.PolledClients
import AmlService.Mqtt.Bridge
import AmlService.Mqtt.DaySwitches
import AmlService.Mqtt.Entities
import AmlService.Mqtt.Messages
import AmlService.Lib.Simulation
import AmlService.Lib.PyJson
import AmlService.Lib.LineReader
import AmlService.Ipc.Dialogue
import AmlService.Ipc.Annales
import AmlService.Ipc.Ctl
import AmlService.Mqtt.Channels
import AmlService.Mqtt.Discovery
import AmlService.Mqtt.Publishing
import AmlService.Mqtt.Displayed
import AmlService.App.Programme
import AmlService.Mqtt.Service
import AmlService.Mqtt.AlarmMirror
import AmlService.App.Reponses
import AmlService.Mqtt.Endurance
import AmlService.Ipc.SocketFile
import AmlService.Mqtt.Choices
import AmlService.Mqtt.Contract
