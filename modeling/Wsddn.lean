import Wsddn.Machine.Basic
import Wsddn.Machine.Law
import Wsddn.Stream.Consumer
import Wsddn.Stream.Lines
import Wsddn.Stream.LittleEndian
import Wsddn.Stream.Recognizer
import Wsddn.Stream.SelfDelimiting
import Wsddn.Text.Decimal
import Wsddn.Text.LineReader
import Wsddn.Text.Regex
import Wsddn.Text.Replace
import Wsddn.Text.Template
import Wsddn.Container.LinkedTree
import Wsddn.Container.LowerBound
import Wsddn.Container.NodeSet
import Wsddn.Container.Updates
import Wsddn.Memory.Reading
import Wsddn.Xml.Document
import Wsddn.Asio.Basic
import Wsddn.Http.Request
import Wsddn.Http.RequestParser
import Wsddn.Http.Connection
import Wsddn.Http.Server
import Wsddn.Http.Table
import Wsddn.Http.Accept
import Wsddn.Http.KeepAlive
import Wsddn.Http.Split
import Wsddn.Http.Trace
import Wsddn.Http.Body
import Wsddn.Http.Grammar
import Wsddn.Http.Bounds
import Wsddn.Http.Language
import Wsddn.Http.Response
import Wsddn.Http.Answer
import Wsddn.Http.Version
import Wsddn.Http.Folding
import Wsddn.Http.HeaderCase
import Wsddn.Udp.Server
import Wsddn.Udp.Chain
import Wsddn.Udp.Sockets
import Wsddn.Wsd.Placeholders
import Wsddn.Wsd.Request
import Wsddn.Wsd.Document
import Wsddn.Wsd.Server
import Wsddn.Wsd.Lifecycle
import Wsddn.Wsd.Announce
import Wsddn.Wsd.Duplicates
import Wsddn.Wsd.Metadata
import Wsddn.Wsd.Escaping
import Wsddn.Wsd.Farewell
import Wsddn.Wsd.Traffic
import Wsddn.Wsd.Network
import Wsddn.Wsd.Handshake
import Wsddn.Manager.Basic
import Wsddn.Manager.Retained
import Wsddn.Manager.BringUp
import Wsddn.Manager.Tracking
import Wsddn.Netlink.Parse
import Wsddn.Netlink.Handler
import Wsddn.Netlink.Attributes
import Wsddn.Netlink.Bounds
import Wsddn.Netlink.Message
import Wsddn.Netlink.Selection
import Wsddn.Netlink.OwnBytes
import Wsddn.Netlink.Truncated
import Wsddn.Netlink.Monitor
import Wsddn.Netlink.Stale
import Wsddn.Route.Parse
import Wsddn.Route.Bounds
import Wsddn.Route.Socket
import Wsddn.Config.CommandLine
import Wsddn.Config.Keys
import Wsddn.Config.Merge
import Wsddn.Config.Values
import Wsddn.Config.Options
import Wsddn.Config.WinNetInfo
import Wsddn.Config.AppState
import Wsddn.Config.Logging
import Wsddn.Config.Reload
import Wsddn.Config.RunAs
import Wsddn.Config.SmbConf
import Wsddn.Config.Samba
import Wsddn.PidFile.Protocol
import Wsddn.PidFile.Exclusion
import Wsddn.Process.Signals
import Wsddn.Process.Daemonize
import Wsddn.Process.Forward
import Wsddn.Process.Terminate
