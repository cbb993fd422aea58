import Starla.Framework.Address
import Starla.Framework.Ascii
import Starla.Framework.Assoc
import Starla.Framework.Base64
import Starla.Framework.ByteSlice
import Starla.Framework.Bytes
import Starla.Framework.Checked
import Starla.Framework.Chunks
import Starla.Framework.Float64
import Starla.Framework.Formatting
import Starla.Framework.Getopt
import Starla.Framework.HttpRequest
import Starla.Framework.Int64
import Starla.Framework.JsonFormat
import Starla.Framework.JsonMembers
import Starla.Framework.JsonRules
import Starla.Framework.JsonStrings
import Starla.Framework.JsonText
import Starla.Framework.LengthPrefixed
import Starla.Framework.Lines
import Starla.Framework.Logged
import Starla.Framework.Marking
import Starla.Framework.OnesComplement
import Starla.Framework.Pull
import Starla.Framework.Run
import Starla.Framework.Search
import Starla.Framework.Slots
import Starla.Framework.Stream
import Starla.Framework.Takers
import Starla.Framework.Text
import Starla.Framework.Weak
import Starla.Impl.Controller.Command
import Starla.Impl.Controller.Connect
import Starla.Impl.Controller.Cronline
import Starla.Impl.Controller.Evtdig
import Starla.Impl.Controller.Init
import Starla.Impl.Controller.Json
import Starla.Impl.Controller.KnownHosts
import Starla.Impl.Controller.Registration
import Starla.Impl.Controller.Session
import Starla.Impl.Controller.Sessions
import Starla.Impl.Controller.Telnet
import Starla.Impl.Controller.Tools
import Starla.Impl.Measurements.Dns
import Starla.Impl.Measurements.DnsName
import Starla.Impl.Measurements.DnsQuery
import Starla.Impl.Measurements.Http
import Starla.Impl.Measurements.HttpRequest
import Starla.Impl.Measurements.HttpResponse
import Starla.Impl.Measurements.Icmp
import Starla.Impl.Measurements.NameMacros
import Starla.Impl.Measurements.Ntp
import Starla.Impl.Measurements.NtpClient
import Starla.Impl.Measurements.Ping
import Starla.Impl.Measurements.PingRun
import Starla.Impl.Measurements.ResolvConf
import Starla.Impl.Measurements.Resolver
import Starla.Impl.Measurements.Session
import Starla.Impl.Measurements.StoredHeaders
import Starla.Impl.Measurements.Target
import Starla.Impl.Measurements.Tls
import Starla.Impl.Measurements.TlsCipher
import Starla.Impl.Measurements.TlsHello
import Starla.Impl.Measurements.TlsReader
import Starla.Impl.Measurements.Traceroute
import Starla.Impl.Measurements.Wsacmsg
import Starla.Impl.Reports.Dns
import Starla.Impl.Reports.DnsCarry
import Starla.Impl.Reports.DnsIndexed
import Starla.Impl.Reports.Envelope
import Starla.Impl.Reports.Http
import Starla.Impl.Reports.Line
import Starla.Impl.Reports.Ntp
import Starla.Impl.Reports.Ping
import Starla.Impl.Reports.Tls
import Starla.Impl.Reports.TlsAnswer
import Starla.Impl.Reports.Traceroute
import Starla.Impl.Results.Format
import Starla.Impl.Results.Gate
import Starla.Impl.Results.Handler
import Starla.Impl.Results.HostTelemetry
import Starla.Impl.Results.Loop
import Starla.Impl.Results.Oneoff
import Starla.Impl.Results.PostSchedule
import Starla.Impl.Results.PostTarget
import Starla.Impl.Results.Queue
import Starla.Impl.Results.Uploader
import Starla.Impl.Scheduler.Checked
import Starla.Impl.Scheduler.Handler
import Starla.Impl.Scheduler.Job
import Starla.Impl.Scheduler.Lines
import Starla.Impl.Scheduler.Measurement
import Starla.Impl.Scheduler.Task
import Starla.Impl.Traceroute.Engine
import Starla.Impl.Traceroute.Indexed
import Starla.Impl.Traceroute.Instance
import Starla.Impl.Traceroute.Net
import Starla.Impl.Traceroute.Send
import Starla.Impl.Traceroute.Wire
import Starla.Proof.Controller.Chunks
import Starla.Proof.Controller.Connect
import Starla.Proof.Controller.Cronline
import Starla.Proof.Controller.Evping
import Starla.Proof.Controller.Evtraceroute
import Starla.Proof.Controller.Getopt
import Starla.Proof.Controller.KnownHosts
import Starla.Proof.Controller.Registration
import Starla.Proof.Controller.Session
import Starla.Proof.Controller.Takeover
import Starla.Proof.Controller.Telnet
import Starla.Proof.Controller.Waits
import Starla.Proof.Measurements.Address
import Starla.Proof.Measurements.Contacts
import Starla.Proof.Measurements.DnsName
import Starla.Proof.Measurements.DnsQuery
import Starla.Proof.Measurements.HttpEncoding
import Starla.Proof.Measurements.HttpRequest
import Starla.Proof.Measurements.HttpResponse
import Starla.Proof.Measurements.Icmp
import Starla.Proof.Measurements.NameMacros
import Starla.Proof.Measurements.Ntp
import Starla.Proof.Measurements.NtpClient
import Starla.Proof.Measurements.PingRun
import Starla.Proof.Measurements.Probe
import Starla.Proof.Measurements.Query
import Starla.Proof.Measurements.ResolvConf
import Starla.Proof.Measurements.Resolver
import Starla.Proof.Measurements.Session
import Starla.Proof.Measurements.StoredHeaders
import Starla.Proof.Measurements.TlsCipher
import Starla.Proof.Measurements.TlsFlight
import Starla.Proof.Measurements.TlsHello
import Starla.Proof.Measurements.TlsReader
import Starla.Proof.Measurements.TlsRoundTrip
import Starla.Proof.Measurements.Wsacmsg
import Starla.Proof.Reports.Dns
import Starla.Proof.Reports.DnsCarry
import Starla.Proof.Reports.DnsIndexed
import Starla.Proof.Reports.Envelope
import Starla.Proof.Reports.Hops
import Starla.Proof.Reports.Http
import Starla.Proof.Reports.Line
import Starla.Proof.Reports.Ntp
import Starla.Proof.Reports.Pem
import Starla.Proof.Reports.Ping
import Starla.Proof.Reports.Tls
import Starla.Proof.Reports.TlsAnswer
import Starla.Proof.Reports.Traceroute
import Starla.Proof.Reports.Txt
import Starla.Proof.Results.Format
import Starla.Proof.Results.Gate
import Starla.Proof.Results.Handler
import Starla.Proof.Results.HostTelemetry
import Starla.Proof.Results.Loop
import Starla.Proof.Results.Oneoff
import Starla.Proof.Results.PostRun
import Starla.Proof.Results.PostSchedule
import Starla.Proof.Results.PostTarget
import Starla.Proof.Results.Queue
import Starla.Proof.Results.Uploader
import Starla.Proof.Scheduler.Arithmetic
import Starla.Proof.Scheduler.Cycles
import Starla.Proof.Scheduler.Kept
import Starla.Proof.Scheduler.Line
import Starla.Proof.Scheduler.Measurement
import Starla.Proof.Scheduler.Synchronize
import Starla.Proof.Scheduler.Task
import Starla.Proof.Scheduler.Windows
import Starla.Proof.Traceroute.Checksums
import Starla.Proof.Traceroute.Engine
import Starla.Proof.Traceroute.Indexed
import Starla.Proof.Traceroute.Instance
import Starla.Proof.Traceroute.Recognised
import Starla.Proof.Traceroute.Replies
import Starla.Proof.Traceroute.Stale
import Starla.Proof.Traceroute.Wire
