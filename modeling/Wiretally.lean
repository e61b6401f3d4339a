import Wiretally.RenameRace
import Wiretally.ResolveOrder
import Wiretally.Splice
import Wiretally.Socks
import Wiretally.SocksAccept
import Wiretally.Head
import Wiretally.Proxy
import Wiretally.Transcript
import Wiretally.Udp
import Wiretally.UdpCounts
import Wiretally.UdpNames
import Wiretally.SocksDatagram
import Wiretally.UdpClient
import Wiretally.UdpDropped
import Wiretally.Lib.Interleave
import Wiretally.SharedRows
import Wiretally.Lib.F64
import Wiretally.DomainFilter
import Wiretally.ReportTotals
import Wiretally.Authority
import Wiretally.Dns
import Wiretally.HostKeys
import Wiretally.Drain
import Wiretally.Attempts
import Wiretally.HeadLimit
import Wiretally.Userinfo
import Wiretally.Truncated
import Wiretally.Absolutize
import Wiretally.UdpFamily
import Wiretally.ByteUnits
import Wiretally.WireLog
import Wiretally.ReportTable
import Wiretally.IpText
import Wiretally.TunnelBytes
import Wiretally.Lookups
import Wiretally.Traffic
import Wiretally.DrainTime
import Wiretally.Summary
import Wiretally.Lib.Decimal
import Wiretally.Lib.Json
import Wiretally.ReportJson
import Wiretally.TunnelEnds
import Wiretally.Accuracy
import Wiretally.ReportText
import Wiretally.LogText
import Wiretally.Lib.Lockstep
import Wiretally.Dialogue
import Wiretally.Lib.Ledger
import Wiretally.Bookkeeping
import Wiretally.UdpLog
import Wiretally.LateSnapshot
