import Turna.Session.Admission
import Turna.Node.WriteLog
import Turna.Relay.Reaper
import Turna.Node.CrashSafety
import Turna.Stun.Integrity
import Turna.Qos.ByteRate
import Turna.Relay.AutoBan
import Turna.Node.AdminDeletion
import Turna.Relay.ReplyBudget
import Turna.Relay.TicketRun
import Turna.Relay.Redirects
import Turna.Relay.StreamBook
import Turna.Relay.TcpBinding
import Turna.Relay.TcpLimits
import Turna.Node.ExactlyOnce
import Turna.Auth.CredentialFetches
import Turna.StateBackend.Tarantool
import Turna.StateBackend.CallPool
import Turna.Transport.XskDatapath
import Turna.Relay.ZeroCopy
import Turna.Rtp.LossAccounting
import Turna.Transport.BpfFilter
