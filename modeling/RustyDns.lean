import RustyDns.Wire.Word
import RustyDns.Wire.Buffer
import RustyDns.Wire.Qname
import RustyDns.Wire.Compression
import RustyDns.Wire.Accepted
import RustyDns.Message.Types
import RustyDns.Message.Header
import RustyDns.Message.Record
import RustyDns.Message.Packet
import RustyDns.Message.Bounds
import RustyDns.Message.Sections
import RustyDns.Message.Parsed
import RustyDns.Cache.Address
import RustyDns.Cache.Row
import RustyDns.Cache.Table
import RustyDns.Resolver.Step
import RustyDns.Resolver.Run
import RustyDns.Resolver.Replies
import RustyDns.Handler.Compose
import RustyDns.Handler.QueryHandler
import RustyDns.Handler.Server
