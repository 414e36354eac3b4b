import VRouter.Mtrie.Rollback
import VRouter.Interface.FatFlowSet
import VRouter.Tunnel.RoundTrip
import VRouter.Mtrie.ShortLookup
import VRouter.Bridge.RouteIndex
import VRouter.Flow.TakeBack
import VRouter.Flow.Generation
import VRouter.Inet.PseudoHeader
import VRouter.Inet.UdpChecksum
import VRouter.Inet.IcmpError
import VRouter.Flow.Established
import VRouter.Flow.UdpSrcPort
import VRouter.Flow.HoldIndex
import VRouter.Flow.LinkLocal
import VRouter.Flow.HeldBalance
import VRouter.Fragment.Completion
import VRouter.Fragment.Scan
import VRouter.Flow.Stats
import VRouter.Inet.FlowMirror
import VRouter.Nexthop.Union
import VRouter.Nexthop.Translate
import VRouter.Nexthop.Nesting
import VRouter.Fragment.Dispatch
import VRouter.Qos.ForwardingClass
import VRouter.Host.VirtioRx
import VRouter.Interface.CrossConnect
import VRouter.Host.CopyBits
import VRouter.Host.UsockWrite
import VRouter.Host.UsockLoop
import VRouter.Host.LcoreQueues
import VRouter.Itable.Delete
import VRouter.Bitmap
