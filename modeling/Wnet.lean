import Wnet.Foundation.LinkedList
import Wnet.Foundation.Run
import Wnet.Foundation.Framing
import Wnet.Foundation.Feeding
import Wnet.Foundation.BigEndian
import Wnet.Foundation.Deadlines
import Wnet.Foundation.Inventory
import Wnet.Channel.Conservation
import Wnet.Channel.OrderedMap
import Wnet.Queue.PacketQueue
import Wnet.Server.Batch
import Wnet.Session.Failing
import Wnet.Server.Segmentation
import Wnet.Session.Reconnect
import Wnet.Session.Order
import Wnet.Session.Limits
import Wnet.Session.Completion
import Wnet.Session.Custody
import Wnet.Session.Reentrancy
import Wnet.Session.Timeouts
import Wnet.Session.Rejection
import Wnet.Session.Termination
import Wnet.Server.Uninitialised
import Wnet.Foundation.SortedMap
import Wnet.Foundation.Trimming
import Wnet.Foundation.Segment
import Wnet.Config.Reloading
import Wnet.Foundation.Calendar
import Wnet.Foundation.Decimal
import Wnet.Foundation.PrefixCode
import Wnet.Foundation.NamedValues
import Wnet.Json.Safety
import Wnet.Json.RoundTrip
import Wnet.Json.Repeat
import Wnet.Conv.Conversion
import Wnet.DateTime.Sharing
import Wnet.DateTime.RoundTrip
import Wnet.Session.Routing
import Wnet.Session.Requests
import Wnet.Exchange.Delivery
import Wnet.Evpp.TaskQueue
import Wnet.Evpp.ByteQueue
import Wnet.Evpp.Lifetime
import Wnet.Evpp.Shutdown
import Wnet.Packet.Reception
import Wnet.Server.Reception
import Wnet.Server.Stopping
import Wnet.Server.Dispatch
