import DtProject.Reconnection.SingleFlight
import DtProject.Reconnection.Retry
import DtProject.Status.Agreement
import DtProject.Shutdown.Final
import DtProject.Counters.Faithful
import DtProject.Supervision.Refinement
import DtProject.Packet.Terminate
import DtProject.Packet.SizeBody
import DtProject.Bytes.Layout
import DtProject.Packet.Rules
import DtProject.SharedMemory.Bodies
import DtProject.SharedMemory.Freshness
import DtProject.Log.Delivery
import DtProject.WebSocketClient.Pursuit
import DtProject.WebSocketClient.Replacement
import DtProject.WebSocketClient.Messages
import DtProject.GrowBuffer.Receive
import DtProject.Udp.Receiver
import DtProject.Json.DeliveryBox
import DtProject.Json.Numbers
import DtProject.TcpServer.Dispatches
import DtProject.Manager.Listed
