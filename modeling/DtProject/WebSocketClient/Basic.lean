import Mathlib.Algebra.Order.Ring.Int
import Mathlib.Logic.Function.Basic
import DtProject.Packet.Receive
import DtProject.Reactive.Run
import DtProject.Text.Utf8

/-! # The reconnecting web socket client

`UProtocolWebSocketClient` of ObjectDeliverer replaces a socket that ends from a
thread of its own. `Start`, `Close` and the callbacks of the sockets run on the
game thread, and interleave with the stages of the reconnect thread. `Close` waits
for that thread and meanwhile holds the game thread. Sockets and threads are
numbered by creation.
-/

namespace DtProject

/-- The callbacks of a socket, bound by `CreateWebSocket` and never unbound. A text message comes
with the memory that lies behind its text once that has been converted to UTF-8. -/
inductive SocketCallback where
  | onConnected
  | onConnectionError
  | onClosed
  | onMessage (message : String) (behind : ℕ → UInt8)
  | onBinaryMessage (data : List UInt8) (bIsLastFragment : Bool)

namespace SocketCallback

def isTerminal : SocketCallback → Bool
  | onConnectionError | onClosed => true
  | _ => false

end SocketCallback

/-- What a reconnect thread does next: enter the loop of `FODWorkerThread::Run`, look at
`bIsManualClose`, create the socket, or clear `bIsReconnecting`. -/
inductive ReconnectStage where
  | run
  | check
  | create
  | clear
  | done
  deriving DecidableEq

/-- Whether a socket has delivered a terminal callback, and whether it has been closed. -/
structure ClientSocket where
  dead : Bool := false
  closed : Bool := false

/-- The client, its sockets and its threads, with the statuses dispatched and the bodies handed on,
newest first. -/
structure ProtocolWebSocketClient (σ : Type*) where
  packetRule : Option σ
  bAutoReconnect : Bool := false
  bIsManualClose : Bool := false
  bIsReconnecting : Bool := false
  webSocket : Option ℕ := none
  reconnectThread : Option ℕ := none
  closing : Bool := false
  sockets : ℕ := 0
  socket : ℕ → ClientSocket := fun _ => {}
  threads : ℕ := 0
  stage : ℕ → ReconnectStage := fun _ => .done
  dispatched : List Bool := []
  bodies : List (List UInt8) := []

namespace ProtocolWebSocketClient

variable {σ : Type*} (R : PacketRule σ) (w : ProtocolWebSocketClient σ)

/-- `CreateWebSocket`, which gets a socket or none. -/
def createWebSocket (created : Bool) : ProtocolWebSocketClient σ :=
  if created then { w with webSocket := some w.sockets, sockets := w.sockets + 1 }
  else { w with webSocket := none }

def start (created : Bool) : ProtocolWebSocketClient σ :=
  createWebSocket { w with bIsManualClose := false } created

/-- `Close` up to the wait for the reconnect thread. -/
def close : ProtocolWebSocketClient σ :=
  { w with bIsManualClose := true, bIsReconnecting := false, closing := true }

def threadEnded : Bool :=
  match w.reconnectThread with
  | some i => w.stage i = .done
  | none => true

def modifySocket (s : ℕ) (f : ClientSocket → ClientSocket) : ProtocolWebSocketClient σ :=
  { w with socket := Function.update w.socket s (f (w.socket s)) }

def finishClose : ProtocolWebSocketClient σ :=
  let w := { w with reconnectThread := none, closing := false }
  match w.webSocket with
  | some s => { w.modifySocket s fun k => { k with closed := true } with webSocket := none }
  | none => w

/-- The common end of `OnWebSocketClosed` and `OnWebSocketConnectionError`. -/
def reconnect : ProtocolWebSocketClient σ :=
  if w.bAutoReconnect && !w.bIsManualClose && !w.bIsReconnecting then
    { w with
      bIsReconnecting := true
      reconnectThread := some w.threads
      threads := w.threads + 1
      stage := Function.update w.stage w.threads .run }
  else w

def onWebSocketConnected : ProtocolWebSocketClient σ :=
  { w with dispatched := true :: w.dispatched }

def onWebSocketConnectionError : ProtocolWebSocketClient σ :=
  if w.bIsManualClose then w else w.reconnect

def onWebSocketClosed : ProtocolWebSocketClient σ :=
  reconnect { w with dispatched := false :: w.dispatched }

/-- Hand a whole message to the packet rule, or on to the listeners where there is none. -/
def notify (dataBuffer : List UInt8) : ProtocolWebSocketClient σ :=
  match w.packetRule with
  | some rule =>
    let r := R.notifyReceiveData rule dataBuffer
    { w with packetRule := some r.2, bodies := r.1.reverse ++ w.bodies }
  | none => { w with bodies := dataBuffer :: w.bodies }

/-- `Message.Len()`, the number of UTF-16 units. -/
def messageLen (message : String) : ℕ :=
  (message.toList.map fun c => if c.toNat < 0x10000 then 1 else 2).sum

/-- The bytes that `OnWebSocketMessage` takes of a text message: as many as the message has UTF-16
units, of the converted text, the NUL after it, and then the memory behind that. -/
def messageBytes (message : String) (behind : ℕ → UInt8) : List UInt8 :=
  (tcharToUtf8 message ++ 0 :: (List.range (messageLen message)).map behind).take
    (messageLen message)

def onWebSocketMessage (message : String) (behind : ℕ → UInt8) : ProtocolWebSocketClient σ :=
  w.notify R (messageBytes message behind)

def onWebSocketBinaryMessage (data : List UInt8) (bIsLastFragment : Bool) :
    ProtocolWebSocketClient σ :=
  if bIsLastFragment then w.notify R data else w

def handle : SocketCallback → ProtocolWebSocketClient σ
  | .onConnected => w.onWebSocketConnected
  | .onConnectionError => w.onWebSocketConnectionError
  | .onClosed => w.onWebSocketClosed
  | .onMessage message behind => w.onWebSocketMessage R message behind
  | .onBinaryMessage data bIsLastFragment => w.onWebSocketBinaryMessage R data bIsLastFragment

def callbackMessage : SocketCallback → Option (List UInt8)
  | .onMessage message behind => some (messageBytes message behind)
  | .onBinaryMessage data true => some data
  | _ => none

/-- The packet rule, if there is one, reads no byte that a callback does not hand to it. -/
def inBounds (c : SocketCallback) : Bool :=
  match w.packetRule, callbackMessage c with
  | some rule, some dataBuffer => R.inBounds rule dataBuffer
  | _, _ => true

def deliver (s : ℕ) (c : SocketCallback) : ProtocolWebSocketClient σ :=
  w.modifySocket s fun k => { k with dead := k.dead || c.isTerminal }

def setStage (i : ℕ) (stage : ReconnectStage) : ProtocolWebSocketClient σ :=
  { w with stage := Function.update w.stage i stage }

def stopped (i : ℕ) : Bool := w.closing && w.reconnectThread = some i

/-- The next stage of a reconnect thread. `TryReconnect` returns false, so the loop of the thread
runs once. -/
def tryReconnect (i : ℕ) (created : Bool) : Option (ProtocolWebSocketClient σ) :=
  match w.stage i with
  | .run => some (w.setStage i (if w.stopped i then .done else .check))
  | .check =>
    if w.bIsManualClose then some { w.setStage i .done with bIsReconnecting := false }
    else some (w.setStage i .create)
  | .create => some ((w.createWebSocket created).setStage i .clear)
  | .clear => some { w.setStage i .done with bIsReconnecting := false }
  | .done => none

inductive Event where
  | start (created : Bool)
  | close
  | finishClose
  | setAutoReconnect (bInAutoReconnect : Bool)
  | callback (s : ℕ) (c : SocketCallback)
  | tryReconnect (i : ℕ) (created : Bool)

def step (w : ProtocolWebSocketClient σ) : Event → Option (ProtocolWebSocketClient σ)
  | .start created => if w.closing then none else some (w.start created)
  | .close => if w.closing then none else some w.close
  | .finishClose => if w.closing && w.threadEnded then some w.finishClose else none
  | .setAutoReconnect bInAutoReconnect =>
    if w.closing then none else some { w with bAutoReconnect := bInAutoReconnect }
  | .callback s c =>
    if !w.closing && s < w.sockets && w.inBounds R c then some ((w.deliver s c).handle R c)
    else none
  | .tryReconnect i created => w.tryReconnect i created

end ProtocolWebSocketClient

end DtProject
