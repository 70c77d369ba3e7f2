import DtProject.TcpServer.Basic

/-! # The manager

`UObjectDelivererManager` is given what its protocol dispatches, on whatever thread,
and broadcasts it by tasks of the game thread, the default. A dispatching thread
looks at `IsDestorying` before it posts its task, and the task looks again. `Start`,
`Close` and the sending run on the game thread, as do the listeners, which may make
these calls themselves.
-/

namespace DtProject

deriving instance DecidableEq for Dispatched

/-- What the task of an event does to `ConnectedList`. -/
def Dispatched.list : Dispatched → List ℕ → List ℕ
  | .connected i, connectedList => connectedList ++ [i]
  | .disconnected i, connectedList => connectedList.filter (· ≠ i)
  | .receiveData _ _, connectedList => connectedList

/-- What broadcasts, newest first, make of an empty `ConnectedList`. -/
def broadcastList (broadcasts : List Dispatched) : List ℕ := broadcasts.foldr Dispatched.list []

/-- The manager, with the events whose threads have passed their look at `IsDestorying`, the tasks
of the game thread, oldest first, and what the listener of a body that is being broadcast leaves
for the delivery box. What was broadcast, given to the box and sent is newest first. -/
structure ObjectDelivererManager where
  isDestorying : Bool := false
  currentProtocol : Option ℕ := none
  deliveryBox : Bool := false
  connectedList : List ℕ := []
  passed : List Dispatched := []
  tasks : List Dispatched := []
  notifying : Option (ℕ × List UInt8) := none
  broadcasts : List Dispatched := []
  notified : List (ℕ × List UInt8) := []
  sent : List (ℕ × List UInt8) := []

namespace ObjectDelivererManager

variable (m : ObjectDelivererManager)

/-- `Start`, up to the start of the protocol. It gets a protocol and a packet rule, or not both,
and may get a delivery box. -/
def start (protocol : Option ℕ) (deliveryBox : Bool) : ObjectDelivererManager :=
  match protocol with
  | none => m
  | some i => { m with
      isDestorying := false
      currentProtocol := some i
      deliveryBox := deliveryBox
      connectedList := [] }

def close : ObjectDelivererManager :=
  if m.isDestorying then m
  else { m with isDestorying := true, currentProtocol := none, deliveryBox := false }

/-- `HandleConnected`, `HandleDisconnected` or `HandleReceiveData` up to `AsyncTask`. -/
def handle (d : Dispatched) : ObjectDelivererManager :=
  if m.isDestorying then m else { m with passed := d :: m.passed }

def post (d : Dispatched) : Option ObjectDelivererManager :=
  if d ∈ m.passed then some { m with passed := m.passed.erase d, tasks := m.tasks ++ [d] }
  else none

def toNotify : Dispatched → Option (ℕ × List UInt8)
  | .receiveData i body => some (i, body)
  | _ => none

def broadcast (d : Dispatched) : ObjectDelivererManager :=
  { m with
    connectedList := d.list m.connectedList
    broadcasts := d :: m.broadcasts
    notifying := toNotify d }

def notify (r : ℕ × List UInt8) : ObjectDelivererManager :=
  { m with
    notifying := none
    notified := if m.deliveryBox then r :: m.notified else m.notified }

def runTask : Option ObjectDelivererManager :=
  match m.notifying, m.tasks with
  | some r, _ => some (m.notify r)
  | none, [] => none
  | none, d :: tasks =>
    let m := { m with tasks := tasks }
    some (if m.isDestorying then m else m.broadcast d)

def sendTo (dataBuffer : List UInt8) (target : Option ℕ) : ObjectDelivererManager :=
  if m.isDestorying then m
  else match target, m.currentProtocol with
    | some i, some _ => { m with sent := (i, dataBuffer) :: m.sent }
    | _, _ => m

def send (dataBuffer : List UInt8) : ObjectDelivererManager := m.sendTo dataBuffer m.currentProtocol

/-- What a delivery box that is bound asks to be sent, to one destination or to the protocol. -/
def requestSend (buffer : List UInt8) (destination : Option ℕ) : ObjectDelivererManager :=
  if m.isDestorying then m else m.sendTo buffer (destination <|> m.currentProtocol)

def isConnected : Bool :=
  !m.isDestorying && m.currentProtocol.isSome && !m.connectedList.isEmpty

/-- What happens on the game thread, and the two stages of a thread that dispatches. -/
inductive Event where
  | start (protocol : Option ℕ) (deliveryBox : Bool)
  | close
  | handle (d : Dispatched)
  | post (d : Dispatched)
  | runTask
  | send (dataBuffer : List UInt8)
  | sendTo (dataBuffer : List UInt8) (target : Option ℕ)
  | requestSend (buffer : List UInt8) (destination : Option ℕ)

def step (m : ObjectDelivererManager) : Event → Option ObjectDelivererManager
  | .start protocol deliveryBox => some (m.start protocol deliveryBox)
  | .close => some m.close
  | .handle d => some (m.handle d)
  | .post d => m.post d
  | .runTask => m.runTask
  | .send dataBuffer => some (m.send dataBuffer)
  | .sendTo dataBuffer target => some (m.sendTo dataBuffer target)
  | .requestSend buffer destination => some (m.requestSend buffer destination)

end ObjectDelivererManager

end DtProject
