import Mathlib.Logic.Function.Basic
import DtProject.Packet.Receive
import DtProject.Reactive.Run

/-! # The TCP server and its clients

`UProtocolTcpIpServer` of ObjectDeliverer accepts connections on a listen thread and
gives each a socket object, whose polling thread reads it. `Start` and `Close` run on
the game thread and interleave with the stages of these threads. `Close` waits for
the listen thread, takes the sockets from the server, and closes each of them, which
waits for its polling thread. Clients are numbered in the order of acceptance.
-/

namespace DtProject

/-- What the polling thread of a client does next: read the socket, hand the bodies of one read to
the server, or report the end of the connection. The server looks at `IsClosing` first and
dispatches then. -/
inductive ClientStage where
  | poll
  | receive (bodies : List (List UInt8))
  | dispatchReceiveData (body : List UInt8) (bodies : List (List UInt8))
  | disconnected
  | remove
  | dispatchDisconnected
  | done

/-- A client of the server, with the data read from it. -/
structure TcpIpClient (σ : Type*) where
  packetRule : σ
  bIsClosing : Bool := false
  stage : ClientStage := .done
  reads : List (List UInt8) := []

/-- What the listen thread does next: look at `IsClosing`, accept a connection, add the socket of
the client that it has accepted, or dispatch that it is connected. -/
inductive ListenStage where
  | onListen
  | accept
  | add (i : ℕ)
  | dispatchConnected (i : ℕ)
  | done

/-- What `Close` does next: wait for the listen thread, close the next of the sockets, or wait for
the polling thread of one. -/
inductive CloseStage where
  | idle
  | listenThread
  | sockets (socketsToClose : List ℕ)
  | polling (i : ℕ) (socketsToClose : List ℕ)

namespace CloseStage

def isIdle : CloseStage → Bool
  | .idle => true
  | _ => false

def taken : CloseStage → List ℕ
  | .idle | .listenThread => []
  | .sockets socketsToClose => socketsToClose
  | .polling i socketsToClose => i :: socketsToClose

end CloseStage

inductive Dispatched where
  | connected (i : ℕ)
  | disconnected (i : ℕ)
  | receiveData (i : ℕ) (body : List UInt8)

/-- The server, with what `Clone` gives of its packet rule and what it has dispatched, newest
first. -/
structure ProtocolTcpIpServer (σ : Type*) where
  clone : σ
  isClosing : Bool := false
  starting : Bool := false
  closeStage : CloseStage := .idle
  listenThread : ListenStage := .done
  connectedSockets : List ℕ := []
  clients : ℕ := 0
  client : ℕ → TcpIpClient σ := fun _ => { packetRule := clone }
  dispatched : List Dispatched := []

namespace ProtocolTcpIpServer

variable {σ : Type*} (R : PacketRule σ) (s : ProtocolTcpIpServer σ)

def modifyClient (i : ℕ) (f : TcpIpClient σ → TcpIpClient σ) : ProtocolTcpIpServer σ :=
  { s with client := Function.update s.client i (f (s.client i)) }

def setStage (i : ℕ) (stage : ClientStage) : ProtocolTcpIpServer σ :=
  s.modifyClient i fun c => { c with stage := stage }

def tell (i : ℕ) : ProtocolTcpIpServer σ :=
  s.modifyClient i fun c => { c with bIsClosing := true }

def dispatch (d : Dispatched) : ProtocolTcpIpServer σ :=
  { s with dispatched := d :: s.dispatched }

/-- `Close` up to its first wait. `Start` begins with it. -/
def close (starting : Bool) : ProtocolTcpIpServer σ :=
  { s with isClosing := true, starting := starting, closeStage := .listenThread }

/-- The end of `Close`, and the rest of `Start` where that called it. No listen thread is started
where the port cannot be bound. -/
def closed (bound : Bool) : ProtocolTcpIpServer σ :=
  if s.starting then
    { s with
      isClosing := false
      starting := false
      closeStage := .idle
      listenThread := if bound then .onListen else .done }
  else { s with closeStage := .idle }

/-- The next stage of `Close`. It is none where a thread that it waits for has not ended. -/
def closeNext (bound : Bool) : Option (ProtocolTcpIpServer σ) :=
  match s.closeStage with
  | .idle => none
  | .listenThread =>
    match s.listenThread with
    | .done => some { s with connectedSockets := [], closeStage := .sockets s.connectedSockets }
    | _ => none
  | .sockets [] => some (s.closed bound)
  | .sockets (i :: rest) =>
    if (s.client i).bIsClosing then some { s with closeStage := .sockets rest }
    else some { s.tell i with closeStage := .polling i rest }
  | .polling i rest =>
    match (s.client i).stage with
    | .done => some { s with closeStage := .sockets rest }
    | _ => none

def accept : ProtocolTcpIpServer σ :=
  { s with
    clients := s.clients + 1
    client := Function.update s.client s.clients { packetRule := s.clone, stage := .poll }
    listenThread := .add s.clients }

def onListen (pending : Bool) : Option (ProtocolTcpIpServer σ) :=
  match s.listenThread with
  | .onListen => some { s with listenThread := if s.isClosing then .done else .accept }
  | .accept => some (if pending then s.accept else { s with listenThread := .onListen })
  | .add i => some { s with
      connectedSockets := s.connectedSockets ++ [i], listenThread := .dispatchConnected i }
  | .dispatchConnected i =>
    some { s.dispatch (.connected i) with listenThread := .onListen }
  | .done => none

inductive PollResult where
  | idle
  | data (bytes : List UInt8)
  | died

/-- One read of the socket by its polling thread, and the receive loop over it. A read of no bytes
ends the connection. -/
def readSocket (i : ℕ) : PollResult → Option (ProtocolTcpIpServer σ)
  | .idle => some s
  | .data bytes =>
    if bytes = [] then some (s.setStage i .disconnected)
    else (R.receiveLoop (s.client i).packetRule bytes).map fun r =>
      s.modifyClient i fun c => { c with
        packetRule := r.2.1, reads := c.reads ++ [bytes], stage := .receive r.1 }
  | .died => some (s.setStage i .disconnected)

def removeClient (i : ℕ) : ProtocolTcpIpServer σ :=
  if i ∈ s.connectedSockets then
    { s.setStage i .dispatchDisconnected with connectedSockets := s.connectedSockets.erase i }
  else s.setStage i .done

/-- The next stage of the polling thread of a client. -/
def receivedData (i : ℕ) (result : PollResult) : Option (ProtocolTcpIpServer σ) :=
  match (s.client i).stage with
  | .poll => if (s.client i).bIsClosing then some (s.setStage i .done) else s.readSocket R i result
  | .receive [] => some (s.setStage i .poll)
  | .receive (body :: bodies) =>
    some (s.setStage i (if s.isClosing then .receive bodies else .dispatchReceiveData body bodies))
  | .dispatchReceiveData body bodies =>
    some ((s.dispatch (.receiveData i body)).setStage i (.receive bodies))
  | .disconnected => some (s.setStage i (if s.isClosing then .done else .remove))
  | .remove => some (s.removeClient i)
  | .dispatchDisconnected => some ((s.dispatch (.disconnected i)).setStage i .done)
  | .done => none

/-- The calls on the game thread with the stages of `Close`, and the stages of the listen thread
and of the polling threads. -/
inductive Event where
  | start
  | close
  | closeNext (bound : Bool)
  | onListen (pending : Bool)
  | receivedData (i : ℕ) (result : PollResult)

def step (s : ProtocolTcpIpServer σ) : Event → Option (ProtocolTcpIpServer σ)
  | .start => if s.closeStage.isIdle then some (s.close true) else none
  | .close => if s.closeStage.isIdle then some (s.close false) else none
  | .closeNext bound => s.closeNext bound
  | .onListen pending => s.onListen pending
  | .receivedData i result => s.receivedData R i result

end ProtocolTcpIpServer

end DtProject
