import DtProject.Production.Message
import DtProject.Reactive.Run

/-! # The production subsystem

A world holds `UProductionSubsystem` and what the engine keeps for it: every
socket that `CreateWebSocket` made, the pending one-shot timers, and the
broadcasts so far. Sockets are numbered by creation. The handlers stay bound
after `Reset`, so a callback names only its socket. The environment fires
timers, delivers callbacks, edits the URL and runs `Deinitialize`; the answers
of `IsConnected` are part of its events.
-/

namespace DtProject

/-- The callbacks a socket delivers to the handlers bound by `Connect`. -/
inductive Callback where
  | onConnected
  | onMessage (message : String)
  | onClosed (code : Int32) (reason : String) (bWasClean : Bool)
  | onConnectionError (error : String)
  deriving DecidableEq

def Callback.isTerminal : Callback → Bool
  | onClosed .. | onConnectionError _ => true
  | _ => false

/-- A socket, with the callbacks it has delivered, newest first, and its `Close` calls. -/
structure WebSocket where
  url : String
  delivered : List Callback := []
  closes : ℕ := 0

namespace WebSocket

def live (k : WebSocket) : Bool := !k.delivered.any Callback.isTerminal

/-- The last connection callback of a history was `OnConnected`. -/
def upAfter : List Callback → Bool
  | [] => false
  | .onConnected :: _ => true
  | .onMessage _ :: cs => upAfter cs
  | _ :: _ => false

def up (k : WebSocket) : Bool := upAfter k.delivered

end WebSocket

/-- The two lambdas given to `SetTimer`: the plain one of `Initialize`, and the guarded one of
`OnClosed` and `OnError`. -/
inductive TimerCallback where
  | connect
  | reconnect
  deriving DecidableEq

/-- A pending one-shot timer, with its rate in milliseconds. -/
structure Timer where
  callback : TimerCallback
  inRate : ℕ
  deriving DecidableEq

structure World where
  backendWebSocketUrl : String
  webSocket : Option ℕ
  sockets : List WebSocket
  timers : List Timer
  broadcasts : List Broadcast
  connects : ℕ
  deinitialized : Bool
  webSocket_lt : ∀ s ∈ webSocket, s < sockets.length

namespace World

variable (w : World)

def setTimer (callback : TimerCallback) (inRate : ℕ) : World :=
  { w with timers := ⟨callback, inRate⟩ :: w.timers }

def takeTimer (i : ℕ) : World :=
  { w with timers := w.timers.eraseIdx i }

def broadcast (b : Broadcast) : World :=
  { w with broadcasts := b :: w.broadcasts }

def modifySocket (s : ℕ) (f : WebSocket → WebSocket) : World :=
  { w with
    sockets := w.sockets.modify s f
    webSocket_lt := by simpa using w.webSocket_lt }

def close (s : ℕ) : World :=
  w.modifySocket s fun k => { k with closes := k.closes + 1 }

def deliver (s : ℕ) (c : Callback) : World :=
  w.modifySocket s fun k => { k with delivered := c :: k.delivered }

/-- `Close` and `Reset` on the current socket, if any. -/
def dropWebSocket : World :=
  match w.webSocket with
  | some s => { w.close s with webSocket := none, webSocket_lt := by simp }
  | none => w

/-- `Close` on the current socket if it is connected. -/
def closeConnected (isConnected : Bool) : World :=
  match w.webSocket with
  | some s => if isConnected then w.close s else w
  | none => w

def enterConnect : World :=
  { w with connects := w.connects + 1 }

def createWebSocket (url : String) : World :=
  { w with
    webSocket := some w.sockets.length
    sockets := w.sockets ++ [{ url := url }]
    webSocket_lt := by simp }

end World

section Subsystem

variable (w : World)

/-- `Connect`: close and drop the current socket, then create its replacement. -/
def connect : World :=
  let w' := w.enterConnect.dropWebSocket
  w'.createWebSocket w'.backendWebSocketUrl

def initializeSubsystem : World := w.setTimer .connect 500

def deinitializeSubsystem (isConnected : Bool) : World :=
  { w.closeConnected isConnected with deinitialized := true }

/-- The common end of `OnClosed` and `OnError`: tell the listeners and schedule a retry. -/
def disconnected (reason : String) : World :=
  (w.broadcast (.onConnectionChanged false reason)).setTimer .reconnect 3000

def onConnected : World := w.broadcast (.onConnectionChanged true "Connected")

def onClosed (_code : Int32) (reason : String) (_bWasClean : Bool) : World :=
  disconnected w reason

def onError (error : String) : World :=
  disconnected w (if error.isEmpty then "WebSocket connection failed without detail" else error)

def handle (P : Platform) : Callback → World
  | .onConnected => onConnected w
  | .onMessage message =>
    match onMessage P message with
    | some b => w.broadcast b
    | none => w
  | .onClosed code reason bWasClean => onClosed w code reason bWasClean
  | .onConnectionError error => onError w error

def TimerCallback.connects (isConnected : Bool) : TimerCallback → Bool
  | connect => true
  | reconnect => w.webSocket.isNone || !isConnected

def TimerCallback.run (t : TimerCallback) (isConnected : Bool) : World :=
  if t.connects w isConnected then DtProject.connect w else w

end Subsystem

/-- What the environment does: a pending timer fires, a socket delivers a callback, the URL is
edited, or the engine shuts the subsystem down. -/
inductive Event where
  | timer (i : ℕ) (isConnected : Bool)
  | callback (s : ℕ) (c : Callback)
  | setBackendWebSocketUrl (url : String)
  | deinitializeSubsystem (isConnected : Bool)
  deriving DecidableEq

def step (P : Platform) (w : World) : Event → Option World
  | .timer i isConnected =>
    (w.timers[i]?).map fun t => t.callback.run (w.takeTimer i) isConnected
  | .callback s c =>
    if s < w.sockets.length then some (handle (w.deliver s c) P c) else none
  | .setBackendWebSocketUrl url => some { w with backendWebSocketUrl := url }
  | .deinitializeSubsystem isConnected =>
    -- the engine runs `Deinitialize` once
    if w.deinitialized then none else some (deinitializeSubsystem w isConnected)

def start (url : String) : World :=
  initializeSubsystem ⟨url, none, [], [], [], 0, false, by simp⟩

def defaultUrl : String := "ws://127.0.0.1:8000/ws/ue5"

end DtProject
