import KeywordRunner.CommandLine.Program
import KeywordRunner.Net.Endpoint
import KeywordRunner.Server.Traffic
import Std.Async.DNS
import Std.Async.Signal
import Std.Async.TCP
import Std.Sync.Channel
import Std.Sync.Mutex

/-!
# Main — the program in the real world

Files, the environment, the terminal and the network as a `CommandLine.Host`. The running server is
a `Server.Traffic` behind a lock: what happens on the network becomes an act, and whatever the act
leaves unsent goes to the sockets.
-/

namespace KeywordRunner.Live

open CommandLine (Host Listening)
open Config (FileContent)
open Server (Traffic)
open Std.Async (Async await background)
open Std.Async.TCP (Socket.Server Socket.Client)

/-! ### Files -/

/-- The errors of the operating system that users know by their texts. -/
def systemErrors : List (UInt32 × String) :=
  [(2, "No such file or directory"), (13, "Permission denied"), (20, "Not a directory"),
    (21, "Is a directory"), (36, "File name too long"),
    (40, "Too many levels of symbolic links"), (98, "Address already in use"),
    (99, "Cannot assign requested address")]

/-- The number of a system error, which may come negated, and what the system says about it. -/
def systemError? (e : IO.Error) : Option (UInt32 × String) :=
  match e with
  | .alreadyExists _ code details | .otherError code details | .resourceBusy code details
  | .resourceVanished code details | .unsupportedOperation code details
  | .hardwareFault code details | .unsatisfiedConstraints code details
  | .illegalOperation code details | .protocolError code details | .timeExpired code details
  | .interrupted _ code details | .noFileOrDirectory _ code details
  | .invalidArgument _ code details | .permissionDenied _ code details
  | .resourceExhausted _ code details | .inappropriateType _ code details
  | .noSuchThing _ code details => some (min code (0 - code), details)
  | .unexpectedEof | .userError _ => none

def reason (e : IO.Error) : String :=
  match systemError? e with
  | none => toString e
  | some (code, details) =>
    (systemErrors.lookup code).getD details ++ " (os error " ++ Digits.text code.toNat ++ ")"

def readFile (path : String) : IO FileContent := do
  try
    match String.fromUTF8? (← IO.FS.readBinFile path) with
    | some text => pure (.text text)
    | none => pure (.unreadable "stream did not contain valid UTF-8")
  catch
    | .noFileOrDirectory .. => pure .missing
    | e => pure (.unreadable (reason e))

/-! ### The server -/

/-- A server that is running: its traffic, and the frames that the writer of each connection has
yet to send. -/
structure State where
  traffic : Traffic
  writers : Array (Std.CloseableChannel String)

abbrev Running := Std.Mutex State

namespace Running

/-- Changes the traffic, and passes what that leaves unsent to the writers. -/
def change {α : Type} (r : Running) (f : Traffic → α × Traffic) : IO α :=
  r.atomically (m := IO) do
    let s ← get
    let (a, t) := f s.traffic
    let (t, unsent) := t.takeUnsent
    for (writer, messages) in s.writers.toList.zip unsent do
      for m in messages do
        discard (writer.trySend (Wire.encodeFrame m))
    set ({ s with traffic := t } : State)
    return a

/-- An act of a connection and all the effects it decides on; whether it still listens. -/
def connectionAct (r : Running) (peer : Nat) (act : Traffic.Act) : IO Bool :=
  r.change fun t =>
    let t := ((t.step act).getD t).performAll peer
    ((t.peers[peer]?.map (·.connection.dialogue.isListening)).getD false, t)

partial def write (socket : Socket.Client) (frames : Std.CloseableChannel String) :
    Async Unit := do
  match ← await (← frames.recv) with
  | some frame =>
    socket.send frame.toUTF8
    write socket frames
  | none => socket.shutdown

/-- Reads until the stream or the interest in it ends. -/
partial def read (r : Running) (socket : Socket.Client) (peer : Nat) : Async Unit := do
  match ← socket.recv? 8192 with
  | some bytes => if ← r.connectionAct peer (.receive peer bytes) then r.read socket peer
  | none => pure ()

/-- The address at the other end of a connection. -/
def peerAddress (socket : Socket.Client) : IO (Option SocketAddress) := do
  try
    match ← socket.getPeerName with
    | .v4 a =>
      let o := a.addr.octets
      return some (.v4 o[0] o[1] o[2] o[3] a.port)
    | .v6 a => return some (.v6 a.addr.segments 0 a.port)
  catch _ => return none

def serve (r : Running) (socket : Socket.Client) : Async Unit := do
  let frames ← Std.CloseableChannel.new
  let address ← peerAddress socket
  let peer ← r.atomically (m := IO) do
    let s ← get
    let t := (s.traffic.step (.accept address)).getD s.traffic
    set ({ traffic := t, writers := s.writers.push frames } : State)
    return s.writers.size
  background (write socket frames)
  try r.read socket peer catch _ => pure ()
  discard (r.connectionAct peer (.finish peer) : IO Bool)
  discard (frames.close.toBaseIO : BaseIO _)

/-- Accepts connections for good. -/
partial def accept (r : Running) (listener : Socket.Server) : Async Unit := do
  let socket ← listener.accept
  background (r.serve socket)
  r.accept listener

/-- Tries again and again, up to a deadline. -/
partial def retry {α : Type} (deadline : Nat) (attempt : IO (Option α)) : IO (Option α) := do
  match ← attempt with
  | some a => return some a
  | none =>
    if deadline ≤ (← IO.monoMsNow) then return none
    IO.sleep 1
    retry deadline attempt

def deadline (d : Duration) : IO Nat := return (← IO.monoMsNow) + d.millis

/-- A step of a call on a session. -/
def onSession {α : Type} (r : Running) (key : Server.SessionKey) (absent : α)
    (f : Session → Session × α) : IO α :=
  r.change fun t =>
    match t.station.session? key with
    | none => (absent, t)
    | some s =>
      let (s, a) := f s
      (a, { t with station := t.station.update key fun _ => s })

/-- How keywords reach the device of a session. -/
def port (r : Running) (key : Server.SessionKey) (deviceId : String) (timeout : Duration) :
    DevicePort IO where
  attached := pure (.ok ())
  call name args version := do
    let lost : CallFault := .connectionClosed deviceId
    let request : Request := ⟨name, args, timeout, version⟩
    match ← r.onSession key (.error lost) fun s => s.request request with
    | .error fault => return .error fault
    | .ok id =>
      let poll := r.onSession key (some (.error lost)) fun s => s.poll name id
      return (← retry (← deadline timeout) poll).getD (.error (.timeout timeout))

def awaitDevice (r : Running) (callTimeout : Duration) (deviceId : String) (wait : Duration) :
    IO (Option (DevicePort IO)) := do
  let look := r.change fun t => (t.station.lookup? deviceId, t)
  let key ← retry (← deadline wait) look
  return key.map fun key => r.port key deviceId callTimeout

def shutdown (r : Running) : IO Unit := do
  r.change fun t => ((), t.shutDown)
  IO.sleep 50

end Running

/-! ### Addresses -/

def addresses : Endpoint → IO (Array Std.Net.SocketAddress)
  | .address (.v4 a b c d port) => return #[.v4 ⟨.ofParts a b c d, port⟩]
  | .address (.v6 g _ port) =>
    return #[.v6 ⟨.ofParts g[0] g[1] g[2] g[3] g[4] g[5] g[6] g[7], port⟩]
  | .named host port => do
    try
      let found ← (Std.Async.DNS.getAddrInfo host "").block
      return found.map fun
        | .v4 a => .v4 ⟨a, port⟩
        | .v6 a => .v6 ⟨a, port⟩
    catch e =>
      let details := ((systemError? e).map (·.2)).getD (toString e)
      throw (IO.userError (lookupFailure details))

/-- A listening socket on the first address that admits one. -/
def bind (text : String) : IO Socket.Server := do
  let endpoint ← IO.ofExcept ((Endpoint.read text).mapError EndpointFault.message)
  let mut last := IO.userError "could not resolve to any address"
  for address in ← addresses endpoint do
    try
      let listener ← Socket.Server.mk
      listener.bind address
      listener.listen 1024
      return listener
    catch e => last := e
  throw last

def listen (address : String) (callTimeout : Duration) : IO (Except String (Listening IO)) := do
  try
    let listener ← bind address
    let r : Running ← Std.Mutex.new ⟨.idle callTimeout, #[]⟩
    discard (Async.toIO (r.accept listener))
    return .ok { awaitDevice := r.awaitDevice callTimeout, shutdown := r.shutdown }
  catch e => return .error (reason e)

/-- Returns at the next interrupt. -/
def interrupted : IO Unit := do
  let signal ← Std.Async.Signal.Waiter.mk .sigint false
  discard (← signal.wait).block

def host : Host IO where
  environment? name := IO.getEnv name
  read := readFile
  printLine text := do
    IO.println text
    (← IO.getStdout).flush
  listen := listen
  interrupted := interrupted

end KeywordRunner.Live

def main (args : List String) : IO UInt32 := do
  let exit ← KeywordRunner.CommandLine.launch KeywordRunner.Live.host args
  IO.eprint exit.diagnostics
  return UInt32.ofNat exit.status
