import KeywordRunner.Session.Basic

/-!
# Server.Directory — which session a device id stands for

Sessions live in a `Station`, each under a key of its own that is never used again; the directory
maps device ids to keys. A later registration of an id replaces the earlier one, and a connection
that cleans up removes its own session only, not one that took its place. Each function is one
indivisible step, except `closeAll`, which is a sequence of such steps.
-/

namespace KeywordRunner.Server

/-- What identifies a session. -/
abbrev SessionKey := Nat

/-- The registered session of each device id. -/
abbrev Directory := Table SessionKey

/-- Every session ever made, by key, and the directory of the registered ones. -/
structure Station where
  sessions : List Session
  directory : Directory

namespace Station

def empty : Station := ⟨[], ∅⟩

instance : Inhabited Station := ⟨empty⟩

/-- A session by its key. -/
def session? (st : Station) (key : SessionKey) : Option Session := st.sessions[key]?

/-- Adds a session that is not registered yet. -/
def add (st : Station) (s : Session) : Station × SessionKey :=
  ({ st with sessions := st.sessions ++ [s] }, st.sessions.length)

/-- Changes one session. -/
def update (st : Station) (key : SessionKey) (f : Session → Session) : Station :=
  { st with sessions := st.sessions.modify key f }

/-- Registers a session under its device id; the key of the session it replaces. -/
def register (st : Station) (key : SessionKey) : Station × Option SessionKey :=
  match st.session? key with
  | none => (st, none)
  | some s =>
    ({ st with directory := st.directory.insert s.deviceId key }, st.directory.get? s.deviceId)

/-- The registered session of a device id. -/
def lookup? (st : Station) (deviceId : String) : Option SessionKey := st.directory.get? deviceId

/-- Removes a device id; the key it stood for. -/
def remove (st : Station) (deviceId : String) : Station × Option SessionKey :=
  ({ st with directory := st.directory.erase deviceId }, st.directory.get? deviceId)

/-- Removes a session, if it is still the registered one for its device id. -/
def removeSession (st : Station) (key : SessionKey) : Station × Bool :=
  match st.session? key with
  | none => (st, false)
  | some s =>
    if st.directory.get? s.deviceId = some key then
      ({ st with directory := st.directory.erase s.deviceId }, true)
    else (st, false)

/-- The registered device ids, increasing. -/
def deviceIds (st : Station) : List String := st.directory.keys

def count (st : Station) : Nat := st.directory.size

/-- The registered sessions, in the order of their device ids. -/
def registered (st : Station) : List SessionKey := st.directory.values

/-- The registered device ids with the addresses of their peers. -/
def list (st : Station) : List (String × Option SocketAddress) :=
  st.directory.entries.map fun e => (e.1, (st.session? e.2).bind (·.peer))

/-! ### Closing everything -/

/-- Empties the directory. -/
def clear (st : Station) : Station := { st with directory := ∅ }

/-- Sends one session a kill signal, if its writer is still there. -/
def sendKill (st : Station) (key : SessionKey) : Station := st.update key fun s => s.close.1

def markClosed (st : Station) (key : SessionKey) : Station := st.update key Session.markClosed

/-- Sends every registered session a kill signal and marks it closed; nothing stays registered. -/
def closeAll (st : Station) : Station :=
  st.registered.foldl (fun st key => (st.sendKill key).markClosed key) st.clear

/-! ### Waiting for a device -/

/-- A registration due some time after a wait begins. -/
structure Expected where
  after : Duration
  key : SessionKey

/-- Waits for a device id to be registered. The wait looks at once, again after each registration,
and a last time when its time is over; it ends with the first look that finds one. -/
def waitFor (st : Station) (deviceId : String) (timeout : Duration) :
    List Expected → Station × Option SessionKey
  | [] => (st, st.lookup? deviceId)
  | e :: later =>
    match st.lookup? deviceId with
    | some key => (st, some key)
    | none =>
      if e.after.millis < timeout.millis then
        (st.register e.key).1.waitFor deviceId ⟨timeout.millis - e.after.millis⟩ later
      else (st, none)

end Station

end KeywordRunner.Server
