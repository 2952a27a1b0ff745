import KeywordRunner.Session.Call

/-!
# Session.Callers — many callers on one session

Any number of callers may use a session at the same time, and each may run out of time or be given
up at any moment, while the device sends what it likes. Callers take turns: one that has its turn
keeps it until its call is over. `Callers.step` is one indivisible step of one of the parties, and a
run is a list of such steps in any order that the parties admit.
-/

namespace KeywordRunner

open Wire (Message)

/-- How far a caller has come with its call. -/
inductive CallStage where
  /-- About to look whether the session is closed. -/
  | entering
  | queued
  /-- Has its turn and forgets what is left over from earlier calls. -/
  | clearing
  /-- Has an id and is about to post its message. -/
  | numbered (id : UInt64)
  /-- Has posted its message and waits for the answer. -/
  | waiting (id : UInt64)
  /-- Over, with the id of the call if it got one. -/
  | finished (id : Option UInt64) (outcome : Except CallFault Message)
  | cancelled

namespace CallStage

def hasTurn : CallStage → Bool
  | .clearing | .numbered _ | .waiting _ => true
  | .entering | .queued | .finished _ _ | .cancelled => false

/-- Whether the call is over, one way or the other. -/
def isOver : CallStage → Bool
  | .finished _ _ | .cancelled => true
  | .entering | .queued | .clearing | .numbered _ | .waiting _ => false

end CallStage

structure Caller where
  request : Request
  stage : CallStage

/-- A session and everyone who calls over it. -/
structure Callers where
  session : Session
  callers : List Caller

namespace Callers

/-- What can happen next. -/
inductive Act where
  | join (r : Request)
  | proceed (caller : Nat)
  /-- The time of a waiting caller is over. -/
  | timeOut (caller : Nat)
  | cancel (caller : Nat)
  | deliver (d : Delivery)
  | close
  | dropWriter

def busy (c : Callers) : Bool := c.callers.any (·.stage.hasTurn)

def setStage (c : Callers) (i : Nat) (stage : CallStage) : Callers :=
  { c with callers := c.callers.modify i fun caller => { caller with stage } }

/-- A caller's next step from a stage, on a session that is `busy` or not: the session and the
caller's stage after it. There is none for a caller that must wait or whose call is over. -/
def next (s : Session) (busy : Bool) (r : Request) : CallStage → Option (Session × CallStage)
  | .entering =>
    some (s, if s.closed then .finished none (.error (.notConnected s.deviceId)) else .queued)
  | .queued => if busy then none else some (s, .clearing)
  | .clearing =>
    match s.inbox with
    | _ :: ms => some ({ s with inbox := ms }, .clearing)
    | [] =>
      let (s, id) := s.takeId
      some (s, .numbered id)
  | .numbered id =>
    match s.post (Message.call id r.name r.args r.version) with
    | some s => some (s, .waiting id)
    | none => some (s, .finished (some id) (.error (.connectionClosed s.deviceId)))
  | .waiting id =>
    match s.inbox with
    | m :: ms =>
      some ({ s with inbox := ms },
        if Session.answers id m then .finished (some id) (Session.outcomeOf r.name m)
        else .waiting id)
    | [] =>
      if s.inboxOpen then none
      else some (s, .finished (some id) (.error (.connectionClosed s.deviceId)))
  | .finished _ _ | .cancelled => none

/-- One step. An act that the situation does not admit has no outcome. -/
def step (c : Callers) : Act → Option Callers
  | .join r => some { c with callers := c.callers ++ [⟨r, .entering⟩] }
  | .proceed i =>
    c.callers[i]?.bind fun caller =>
      (next c.session c.busy caller.request caller.stage).map fun (session, stage) =>
        ({ c with session }).setStage i stage
  | .timeOut i =>
    c.callers[i]?.bind fun caller =>
      match caller.stage with
      | .waiting id =>
        some (c.setStage i (.finished (some id) (.error (.timeout caller.request.timeout))))
      | _ => none
  | .cancel i =>
    c.callers[i]?.bind fun caller =>
      if caller.stage.isOver then none else some (c.setStage i .cancelled)
  | .deliver d => some { c with session := c.session.deliver d }
  | .close => some { c with session := c.session.markClosed }
  | .dropWriter => some { c with session := c.session.dropWriter }

/-- A session that nobody calls over yet. -/
def idle (s : Session) : Callers := ⟨s, []⟩

/-- The situation after a list of acts, each of them admitted in its turn. -/
def run (c : Callers) (acts : List Act) : Option Callers := acts.foldlM step c

end Callers

end KeywordRunner
