import Mathlib.Data.List.Perm.Basic
import Tckr.Core.Machine

/-!
# The feed server

Connections arrive one at a time on the accept loop, which admits each of them
before it takes the next. A session that has started runs on its own and reports
its end whenever it comes to it, concurrently with the accept loop, with the
other sessions and with the shutdown. A step is one volatile access, one
interlocked operation or one block under the roster lock. A connection and the
session made of it share one number, in the order of arrival.
-/

namespace Tckr.Feed

/-- The setting admission reads, with the check of the server's constructor. -/
structure AdmissionOptions where
  maxSessions : Nat
  one_le_maxSessions : 1 ≤ maxSessions

/-- Why a connection is turned away. -/
inductive RejectReason
  | serverStopping
  | maxSessions
  | setupFailed
  deriving DecidableEq, Repr

/-- The session counters of the metrics; the rejections carry their reason as a tag. -/
structure FeedMetrics where
  acceptedTotal : Nat := 0
  rejectedTotal : Nat := 0
  closedTotal : Nat := 0
  sessionsRejected : List RejectReason := []
  deriving DecidableEq, Repr

namespace FeedMetrics

def sessionAccepted (m : FeedMetrics) : FeedMetrics :=
  { m with acceptedTotal := m.acceptedTotal + 1 }

def sessionRejected (m : FeedMetrics) (reason : RejectReason) : FeedMetrics :=
  { m with
    rejectedTotal := m.rejectedTotal + 1
    sessionsRejected := m.sessionsRejected ++ [reason] }

def sessionClosed (m : FeedMetrics) : FeedMetrics :=
  { m with closedTotal := m.closedTotal + 1 }

/-- The largest `int`. -/
def intMaxValue : Int := 2147483647

/-- Sessions currently open according to the accept/close ledger. -/
def sessionLedgerCount (m : FeedMetrics) : Int :=
  let opened : Int := m.acceptedTotal - m.closedTotal
  if opened ≤ 0 then 0 else min opened intMaxValue

end FeedMetrics

/-- Where the accept loop stands: waiting for a connection, or in the call of `Admit`. -/
inductive AcceptLoop
  | listening
  /-- About to read the stop flag. -/
  | entered (c : Nat)
  /-- About to take a slot. -/
  | counting (c : Nat)
  /-- The slot taken is one too many; about to give it back. -/
  | overLimit (c : Nat)
  /-- About to set the socket up and construct the session. -/
  | settingUp (c : Nat)
  /-- The set-up threw; about to give the slot back. -/
  | setupFailed (c : Nat)
  /-- About to enter the roster lock. -/
  | rostering (c : Nat)
  /-- Rostered; about to count the session as accepted. -/
  | accepting (c : Nat)
  /-- About to start the session. -/
  | starting (c : Nat)
  /-- The write loop runs; about to start the receive loop. -/
  | receiving (c : Nat)
  /-- `Start` threw; in the call of `OnSessionClosed`. -/
  | dropping (c : Nat)
  /-- About to reject the connection. -/
  | rejecting (c : Nat) (reason : RejectReason)
  | ended
  deriving DecidableEq, Repr

/-- The server, the threads that touch its roster, and a record of what happened. -/
structure FeedServer where
  stopped : Bool := false
  admitted : Int := 0
  /-- The publish roster. -/
  sessions : List Nat := []
  metrics : FeedMetrics := {}
  acceptLoop : AcceptLoop := .listening
  /-- The number of the next connection. -/
  nextConnection : Nat := 0
  /-- The sessions whose write loop runs. -/
  writeLoops : List Nat := []
  /-- The calls of `OnSessionClosed` about to enter the roster lock. -/
  removing : List Nat := []
  /-- The calls of `OnSessionClosed` that removed their session, about to give its slot back. -/
  releasing : List Nat := []
  /-- The calls of `OnSessionClosed` about to count the session as closed. -/
  closing : List Nat := []
  /-- The shutdown token is cancelled and the listener closed. -/
  cancelled : Bool := false
  /-- The sessions `StopAsync` took out of the roster, once it did. -/
  drained : Option (List Nat) := none
  /-- The connections that took a slot, once for each time. -/
  taken : List Nat := []
  /-- The connections whose slot was given back, once for each time. -/
  returned : List Nat := []
  /-- The connections `Admit` turned away. -/
  refused : List Nat := []
  /-- The sessions counted as accepted, once for each time. -/
  accepted : List Nat := []
  /-- The sessions counted as closed, once for each time. -/
  closed : List Nat := []
  deriving DecidableEq, Repr

namespace FeedServer

variable (o : AdmissionOptions) (s : FeedServer)

/-- Take a slot for a connection. -/
def incrementAdmitted (c : Nat) : FeedServer :=
  { s with admitted := s.admitted + 1, taken := c :: s.taken }

/-- Give a connection's slot back. -/
def decrementAdmitted (c : Nat) : FeedServer :=
  { s with admitted := s.admitted - 1, returned := c :: s.returned }

/-- Close the socket of a connection that cannot be served. -/
def reject (c : Nat) (reason : RejectReason) : FeedServer :=
  { s with metrics := s.metrics.sessionRejected reason, refused := c :: s.refused }

/-- The block of `Admit` under the roster lock. -/
def admitToRoster (c : Nat) : FeedServer :=
  if s.stopped then
    let s := s.decrementAdmitted c
    { s with refused := c :: s.refused, acceptLoop := .listening }
  else
    { s with sessions := s.sessions ++ [c], acceptLoop := .accepting c }

/-- One step of the accept loop inside `Admit`, where nothing throws. -/
def admitStep : AcceptLoop → Option FeedServer
  | .entered c =>
      some { s with acceptLoop := if s.stopped then .rejecting c .serverStopping else .counting c }
  | .counting c =>
      let t := s.incrementAdmitted c
      some { t with
        acceptLoop := if t.admitted > o.maxSessions then .overLimit c else .settingUp c }
  | .overLimit c =>
      some { s.decrementAdmitted c with acceptLoop := .rejecting c .maxSessions }
  | .settingUp c => some { s with acceptLoop := .rostering c }
  | .setupFailed c =>
      some { s.decrementAdmitted c with acceptLoop := .rejecting c .setupFailed }
  | .rostering c => some (s.admitToRoster c)
  | .accepting c =>
      some { s with
        metrics := s.metrics.sessionAccepted
        accepted := c :: s.accepted
        acceptLoop := .starting c }
  | .starting c => some { s with writeLoops := c :: s.writeLoops, acceptLoop := .receiving c }
  | .receiving _ => some { s with acceptLoop := .listening }
  | .dropping c =>
      -- `OnSessionClosed` runs on this thread, so `Admit` returns only after it.
      if c ∈ s.removing ∨ c ∈ s.releasing ∨ c ∈ s.closing then none
      else some { s with acceptLoop := .listening }
  | .rejecting c reason => some { s.reject c reason with acceptLoop := .listening }
  | .listening => none
  | .ended => none

/-- The two places of `Admit` that can throw: setting a session up, and starting it, up to
the point where its write loop is queued. -/
def throws : AcceptLoop → Option FeedServer
  | .settingUp c => some { s with acceptLoop := .setupFailed c }
  | .starting c => some { s with removing := c :: s.removing, acceptLoop := .dropping c }
  | _ => none

/-- The block of `OnSessionClosed` under the roster lock. -/
def removeSession (c : Nat) : FeedServer :=
  if c ∈ s.sessions then
    { s with
      sessions := s.sessions.erase c
      removing := s.removing.erase c
      releasing := c :: s.releasing }
  else
    { s with removing := s.removing.erase c, closing := c :: s.closing }

/-- `OnSessionClosed` gives the slot of a session it removed back. -/
def releaseSlot (c : Nat) : FeedServer :=
  { s.decrementAdmitted c with
    releasing := s.releasing.erase c
    closing := c :: s.closing }

/-- `OnSessionClosed` counts the session as closed and returns. -/
def countClosed (c : Nat) : FeedServer :=
  { s with
    metrics := s.metrics.sessionClosed
    closing := s.closing.erase c
    closed := c :: s.closed }

/-- `StopAsync` takes the roster. -/
def takeRoster : FeedServer := { s with drained := some s.sessions, sessions := [] }

inductive Action
  /-- The listener hands the accept loop a connection. -/
  | accept
  | admitStep
  | throws
  /-- A write loop ends, for whatever reason, and calls `OnSessionClosed`. -/
  | finish (c : Nat)
  | removeSession (c : Nat)
  | releaseSlot (c : Nat)
  | countClosed (c : Nat)
  /-- `StopAsync` is called; a second call returns at once. -/
  | stop
  | cancel
  /-- The accept loop notices the cancellation. -/
  | endAccepting
  | takeRoster
  deriving DecidableEq, Repr

def step : Action → Option FeedServer
  | .accept =>
      if s.acceptLoop = .listening then
        some { s with
          acceptLoop := .entered s.nextConnection
          nextConnection := s.nextConnection + 1 }
      else none
  | .admitStep => s.admitStep o s.acceptLoop
  | .throws => s.throws s.acceptLoop
  | .finish c =>
      if c ∈ s.writeLoops then
        some { s with writeLoops := s.writeLoops.erase c, removing := c :: s.removing }
      else none
  | .removeSession c => if c ∈ s.removing then some (s.removeSession c) else none
  | .releaseSlot c => if c ∈ s.releasing then some (s.releaseSlot c) else none
  | .countClosed c => if c ∈ s.closing then some (s.countClosed c) else none
  | .stop => some { s with stopped := true }
  | .cancel => if s.stopped then some { s with cancelled := true } else none
  | .endAccepting =>
      if s.cancelled ∧ s.acceptLoop = .listening then some { s with acceptLoop := .ended } else none
  | .takeRoster =>
      -- `StopAsync` awaits the accept loop before it takes the roster.
      if s.cancelled ∧ s.acceptLoop = .ended ∧ s.drained = none then some s.takeRoster else none

end FeedServer

/-- A started server, in every order of its threads. -/
def feedServer (o : AdmissionOptions) : Machine FeedServer FeedServer.Action where
  init := {}
  step s a := s.step o a

end Tckr.Feed
