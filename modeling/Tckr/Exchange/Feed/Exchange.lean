import Mathlib.Logic.Function.Basic
import Tckr.Exchange.Feed.Admission
import Tckr.Exchange.Feed.Contents

/-!
# The exchange as a whole

The feed server, the sessions it serves, and the one thread that publishes to them. A
publication reads the roster once and calls the sessions in it one after another, while
connections come and go and every session drains at its own pace. The steps are those of
the server and of its sessions, tied where one waits for the other: a session starts in
`Admit`, its write loop runs from there, and its end is reported when that loop is done.
-/

namespace Tckr.Feed

open Protocol

/-- What the server is built from; every session gets an identifier of its own. -/
structure ExchangeConfig where
  admission : AdmissionOptions
  feed : FeedServerOptions
  sessionId : Nat → Guid

/-- Where the publishing thread stands in `Publish`. -/
inductive Publication
  | idle
  /-- Between two calls, with the sessions still to be called. -/
  | visiting (batch : List FeedRecord) (rest : List Nat) (reached : Nat)
  /-- In the call of a session's `TryPublish`. -/
  | calling (batch : List FeedRecord) (c : Nat) (rest : List Nat) (reached : Nat)
  deriving DecidableEq, Repr

namespace Publication

/-- The session being called. -/
def callee? : Publication → Option Nat
  | .calling _ c _ _ => some c
  | .idle | .visiting .. => none

/-- The sessions still to be called. -/
def rest : Publication → List Nat
  | .idle => []
  | .visiting _ rest _ | .calling _ _ rest _ => rest

/-- The batch being published. -/
def batch? : Publication → Option (List FeedRecord)
  | .idle => none
  | .visiting batch _ _ | .calling batch _ _ _ => some batch

/-- Count the calls that queued the batch. -/
def reach (count : Nat) : Publication → Publication
  | .calling batch c rest reached => .calling batch c rest (reached + count)
  | .idle => .idle
  | .visiting batch rest reached => .visiting batch rest reached

end Publication

/-- The server, its sessions by connection, and the publishing thread. -/
structure Exchange where
  server : FeedServer := {}
  session : Nat → Session := fun _ => {}
  publication : Publication := .idle
  /-- The batches published, the one under way last. -/
  published : List (List FeedRecord) := []
  /-- What the calls of `Publish` returned: the sessions each of them reached. -/
  reached : List Nat := []

namespace Exchange

variable (k : ExchangeConfig) (e : Exchange)

/-- Whether the server may take a step as far as its sessions go: `Start` returns once it has
queued the first frame, and a session reports its end when its write loop is done. -/
def admits : FeedServer.Action → Bool
  | .admitStep => match e.server.acceptLoop with
      | .starting c => (e.session c).started
      | _ => true
  | .finish c => (e.session c).writeLoop = .finished
  | _ => true

/-- Whether a party of a session may take a step as far as the rest goes. The publishing thread
is in one call at a time, and enters it from `Publish` only. The peer, the timer and the server
may act on a session at any time from its connection on. -/
def permits (c : Nat) : Session.Action → Bool
  | .publisher (.tryPublish _) => false
  | .publisher _ => e.publication.callee? = some c
  | .owner (.start _) => e.server.acceptLoop = .starting c
  | .owner _ => c < e.server.nextConnection
  | .writeLoop .run => c ∈ e.server.writeLoops
  | .writeLoop _ | .handler _ => true

inductive Action
  | server (a : FeedServer.Action)
  | session (c : Nat) (a : Session.Action)
  /-- A call of `Publish`, which reads the roster. -/
  | publish (batch : List FeedRecord)
  /-- Call the next session's `TryPublish`. -/
  | visit
  /-- The call of `TryPublish` returns, or, behind the last of them, that of `Publish`. -/
  | finish
  deriving DecidableEq, Repr

/-- A session's step, with what it means for the publication: `TryPublish` returns true for a
batch that it queues. -/
def sessionStep (c : Nat) (a : Session.Action) : Option Exchange :=
  ((e.session c).step k.feed (k.sessionId c) a).map fun t =>
    { e with
      session := Function.update e.session c t
      publication := e.publication.reach (if (e.session c).accepted a = [] then 0 else 1) }

def step : Action → Option Exchange
  | .server a =>
      if e.admits a then (e.server.step k.admission a).map fun t => { e with server := t } else none
  | .session c a => if e.permits c a then e.sessionStep k c a else none
  | .publish batch => match e.publication with
      | .idle => some { e with
          published := e.published ++ [batch]
          publication := .visiting batch (if batch = [] then [] else e.server.sessions) 0 }
      | _ => none
  | .visit => match e.publication with
      | .visiting batch (c :: rest) reached =>
          ((e.session c).step k.feed (k.sessionId c) (.publisher (.tryPublish batch))).map fun t =>
            { e with
              session := Function.update e.session c t
              publication := .calling batch c rest reached }
      | _ => none
  | .finish => match e.publication with
      | .calling batch c rest reached =>
          if (e.session c).publisher = .idle then
            some { e with publication := .visiting batch rest reached }
          else none
      | .visiting _ [] reached =>
          some { e with publication := .idle, reached := e.reached ++ [reached] }
      | _ => none

/-- The step that an action of the exchange is for one of its sessions. -/
def part (c : Nat) (e : Exchange) : Action → List Session.Action
  | .session d a => if d = c then [a] else []
  | .visit => match e.publication with
      | .visiting batch (d :: _) _ => if d = c then [.publisher (.tryPublish batch)] else []
      | _ => []
  | .server _ | .publish _ | .finish => []

end Exchange

/-- A server that has just been started, and everything that may happen to it. -/
def exchange (k : ExchangeConfig) : Machine Exchange Exchange.Action where
  init := {}
  step := Exchange.step k

/-- What happens to one session in a run of the exchange. -/
def sessionRun (k : ExchangeConfig) (as : List Exchange.Action) (c : Nat) : List Session.Action :=
  (exchange k).outputs (Exchange.part c) {} as

end Tckr.Feed
