import Mathlib.Data.Rat.Defs
import Mathlib.Algebra.Order.Ring.Rat
import Tckr.MarketWatch.Contracts.Messages

/-!
# Reconnect policy

How long to wait before the next attempt, whether a close is worth an attempt at
all, and the watchdog that declares a silent connection dead.
-/

namespace Tckr.MarketWatch

/-- Backoff in milliseconds. -/
structure BackoffPolicy where
  /-- Delay before the first retry. -/
  baseMs : Rat
  /-- The delay never grows past this. -/
  ceilingMs : Rat
  /-- Fraction of the delay it may move either way. -/
  jitter : Rat

def defaultBackoffPolicy : BackoffPolicy where
  baseMs := 500
  ceilingMs := 30000
  jitter := 1 / 5

/-- The delay before attempt `attempt`, the first being 1, for a draw in `[0, 1)`. -/
def nextDelay (attempt : Nat) (policy : BackoffPolicy) (rand : Rat) : Rat :=
  let centre := min (policy.baseMs * 2 ^ (attempt - 1)) policy.ceilingMs
  let span := centre * policy.jitter
  let low := centre - span
  let high := centre + span
  low + rand * (high - low)

/-- Whether a close of the contract is retried. -/
def shouldReconnect : CloseCode → Bool
  | .normal => false
  | .unauthenticated => false
  | .tokenExpired => true
  | .heartbeatTimeout => true
  | .slowConsumer => true
  | .other _ => false

/-- Whether any close is retried: a code outside the contract counts as a server fault. -/
def reconnectDecisionFor : CloseCode → Bool
  | .other _ => true
  | .normal => shouldReconnect .normal
  | .unauthenticated => shouldReconnect .unauthenticated
  | .tokenExpired => shouldReconnect .tokenExpired
  | .heartbeatTimeout => shouldReconnect .heartbeatTimeout
  | .slowConsumer => shouldReconnect .slowConsumer

/-- A deadline that every pulse moves and that fires once. -/
structure HeartbeatWatchdog where
  deadlineMs : Nat
  /-- When the armed timer is due. -/
  handle : Option Nat
  stopped : Bool
  deriving DecidableEq

namespace HeartbeatWatchdog

def arm (w : HeartbeatWatchdog) (now : Nat) : HeartbeatWatchdog :=
  if w.stopped then w else { w with handle := some (now + w.deadlineMs) }

def create (heartbeatIntervalMs now : Nat) : HeartbeatWatchdog :=
  arm ⟨heartbeatIntervalMs * 2, none, false⟩ now

def pulse (w : HeartbeatWatchdog) (now : Nat) : HeartbeatWatchdog := w.arm now

def stop (w : HeartbeatWatchdog) : HeartbeatWatchdog :=
  { w with stopped := true, handle := none }

/-- The timer's own callback, before it reports the timeout. -/
def fired (w : HeartbeatWatchdog) : HeartbeatWatchdog := { w with handle := none, stopped := true }

end HeartbeatWatchdog

end Tckr.MarketWatch
