import Tckr.Core.Machine
import Tckr.FeedProbe.LossCount

/-!
# A run of the probe

The probe connects, reads one session-start frame, streams until something ends the run,
and reports. The clocks and the operator decide what happens next, so each of their
decisions is an action; a read returns whatever bytes have come, in whatever segments the
pipe holds them. The report is kept but for its times, and for the rates, of which the
exit code asks one thing only.
-/

namespace Tckr.FeedProbe

open Protocol

/-- The options that decide what a run does and what it counts as. -/
structure ProbeOptions where
  verifyOrder : Bool := false
  expectDrops : Bool := false
  /-- A pause of the reads is asked for. -/
  stallAfter : Bool := false
  deriving DecidableEq, Repr

inductive EndReason
  | connectFailed
  | refused
  | framingError
  | durationElapsed
  | ctrlC
  | stale
  | reset
  | eof
  deriving DecidableEq, Repr

/-- What happened when reading resumed after the pause. -/
inductive StallOutcome
  | notApplicable
  | continued
  | interrupted
  | stale
  | reset
  | framingError
  | eof
  deriving DecidableEq, Repr

/-- A frame that the reader or the dispatcher rejected. -/
inductive FramingError
  | invalidData (e : InvalidDataException)
  | unexpectedSessionStart
  | firstFrame (type : FeedMessageType)
  deriving DecidableEq, Repr

/-- The text of a framing error in the report. -/
def FramingError.message : FramingError → String
  | .invalidData e => e.message
  | .unexpectedSessionStart => "Unexpected SessionStart frame mid-stream."
  | .firstFrame type => s!"First frame on the connection was {type.name}, not SessionStart."

/-- The read loop catches invalid data only. -/
def ProbeException.framingError? : ProbeException → Option FramingError
  | .feed (.invalidData e) => some (.invalidData e)
  | .feed (.argument _) => none
  | .unexpectedSessionStart => some .unexpectedSessionStart

/-- The most framing errors that are kept. -/
def maxFramingErrors : Nat := 64

/-- What a read of the pipe returns: the bytes received since the last read, the sizes of the
segments the buffer has with them, and whether the peer has closed its side. -/
structure ReadResult where
  chunk : Bytes
  sizes : List Nat
  isCompleted : Bool
  stamps : Stamps
  deriving DecidableEq, Repr

/-- The buffer of a read, behind the bytes left unread before. -/
def ReadResult.buffer (r : ReadResult) (unread : Bytes) : ReadOnlySequence UInt8 :=
  .layout r.sizes (unread ++ r.chunk)

/-- Where a run stands. -/
inductive Phase
  | connecting
  | handshaking
  | streaming
  /-- In the pause of `--stall-after`. -/
  | stalled
  | ended (reason : EndReason)
  /-- Out of an exception that nothing catches. -/
  | crashed
  deriving DecidableEq, Repr

/-- One run of the probe. -/
structure Probe where
  phase : Phase := .connecting
  sessionId : Guid := default
  session : ProbeSession := {}
  /-- The bytes received and not consumed. -/
  unread : Bytes := []
  framingErrors : List FramingError := []
  stallTriggered : Bool := false
  stallOutcome : StallOutcome := .notApplicable
  deriving DecidableEq

namespace Probe

variable (p : Probe)

/-- Record a framing error, up to the bound. -/
def recordFramingError (e : FramingError) : Probe :=
  if p.framingErrors.length < maxFramingErrors then
    { p with framingErrors := p.framingErrors ++ [e] }
  else p

/-- End the run. A pause that nothing came of is reported as continued. -/
def finish (reason : EndReason) : Probe :=
  { p with
    phase := .ended reason
    stallOutcome :=
      if p.stallTriggered = true ∧ p.stallOutcome = .notApplicable ∧
        (reason = .durationElapsed ∨ reason = .ctrlC) then .continued else p.stallOutcome }

/-- After a pause, name what ended the run. -/
def afterStall (outcome : StallOutcome) : Probe :=
  { p with stallOutcome := if p.stallTriggered then outcome else p.stallOutcome }

/-- The handshake fails on a frame. -/
def failHandshake (e : FramingError) : Probe :=
  { p.recordFramingError e with phase := .ended .framingError }

/-- One read of `EstablishSessionAsync`: the first frame has to be a session start. -/
def establishSession (r : ReadResult) : Probe :=
  match tryReadFrame (r.buffer p.unread) with
  | (_, .error e) => p.failHandshake (.invalidData e)
  | (rest, .ok none) =>
    if r.isCompleted then { p with unread := rest.toList, phase := .ended .refused }
    else { p with unread := rest.toList }
  | (rest, .ok (some (type, payload))) =>
    if type ≠ .sessionStart then p.failHandshake (.firstFrame type)
    else match readSessionStart payload.toList with
      | .error e => p.failHandshake (.invalidData e)
      | .ok (sessionId, heartbeatIntervalMs, _) =>
        { p with
          phase := .streaming
          sessionId
          session := { p.session with heartbeatIntervalMs }
          unread := rest.toList }

/-- One read of `RunReadLoopAsync`. -/
def readStream (r : ReadResult) : Probe :=
  match p.session.processBuffer (r.buffer p.unread) r.stamps with
  | (session, .error e) => match e.framingError? with
    | some e =>
      (({ p with session }.recordFramingError e).afterStall .framingError).finish .framingError
    | none => { p with session, phase := .crashed }
  | (session, .ok rest) =>
    let read := { p with session, unread := rest.toList }
    if r.isCompleted then (read.afterStall .eof).finish .eof else read

inductive Action
  | connected
  | connectFailed
  | read (r : ReadResult)
  /-- A bound on the handshake or on a read runs out. -/
  | timedOut
  /-- A read throws. -/
  | readFailed
  | ctrlC
  | durationElapsed
  | stall
  | resume
  deriving DecidableEq, Repr

def step (o : ProbeOptions) : Action → Option Probe
  | .connected => match p.phase with
      | .connecting => some { p with
          phase := .handshaking, session := { p.session with verifyOrder := o.verifyOrder } }
      | _ => none
  | .connectFailed => match p.phase with
      | .connecting => some { p with phase := .ended .connectFailed }
      | _ => none
  | .read r => match p.phase with
      | .handshaking => some (p.establishSession r)
      | .streaming => some (p.readStream r)
      | _ => none
  | .timedOut => match p.phase with
      | .handshaking => some { p with phase := .ended .connectFailed }
      | .streaming => some ((p.afterStall .stale).finish .stale)
      | _ => none
  | .readFailed => match p.phase with
      | .handshaking => some { p with phase := .ended .connectFailed }
      | .streaming => some ((p.afterStall .reset).finish .reset)
      | _ => none
  | .ctrlC => match p.phase with
      | .connecting | .handshaking => some { p with phase := .ended .connectFailed }
      | .streaming => some (p.finish .ctrlC)
      | .stalled => some ({ p with stallOutcome := .interrupted }.finish .ctrlC)
      | _ => none
  | .durationElapsed => match p.phase with
      | .streaming => some (p.finish .durationElapsed)
      | _ => none
  | .stall => match p.phase with
      | .streaming =>
        if o.stallAfter ∧ p.stallTriggered = false then
          some { p with phase := .stalled, stallTriggered := true }
        else none
      | _ => none
  | .resume => match p.phase with
      | .stalled => some { p with phase := .streaming }
      | _ => none

end Probe

/-- The probe against any peer, clock and operator. -/
def probe (o : ProbeOptions) : Machine Probe Probe.Action where
  init := {}
  step p a := p.step o a

/-! ## The report -/

/-- The exit codes: 0 pass, 1 gaps or framing errors, 2 a rate outside the tolerance, 3 no
session. The comparison of the rates is given. -/
def determineExitCode (sessionEstablished : Bool)
    (framingErrorCount integrityViolationCount gapCount : Nat) (expectDrops offRate : Bool) : Nat :=
  if !sessionEstablished then 3
  else if 0 < framingErrorCount ∨ 0 < integrityViolationCount ∨
    (0 < gapCount ∧ expectDrops = false) then 1
  else if offRate then 2 else 0

/-- The report, but for times and rates. The samples of the symbols stand for what the table of
symbols makes of them. -/
structure ProbeReport where
  sessionEstablished : Bool
  sessionId : Guid
  heartbeatIntervalMsAdvertised : UInt32
  endReason : Option EndReason
  eventsReceived : UInt64
  gaps : List GapEvent
  recordsLost : UInt64
  integrityViolations : List SequenceIntegrityViolation
  framingErrors : List FramingError
  expectDrops : Bool
  totalBytes : Nat
  tradeCount : Nat
  bidCount : Nat
  askCount : Nat
  symbolTicks : List (Symbol8 × Int64)
  auctionPrintCount : Nat
  heartbeatCount : Nat
  verifyOrderEnabled : Bool
  orderViolations : List OrderViolationEvent
  stallOutcome : StallOutcome
  /-- By whether the achieved rate is off its target. -/
  exitCode : Bool → Nat

namespace Probe

variable (p : Probe)

def endReason? : Option EndReason := match p.phase with
  | .ended reason => some reason
  | _ => none

/-- Whether the report is one of a session. -/
def sessionEstablished : Bool :=
  decide (p.endReason? ≠ some .connectFailed ∧ p.endReason? ≠ some .refused)

def buildReport (o : ProbeOptions) : ProbeReport where
  sessionEstablished := p.sessionEstablished
  sessionId := p.sessionId
  heartbeatIntervalMsAdvertised := p.session.heartbeatIntervalMs
  endReason := p.endReason?
  eventsReceived := p.session.eventsReceived
  gaps := p.session.gaps
  recordsLost := p.session.recordsLost
  integrityViolations := p.session.integrityViolations
  framingErrors := p.framingErrors
  expectDrops := o.expectDrops
  totalBytes := p.session.totalBytes
  tradeCount := p.session.tradeCount
  bidCount := p.session.bidCount
  askCount := p.session.askCount
  symbolTicks := p.session.symbolTicks
  auctionPrintCount := p.session.auctionPrintCount
  heartbeatCount := p.session.heartbeatCount
  verifyOrderEnabled := o.verifyOrder
  orderViolations := p.session.orderViolations
  stallOutcome := p.stallOutcome
  exitCode := determineExitCode p.sessionEstablished p.framingErrors.length
    p.session.integrityViolations.length p.session.gaps.length o.expectDrops

end Probe

end Tckr.FeedProbe
