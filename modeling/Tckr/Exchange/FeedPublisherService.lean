import Mathlib.Algebra.Order.Floor.Extended
import Tckr.Exchange.Feed.SharedTape
import Tckr.Exchange.Reanchoring

/-!
# The publisher over the exchange

The loop has one buffer, sized for the fastest rate its options can ask for and bounded
above. A batch that does not fit is generated and published in several passes over it,
and every pass is a call of the feed server's `Publish`, while connections come and go.
-/

namespace Tckr.Publisher

open Protocol Session Generation Feed

/-- The smallest buffer. -/
def minBatchCapacity : Nat := 64

/-- The largest buffer. -/
def maxBatchCapacity : Nat := 262144

/-- The largest batch the rate ceiling, the interval and the catch-up can ask for. -/
def withCatchUp (c : PublisherConfig) : ℚ :=
  max c.session.maxEventsPerSecond c.baseEventsPerSecond * c.governor.batchIntervalMs / 1000 *
    (1 + c.governor.maxCatchUpBatches)

/-- The size of the batch buffer. -/
def calculateBatchCapacity (c : PublisherConfig) : Nat :=
  if withCatchUp c ≤ minBatchCapacity then minBatchCapacity
  else if withCatchUp c ≥ maxBatchCapacity then maxBatchCapacity
  else ⌈withCatchUp c⌉.toNat

/-- A record as it stands in the buffer, its times and prices in 64 bits. -/
def wireRecord (r : TapeRecord) : FeedRecord where
  messageType := r.messageType
  flags := r.flags
  quantity := r.quantity
  sequenceNumber := r.sequenceNumber
  exchangeTimestampNanos := .ofInt r.exchangeTimestampNanos
  priceScaled := .ofInt r.priceScaled
  symbol := r.symbol

/-- What the service is built from. -/
structure ServiceConfig where
  publisher : PublisherConfig
  exchange : ExchangeConfig

/-- The loop and the exchange it publishes to. -/
structure FeedPublisherService where
  loop : Loop
  /-- The records of the batch under way still to be generated. -/
  owed : Nat := 0
  exchange : Exchange := {}

namespace FeedPublisherService

variable (c : ServiceConfig) (s : FeedPublisherService)

inductive Action
  /-- Advance the clock and wait for the next batch. -/
  | iterate (now : Int) (polls : List Poll)
  /-- Generate and publish what fits in the buffer. -/
  | pass (draws : List (Draws × Int))
  /-- The call of `Publish` goes on, or something else happens to the exchange. -/
  | exchange (a : Exchange.Action)

/-- The records of one pass, stamped by the phase. -/
def span (es : List Emission) : List TapeRecord :=
  if isAuctionPhase s.loop.clock.currentPhase then stampAuctionPrints (es.map Emission.record)
  else es.map Emission.record

/-- The head of the loop; the last call of `Publish` has returned. -/
def iterate (now : Int) (polls : List Poll) : Option FeedPublisherService :=
  if s.owed ≠ 0 ∨ s.loop.stopped ∨ s.exchange.publication ≠ .idle then none
  else
    let t := Publisher.advance c.publisher now s.loop
    let rate := t.clock.effectiveEventsPerSecond c.publisher.session c.publisher.baseEventsPerSecond
    match waitForNextBatch c.publisher.governor rate polls t.governor with
    | some (.due now, u, []) =>
      let result := scheduleBatch c.publisher.governor now u rate
      some { s with loop := { t with governor := result.2 }, owed := result.1.toNat }
    | some (.canceled, u, []) => some { s with loop := { t with governor := u, stopped := true } }
    | _ => none

/-- The body of the loop over the batch, up to the call of `Publish`. -/
def pass (draws : List (Draws × Int)) : Option FeedPublisherService :=
  let take := min s.owed (calculateBatchCapacity c.publisher)
  if s.owed = 0 ∨ draws.length ≠ take then none
  else
    (generate c.publisher.generator draws s.loop.generator).bind fun result =>
    (s.exchange.step c.exchange (.publish ((s.span result.1).map wireRecord))).map fun e =>
      { loop := { s.loop with
          generator := result.2
          published := s.loop.published ++ s.span result.1 }
        owed := s.owed - take
        exchange := e }

def step : Action → Option FeedPublisherService
  | .iterate now polls => s.iterate c now polls
  | .pass draws => s.pass c draws
  | .exchange (.publish _) => none
  | .exchange a => (s.exchange.step c.exchange a).map fun e => { s with exchange := e }

/-- What an action does to the exchange. -/
def part : Action → List Exchange.Action
  | .iterate .. => []
  | .pass draws => ((generate c.publisher.generator draws s.loop.generator).map fun result =>
      .publish ((s.span result.1).map wireRecord)).toList
  | .exchange a => [a]

end FeedPublisherService

/-- The service over a generator, from the instant its clock was built at. -/
def feedPublisherService (c : ServiceConfig) (g : RandomWalkGenerator) (anchor : Int) :
    Machine FeedPublisherService FeedPublisherService.Action where
  init := { loop := { clock := .create c.publisher.session anchor, generator := g } }
  step := FeedPublisherService.step c

namespace FeedPublisherService

variable {c : ServiceConfig} {s t : FeedPublisherService}

/-! ## One step -/

/-- What one step does. -/
inductive Step (c : ServiceConfig) (s : FeedPublisherService) :
    Action → FeedPublisherService → Prop
  /-- A batch is due. -/
  | due {now : Int} {polls : List Poll} {due : Int} {u : RateGovernor} (hbetween : s.owed = 0)
      (hruns : s.loop.stopped = false)
      (hwait : waitForNextBatch c.publisher.governor
        ((Publisher.advance c.publisher now s.loop).clock.effectiveEventsPerSecond
          c.publisher.session c.publisher.baseEventsPerSecond) polls
        (Publisher.advance c.publisher now s.loop).governor = some (.due due, u, [])) :
      Step c s (.iterate now polls) { s with
        loop := { Publisher.advance c.publisher now s.loop with
          governor := (scheduleBatch c.publisher.governor due u
            ((Publisher.advance c.publisher now s.loop).clock.effectiveEventsPerSecond
              c.publisher.session c.publisher.baseEventsPerSecond)).2 }
        owed := (scheduleBatch c.publisher.governor due u
          ((Publisher.advance c.publisher now s.loop).clock.effectiveEventsPerSecond
            c.publisher.session c.publisher.baseEventsPerSecond)).1.toNat }
  /-- The wait is cancelled, and the loop ends. -/
  | canceled {now : Int} {polls : List Poll} {u : RateGovernor} (hbetween : s.owed = 0)
      (hruns : s.loop.stopped = false)
      (hwait : waitForNextBatch c.publisher.governor
        ((Publisher.advance c.publisher now s.loop).clock.effectiveEventsPerSecond
          c.publisher.session c.publisher.baseEventsPerSecond) polls
        (Publisher.advance c.publisher now s.loop).governor = some (.canceled, u, [])) :
      Step c s (.iterate now polls) { s with
        loop := { Publisher.advance c.publisher now s.loop with governor := u, stopped := true } }
  /-- A pass is generated and goes to the exchange. -/
  | passed {draws : List (Draws × Int)} {es : List Emission} {g : RandomWalkGenerator}
      {e : Exchange} (howes : 0 < s.owed)
      (hlength : draws.length = min s.owed (calculateBatchCapacity c.publisher))
      (hgenerate : generate c.publisher.generator draws s.loop.generator = some (es, g))
      (hpublish : s.exchange.step c.exchange (.publish ((s.span es).map wireRecord)) = some e) :
      Step c s (.pass draws) {
        loop := { s.loop with generator := g, published := s.loop.published ++ s.span es }
        owed := s.owed - draws.length
        exchange := e }
  /-- The exchange goes on by itself. -/
  | exchange {a : Exchange.Action} {e : Exchange} (hpublish : ∀ batch, a ≠ .publish batch)
      (hstep : s.exchange.step c.exchange a = some e) :
      Step c s (.exchange a) { s with exchange := e }

theorem step_cases {a : Action} (h : s.step c a = some t) : Step c s a t := by
  cases a with
  | iterate now polls =>
    simp only [step, iterate] at h
    split at h
    · cases h
    · rename_i hready
      simp only [not_or, not_not, Bool.not_eq_true] at hready
      split at h
      · rename_i hwait
        cases h
        exact .due hready.1 hready.2.1 hwait
      · rename_i hwait
        cases h
        exact .canceled hready.1 hready.2.1 hwait
      · cases h
  | pass draws =>
    simp only [step, pass] at h
    split at h
    · cases h
    · rename_i hready
      simp only [not_or, not_not] at hready
      obtain ⟨⟨es, g⟩, hgenerate, h⟩ := Option.bind_eq_some_iff.mp h
      obtain ⟨e, hpublish, rfl⟩ := Option.map_eq_some_iff.mp h
      rw [← hready.2]
      exact .passed (Nat.pos_of_ne_zero hready.1) hready.2 hgenerate hpublish
  | exchange a =>
    cases a with
    | publish batch => cases h
    | server a | session c a | visit | finish =>
      obtain ⟨e, hstep, rfl⟩ := Option.map_eq_some_iff.mp h
      exact .exchange nofun hstep

/-- What happens to the exchange is a run of it. -/
theorem runFrom_part {a : Action} (h : s.step c a = some t) :
    (Feed.exchange c.exchange).runFrom s.exchange (s.part c a) = some t.exchange := by
  cases step_cases h with
  | due | canceled => rfl
  | passed _ _ hgenerate hpublish =>
    rw [part, hgenerate]
    exact (Machine.runFrom_singleton _ _ _).trans hpublish
  | exchange _ hstep => exact (Machine.runFrom_singleton _ _ _).trans hstep

/-- What happens to the exchange in a run of the service. -/
def exchangeRun (c : ServiceConfig) (g : RandomWalkGenerator) (anchor : Int) (as : List Action) :
    List Exchange.Action :=
  (feedPublisherService c g anchor).outputs (part c) (feedPublisherService c g anchor).init as

/-- Every run of the service is one of its exchange. -/
theorem run_exchange {g : RandomWalkGenerator} {anchor : Int} {as : List Action}
    (h : (feedPublisherService c g anchor).run as = some s) :
    (Feed.exchange c.exchange).run (exchangeRun c g anchor as) = some s.exchange := by
  have hpart (s : FeedPublisherService) (a : Action) (t : FeedPublisherService)
      (hstep : (feedPublisherService c g anchor).step s a = some t) :
      (Feed.exchange c.exchange).runFrom s.exchange (s.part c a) = some t.exchange :=
    runFrom_part hstep
  exact Machine.runFrom_component hpart h

end FeedPublisherService

/-! ## One batch -/

/-- The compressed day of one instrument, which is `COMI`, published to two consumers. -/
def comiService : ServiceConfig where
  publisher := { oneSymbolDay with
    generator := { oneSymbolDay.generator with
      symbolUniverse := {
        symbols := [⟨⟨0x20202020494D4F43⟩, 1, 1 / 100, 10⟩]
        picker := oneSymbolDay.generator.symbolUniverse.picker
        picker_length := rfl } } }
  exchange := smallExchange

/-- The generator of `COMI`. -/
def comiGenerator : RandomWalkGenerator :=
  (construct comiService.publisher.generator ⟨0, 0⟩).getD ⟨[], 0, 0, 0, false⟩

/-- A consumer joins before the day opens. -/
def beforeOpen : List FeedPublisherService.Action :=
  .iterate 0 [⟨0, false⟩, ⟨0, false⟩] :: (joining 0).map .exchange

/-- The wait for the first batch. -/
def firstBatch : FeedPublisherService.Action := .iterate 70000000 [⟨70000000, false⟩]

/-- The first batch is a trade, which the consumer is sent. -/
def firstTrade : List FeedPublisherService.Action :=
  .pass [(⟨0, 18446744069414584320, 0, 0, 0⟩, 0)] ::
    (visiting [0] ++ (sending 44).map (Exchange.Action.session 0)).map .exchange

/-- The service behind some actions. -/
def comiAfter (as : List FeedPublisherService.Action) : FeedPublisherService :=
  ((feedPublisherService comiService comiGenerator 0).run as).getD
    (feedPublisherService comiService comiGenerator 0).init

theorem run_comiAfter (as : List FeedPublisherService.Action)
    (h : ((feedPublisherService comiService comiGenerator 0).run as).isSome = true) :
    (feedPublisherService comiService comiGenerator 0).run as = some (comiAfter as) := by
  obtain ⟨s, hs⟩ := Option.isSome_iff_exists.mp h
  rw [comiAfter, hs, Option.getD_some]

end Tckr.Publisher
