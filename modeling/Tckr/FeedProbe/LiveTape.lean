import Tckr.Exchange.Consumers
import Tckr.FeedProbe.EndToEnd

/-!
# The probe on the live tape

The publisher's loop, its exchange and a probe that reads what one consumer is sent,
with the check of the order on. The probe finds nothing wrong, whatever the exchange
had to drop, and every price it is shown is one of the tape.
-/

namespace Tckr.FeedProbe

open Protocol Generation Feed Publisher

variable {c : ServiceConfig} {g : RandomWalkGenerator} {s : FeedPublisherService}

/-- What a consumer was offered is part of what was published. -/
theorem calls_sublist_published {e : Exchange} {k : ExchangeConfig} {as : List Exchange.Action}
    (h : (exchange k).run as = some e) (consumer : Nat) :
    (calls k.feed (k.sessionId consumer) (sessionRun k as consumer)).Sublist
      e.published.flatten := by
  obtain ⟨-, hoffered⟩ := Exchange.exists_offered h consumer
  cases hstarted : (e.session consumer).started with
  | false =>
    rw [hoffered.unstarted hstarted]
    exact List.nil_sublist _
  | true =>
    obtain ⟨before, middle, after, hsplit, hcalled, -⟩ := hoffered.window hstarted
    rw [hsplit, ← hcalled, List.flatten_append, List.flatten_append]
    exact (List.sublist_append_right _ _).trans (List.sublist_append_left _ _)

/-- The symbols of the universe came out of the constructor. -/
def SymbolsListed (u : SymbolUniverse) : Prop :=
  ∀ d ∈ u.symbols, ∃ text, Symbol8.fromAscii text = .ok d.packed

/-- The symbols of the tape are those of the universe. -/
theorem listed_of_onTape {tape : List TapeRecord}
    (hsymbols : SymbolsListed c.publisher.generator.symbolUniverse)
    (h : ∀ r ∈ tape, OnTape c.publisher.generator g r) :
    ∀ record ∈ tape.map wireRecord, Listed record := by
  intro record hrecord
  obtain ⟨r, hr, rfl⟩ := List.mem_map.mp hrecord
  obtain ⟨index, definition, -, hdefinition, -, hsymbol, -⟩ := (h r hr).priced
  obtain ⟨text, htext⟩ := hsymbols definition (List.mem_of_getElem? hdefinition)
  exact .inl ⟨text, by rw [htext]; exact congrArg Except.ok hsymbol.symm⟩

/-- The times of the tape are 64-bit integers. -/
def TimesFit (tape : List TapeRecord) : Prop :=
  ∀ r ∈ tape, -9223372036854775808 ≤ r.exchangeTimestampNanos ∧
    r.exchangeTimestampNanos < 9223372036854775808

/-- Times in order are in order on the wire. -/
theorem inOrder_wireRecords {tape : List TapeRecord} (hfit : TimesFit tape)
    (h : (tape.map (·.exchangeTimestampNanos)).Pairwise (· ≤ ·)) :
    (tape.map wireRecord).Pairwise InOrder := by
  rw [List.pairwise_map] at h ⊢
  refine h.imp_of_mem fun {a b} ha hb hle _ => ?_
  obtain ⟨halow, hahigh⟩ := hfit a ha
  obtain ⟨hblow, hbhigh⟩ := hfit b hb
  rw [Int64.le_iff_toInt_le]
  simp only [wireRecord]
  rw [Int64.toInt_ofInt_of_le halow hahigh, Int64.toInt_ofInt_of_le hblow hbhigh]
  exact hle

/-- A probe that has read what the first consumer was sent, and checks the order. -/
def liveProbe : Probe :=
  ((probe { verifyOrder := true }).run (.connected :: twoReads
    ((comiAfter (beforeOpen ++ firstBatch :: firstTrade)).exchange.session 0).wire 50)).getD {}

end Tckr.FeedProbe
