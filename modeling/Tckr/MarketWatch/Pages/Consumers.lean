import Tckr.MarketWatch.Data.SimulatedSteps
import Tckr.MarketWatch.Data.Sockets

/-!
# The pages on the shared source

The board and the detail panes mount, change and unmount in any order and share one
source, whose subscribed symbols form a set: a cleanup gives up its symbols for
everybody. A symbol stays subscribed for its holders over the runs in which no cleanup
releases what another page holds.
-/

namespace Tckr.MarketWatch

universe u v

/-- A source as the pages use it: its own steps, and what subscribing promises. -/
structure MarketDataSource (σ : Type u) (α : Type v) where
  machine : Machine σ α
  /-- The steps that are not a page subscribing or unsubscribing. -/
  own : α → Bool
  subscribe : σ → List String → σ
  unsubscribe : σ → List String → σ
  getSnapshot : σ → String → σ
  getHistory : σ → String → σ
  subscribed : σ → OrderedSet String
  /-- A subscription of the symbol is taken up. -/
  accepts : σ → String → Bool
  /-- The symbols whose subscription a step rejects. -/
  rejects : α → List String
  mem_subscribe : ∀ {s xs x}, x ∈ subscribed s ∨ x ∈ xs ∧ accepts s x = true →
    x ∈ subscribed (subscribe s xs)
  mem_unsubscribe : ∀ {s xs x}, x ∈ subscribed s → x ∉ xs → x ∈ subscribed (unsubscribe s xs)
  mem_getSnapshot : ∀ {s x y}, x ∈ subscribed s → x ∈ subscribed (getSnapshot s y)
  mem_getHistory : ∀ {s x y}, x ∈ subscribed s → x ∈ subscribed (getHistory s y)
  mem_step : ∀ {s a t x}, own a = true → machine.step s a = some t → x ∈ subscribed s →
    x ∉ rejects a → x ∈ subscribed t

/-- A mounted page. -/
inductive Consumer
  /-- `useBoardUniverse`: whether its universe is being fetched, has failed to load, and
  what it has subscribed. -/
  | board (fetching universeFailed : Bool) (subscribedRef : List String)
  /-- `useDetailQuote`. -/
  | detail (symbol : String)
  deriving DecidableEq, Repr

/-- What the page's cleanup passes to `unsubscribe`. -/
def Consumer.releases : Consumer → List String
  | .board _ _ subscribedRef => subscribedRef
  | .detail symbol => [symbol]

/-- A mounted page with its hold: what it has subscribed, the source has neither refused
nor rejected, and the page has not released. -/
structure Mounted where
  consumer : Consumer
  hold : List String
  deriving DecidableEq, Repr

/-- The shared source and every page ever mounted, `none` once unmounted. -/
structure Pages (σ : Type u) where
  source : σ
  mounted : List (Option Mounted)
  deriving DecidableEq

inductive PageAction (α : Type v)
  | mountBoard
  /-- `getUniverse` of a board resolves. -/
  | universeArrived (page : Nat) (symbols : List String)
  | universeFailed (page : Nat)
  | retryUniverse (page : Nat)
  | mountDetail (symbol : String)
  | switchSymbol (page : Nat) (symbol : String)
  | unmount (page : Nat)
  /-- A step of the source itself. -/
  | source (a : α)
  deriving DecidableEq

namespace MarketDataSource

variable {σ : Type u} {α : Type v} (source : MarketDataSource σ α)

/-! ## Mount and cleanup -/

/-- A board's subscriptions once its universe is there. -/
def loadBoard (s : σ) (symbols : List String) : σ :=
  symbols.foldl source.getHistory (symbols.foldl source.getSnapshot (source.subscribe s symbols))

/-- The effect of a detail pane. -/
def openDetail (s : σ) (symbol : String) : σ :=
  source.getHistory (source.subscribe (source.getSnapshot s symbol) [symbol]) symbol

/-- A page's cleanup; a board with nothing subscribed releases nothing. -/
def cleanup (s : σ) (consumer : Consumer) : σ :=
  if consumer.releases = [] then s else source.unsubscribe s consumer.releases

/-- A new board, whose fetch has just begun. -/
def newBoard : Mounted := ⟨.board true false [], []⟩

/-- A pane as its effect leaves it. -/
def newDetail (s : σ) (symbol : String) : Mounted :=
  ⟨.detail symbol, [symbol].filter fun x => source.accepts (source.getSnapshot s symbol) x⟩

def step (s : Pages σ) : PageAction α → Option (Pages σ)
  | .mountBoard => some { s with mounted := s.mounted ++ [some newBoard] }
  | .universeArrived page symbols => match s.mounted[page]? with
      | some (some ⟨.board true _ _, _⟩) => some
          { source := source.loadBoard s.source symbols
            mounted := s.mounted.set page (some
              ⟨.board false false symbols, symbols.filter (source.accepts s.source)⟩) }
      | _ => none
  | .universeFailed page => match s.mounted[page]? with
      | some (some ⟨.board true _ subscribedRef, hold⟩) => some
          { s with mounted := s.mounted.set page (some ⟨.board false true subscribedRef, hold⟩) }
      | _ => none
  | .retryUniverse page => match s.mounted[page]? with
      | some (some ⟨.board fetching failed subscribedRef, _⟩) => some
          { source := source.cleanup s.source (.board fetching failed subscribedRef)
            mounted := s.mounted.set page (some newBoard) }
      | _ => none
  | .mountDetail symbol => some
      { source := source.openDetail s.source symbol
        mounted := s.mounted ++ [some (source.newDetail s.source symbol)] }
  | .switchSymbol page symbol => match s.mounted[page]? with
      | some (some ⟨.detail old, _⟩) =>
          let released := source.cleanup s.source (.detail old)
          some
            { source := source.openDetail released symbol
              mounted := s.mounted.set page (some (source.newDetail released symbol)) }
      | _ => none
  | .unmount page => match s.mounted[page]? with
      | some (some ⟨consumer, _⟩) => some
          { source := source.cleanup s.source consumer
            mounted := s.mounted.set page none }
      | _ => none
  | .source a =>
      if source.own a = true then
        (source.machine.step s.source a).map fun t =>
          { source := t
            mounted := s.mounted.map fun page => page.map fun mounted =>
              { mounted with hold := mounted.hold.filter fun x => x ∉ source.rejects a } }
      else none

/-- The pages over the source, from its construction on. -/
def pages : Machine (Pages σ) (PageAction α) where
  init := ⟨source.machine.init, []⟩
  step := source.step

end MarketDataSource

/-! ## Holds -/

namespace Pages

variable {σ : Type u} {α : Type v}

/-- The page as it is mounted now. -/
def page? (s : Pages σ) (page : Nat) : Option Mounted := (s.mounted[page]?).join

/-- Nothing of the list is held by a page other than the given one. -/
def OnlyHeldBy (s : Pages σ) (page : Nat) (released : List String) : Prop :=
  ∀ other ∈ List.range s.mounted.length, other ≠ page →
    ∀ mounted ∈ s.page? other, ∀ x ∈ Mounted.hold mounted, x ∉ released

instance (s : Pages σ) (page : Nat) (released : List String) :
    Decidable (s.OnlyHeldBy page released) :=
  inferInstanceAs (Decidable (∀ other ∈ List.range s.mounted.length, other ≠ page →
    ∀ mounted ∈ s.page? other, ∀ x ∈ Mounted.hold mounted, x ∉ released))

/-- Nothing the page's cleanup releases is held by another page. -/
def ReleasesOwn (s : Pages σ) (page : Nat) : Prop :=
  ∀ mounted ∈ s.page? page, s.OnlyHeldBy page (Consumer.releases (Mounted.consumer mounted))

instance (s : Pages σ) (page : Nat) : Decidable (s.ReleasesOwn page) :=
  inferInstanceAs (Decidable (∀ mounted ∈ s.page? page, s.OnlyHeldBy page _))

/-- No cleanup releases what another page holds. -/
def CleanupsOwn (s : Pages σ) : PageAction α → Prop
  | .retryUniverse page => s.ReleasesOwn page
  | .switchSymbol page _ => s.ReleasesOwn page
  | .unmount page => s.ReleasesOwn page
  | _ => True

instance (s : Pages σ) (a : PageAction α) : Decidable (s.CleanupsOwn a) := by
  cases a with
  | retryUniverse page => exact inferInstanceAs (Decidable (s.ReleasesOwn page))
  | switchSymbol page symbol => exact inferInstanceAs (Decidable (s.ReleasesOwn page))
  | unmount page => exact inferInstanceAs (Decidable (s.ReleasesOwn page))
  | _ => exact inferInstanceAs (Decidable True)

end Pages

namespace MarketDataSource

variable {σ : Type u} {α : Type v} {source : MarketDataSource σ α} {s t : Pages σ}

/-- Every page's hold is subscribed at the source. -/
def Held (source : MarketDataSource σ α) (s : Pages σ) : Prop :=
  ∀ page mounted, s.page? page = some mounted → ∀ x ∈ mounted.hold, x ∈ source.subscribed s.source

theorem mem_foldl {f : σ → String → σ} {x : String}
    (hf : ∀ {s y}, x ∈ source.subscribed s → x ∈ source.subscribed (f s y)) {s : σ}
    {symbols : List String} (h : x ∈ source.subscribed s) :
    x ∈ source.subscribed (symbols.foldl f s) := by
  induction symbols generalizing s with
  | nil => exact h
  | cons symbol symbols ih => exact ih (hf h)

theorem mem_loadBoard {s : σ} {symbols : List String} {x : String}
    (h : x ∈ source.subscribed s ∨ x ∈ symbols ∧ source.accepts s x = true) :
    x ∈ source.subscribed (source.loadBoard s symbols) := by
  apply mem_foldl source.mem_getHistory
  apply mem_foldl source.mem_getSnapshot
  exact source.mem_subscribe h

theorem mem_openDetail {s : σ} {symbol x : String} (h : x ∈ source.subscribed s ∨
      x ∈ (source.newDetail s symbol).hold) :
    x ∈ source.subscribed (source.openDetail s symbol) := by
  apply source.mem_getHistory
  apply source.mem_subscribe
  rcases h with h | h
  · exact Or.inl (source.mem_getSnapshot h)
  · exact Or.inr (List.mem_filter.mp h)

theorem mem_cleanup {s : σ} {consumer : Consumer} {x : String} (h : x ∈ source.subscribed s)
    (hx : x ∉ consumer.releases) : x ∈ source.subscribed (source.cleanup s consumer) := by
  unfold cleanup
  split
  · exact h
  · exact source.mem_unsubscribe h hx

theorem page?_set {page : Nat} {new : Option Mounted} {σ' : σ} {other : Nat} {mounted : Mounted}
    (h : Pages.page? ⟨σ', s.mounted.set page new⟩ other = some mounted) :
    other = page ∧ new = some mounted ∨ other ≠ page ∧ s.page? other = some mounted := by
  unfold Pages.page? at h
  by_cases hother : other = page
  · subst hother
    rw [List.getElem?_set_self', Option.join_eq_some_iff] at h
    obtain ⟨_, _, hnew⟩ := Option.map_eq_some_iff.mp h
    exact Or.inl ⟨rfl, hnew⟩
  · rw [List.getElem?_set_ne (Ne.symm hother)] at h
    exact Or.inr ⟨hother, h⟩

theorem page?_append {new : Mounted} {σ' : σ} {other : Nat} {mounted : Mounted}
    (h : Pages.page? ⟨σ', s.mounted ++ [some new]⟩ other = some mounted) :
    mounted = new ∨ s.page? other = some mounted := by
  rw [Pages.page?, Option.join_eq_some_iff, List.getElem?_append] at h
  split at h
  · refine Or.inr ?_
    rw [Pages.page?, h]
    rfl
  · obtain ⟨_, h⟩ := List.getElem?_eq_some_iff.mp h
    rw [List.getElem_singleton, Option.some.injEq] at h
    exact Or.inl h.symm

/-- What a cleanup of one page leaves to the others. -/
theorem Held.cleanup (h : source.Held s) {page : Nat} {mounted : Mounted}
    (hpage : s.page? page = some mounted) (hown : s.ReleasesOwn page) {other : Nat}
    (hother : other ≠ page) {mounted' : Mounted} (hmounted : s.page? other = some mounted')
    {x : String} (hx : x ∈ mounted'.hold) :
    x ∈ source.subscribed (source.cleanup s.source mounted.consumer) := by
  refine mem_cleanup (h other mounted' hmounted x hx) ?_
  refine hown mounted hpage other ?_ hother mounted' hmounted x hx
  rw [List.mem_range]
  by_contra hlong
  rw [Pages.page?, List.getElem?_eq_none (Nat.le_of_not_lt hlong)] at hmounted
  cases hmounted

theorem page?_eq {page : Nat} {mounted : Mounted} (h : s.mounted[page]? = some (some mounted)) :
    s.page? page = some mounted := by
  rw [Pages.page?, h]
  rfl

/-- A page is replaced, with a hold that the source has taken up. -/
theorem Held.set {page : Nat} {new : Option Mounted} {σ' : σ}
    (hnew : ∀ mounted ∈ new, ∀ x ∈ Mounted.hold mounted, x ∈ source.subscribed σ')
    (hkeep : ∀ other, other ≠ page → ∀ mounted, s.page? other = some mounted →
      ∀ x ∈ mounted.hold, x ∈ source.subscribed σ') :
    source.Held ⟨σ', s.mounted.set page new⟩ := by
  intro other mounted hmounted x hx
  rcases page?_set hmounted with ⟨-, hnew'⟩ | ⟨hother, hmounted⟩
  · exact hnew mounted hnew' x hx
  · exact hkeep other hother mounted hmounted x hx

theorem Held.append {new : Mounted} {σ' : σ}
    (hnew : ∀ x ∈ new.hold, x ∈ source.subscribed σ')
    (hkeep : ∀ other mounted, s.page? other = some mounted → ∀ x ∈ mounted.hold,
      x ∈ source.subscribed σ') :
    source.Held ⟨σ', s.mounted ++ [some new]⟩ := by
  intro other mounted hmounted x hx
  rcases page?_append hmounted with rfl | hmounted
  · exact hnew x hx
  · exact hkeep other mounted hmounted x hx

theorem Held.step (h : source.Held s) {a : PageAction α} (hown : s.CleanupsOwn a)
    (hstep : source.step s a = some t) : source.Held t := by
  cases a with
  | mountBoard =>
    cases hstep
    apply Held.append
    · intro x hx
      exact absurd hx List.not_mem_nil
    · exact h
  | universeArrived page symbols =>
    dsimp only [MarketDataSource.step] at hstep
    split at hstep
    · cases hstep
      apply Held.set
      · rintro mounted hmounted x hx
        cases hmounted
        exact mem_loadBoard (Or.inr (List.mem_filter.mp hx))
      · intro other _ mounted hmounted x hx
        exact mem_loadBoard (Or.inl (h other mounted hmounted x hx))
    · cases hstep
  | universeFailed page =>
    dsimp only [MarketDataSource.step] at hstep
    split at hstep
    · rename_i hpage
      cases hstep
      apply Held.set
      · rintro mounted hmounted x hx
        cases hmounted
        exact h page _ (page?_eq hpage) x hx
      · intro other _
        exact h other
    · cases hstep
  | retryUniverse page =>
    dsimp only [MarketDataSource.step] at hstep
    split at hstep
    · rename_i hpage
      cases hstep
      apply Held.set
      · rintro mounted hmounted x hx
        cases hmounted
        exact absurd hx List.not_mem_nil
      · intro other hother mounted hmounted x hx
        exact h.cleanup (page?_eq hpage) hown hother hmounted hx
    · cases hstep
  | mountDetail symbol =>
    cases hstep
    apply Held.append
    · intro x hx
      exact mem_openDetail (Or.inr hx)
    · intro other mounted hmounted x hx
      exact mem_openDetail (Or.inl (h other mounted hmounted x hx))
  | switchSymbol page symbol =>
    dsimp only [MarketDataSource.step] at hstep
    split at hstep
    · rename_i hpage
      cases hstep
      apply Held.set
      · rintro mounted hmounted x hx
        cases hmounted
        exact mem_openDetail (Or.inr hx)
      · intro other hother mounted hmounted x hx
        exact mem_openDetail (Or.inl (h.cleanup (page?_eq hpage) hown hother hmounted hx))
    · cases hstep
  | unmount page =>
    dsimp only [MarketDataSource.step] at hstep
    split at hstep
    · rename_i hpage
      cases hstep
      apply Held.set
      · rintro mounted hmounted x hx
        cases hmounted
      · intro other hother mounted hmounted x hx
        exact h.cleanup (page?_eq hpage) hown hother hmounted hx
    · cases hstep
  | source a =>
    dsimp only [MarketDataSource.step] at hstep
    split at hstep
    · rename_i howna
      obtain ⟨next, hnext, rfl⟩ := Option.map_eq_some_iff.mp hstep
      intro page mounted hmounted x hx
      rw [Pages.page?, List.getElem?_map, Option.join_eq_some_iff, Option.map_eq_some_iff]
        at hmounted
      obtain ⟨slot, hslot, hmap⟩ := hmounted
      obtain ⟨before, rfl, rfl⟩ := Option.map_eq_some_iff.mp hmap
      obtain ⟨hx, hrejects⟩ := List.mem_filter.mp hx
      have hsubscribed := h page before (page?_eq hslot) x hx
      exact source.mem_step howna hnext hsubscribed (of_decide_eq_true hrejects)
    · cases hstep

/-- What holds over every run whose cleanups release only what is their page's own. -/
theorem held_of_guarded {as : List (PageAction α)}
    (hg : source.pages.Guarded Pages.CleanupsOwn source.pages.init as)
    (h : source.pages.run as = some s) : source.Held s := by
  refine Machine.run_invariant_of_guarded (m := source.pages) (I := source.Held) ?_ ?_ hg h
  · intro page mounted hmounted
    cases hmounted
  · intro s a t hs ha ht
    exact hs.step ha ht

end MarketDataSource

/-! ## The gateway source -/

namespace TckrGatewaySource

/-- Neither a page's `subscribe` nor its `unsubscribe`. -/
def isOwn : Action → Bool
  | .call (.subscribe _) => false
  | .call (.unsubscribe _) => false
  | _ => true

/-- The symbols a step's message rejects. -/
def rejectedBy : Action → List String
  | .socket _ (.message (some (.subscribed m))) => m.rejected
  | _ => []

variable {s t : TckrGatewaySource} {x : String}

theorem mem_subscribed_subscribe {xs : List String}
    (h : x ∈ s.subscribedSymbols ∨ x ∈ xs ∧ decide (x ≠ "") = true) :
    x ∈ (s.subscribe xs).subscribedSymbols := by
  rw [(s.subscribe_sameMarket xs).subscribedSymbols]
  exact OrderedSet.mem_addAll.mpr (h.imp_right List.mem_filter.mpr)

theorem mem_subscribed_unsubscribe {xs : List String} (h : x ∈ s.subscribedSymbols)
    (hx : x ∉ xs) : x ∈ (s.unsubscribe xs).subscribedSymbols := by
  rw [(s.unsubscribe_sameMarket xs).subscribedSymbols]
  exact OrderedSet.mem_deleteAll.mpr ⟨h, fun hmem => hx (List.mem_filter.mp hmem).1⟩

theorem mem_subscribed_perform {c : Call} (hown : isOwn (.call c) = true)
    (h : x ∈ s.subscribedSymbols) : x ∈ (s.perform c).subscribedSymbols := by
  cases c with
  | connect => exact s.connect_sameMarket.subscribedSymbols ▸ h
  | disconnect => exact s.disconnect_sameMarket.subscribedSymbols ▸ h
  | reconnectSharedSource =>
    exact (s.disconnect_sameMarket.trans (connect_sameMarket _)).subscribedSymbols ▸ h
  | subscribe symbols => cases hown
  | unsubscribe symbols => cases hown
  | getSnapshot symbol => exact h

/-- Only the server's rejection takes a symbol away. -/
theorem mem_subscribed_handleMessage {i : Nat} {m : Option ServerMessage}
    (h : x ∈ s.subscribedSymbols) (hx : x ∉ rejectedBy (.socket i (.message m))) :
    x ∈ ((s.announce i m).handleMessage m).subscribedSymbols := by
  cases m with
  | none => exact h
  | some m =>
    cases m with
    | connected m =>
      have hannounce := s.announce_sameMarket i (some (.connected m))
      change x ∈ ((s.announce i (some (.connected m))).handleConnected m).subscribedSymbols
      rw [(handleConnected_sameMarket _ m).subscribedSymbols, hannounce.subscribedSymbols]
      exact h
    | subscribed m => exact OrderedSet.mem_deleteAll.mpr ⟨h, hx⟩
    | error m => exact (s.handleError_sameMarket m).subscribedSymbols ▸ h
    | entitlementChanged m =>
      change x ∈ (s.handleEntitlementChanged m).subscribedSymbols
      unfold handleEntitlementChanged
      split
      · exact h
      · exact h
    | unsubscribed m | tick m | snapshot m | heartbeat m => exact h

theorem mem_subscribed_step {a : Action} (hown : isOwn a = true) (hstep : gateway.step s a = some t)
    (h : x ∈ s.subscribedSymbols) (hx : x ∉ rejectedBy a) : x ∈ t.subscribedSymbols := by
  cases step_cases hstep with
  | call c => exact mem_subscribed_perform hown h
  | @opened i =>
    rw [(handleOpen_sameMarket (s.setReadyState i .opened)).subscribedSymbols]
    exact h
  | message => exact mem_subscribed_handleMessage h hx
  | @closed i code reason rand =>
    rw [(handleClose_sameMarket (s.setReadyState i .closed) code reason rand).subscribedSymbols]
    exact h
  | throttle => exact s.throttleTimerFired_sameMarket.subscribedSymbols ▸ h
  | @watchdog w due rand =>
    rw [(forceLocalClose_sameMarket
      { s with heartbeatWatchdog := some w.fired } rand).subscribedSymbols]
    exact h
  | ping => exact s.ping_sameMarket.subscribedSymbols ▸ h
  | @continuation c rest => exact (resume_sameMarket { s with continuations := rest } c).2.2.2 x h
  | closing | reconnect | frame | snapshotAnswered | snapshotArrived | snapshotFailed
  | universeArrived | advance => exact h

end TckrGatewaySource

/-- The gateway source under the pages; its history requests are answered elsewhere. -/
def gatewayFeed : MarketDataSource TckrGatewaySource TckrGatewaySource.Action where
  machine := gateway
  own := TckrGatewaySource.isOwn
  subscribe := TckrGatewaySource.subscribe
  unsubscribe := TckrGatewaySource.unsubscribe
  getSnapshot := TckrGatewaySource.getSnapshot
  getHistory s _ := s
  subscribed := TckrGatewaySource.subscribedSymbols
  accepts _ x := decide (x ≠ "")
  rejects := TckrGatewaySource.rejectedBy
  mem_subscribe := TckrGatewaySource.mem_subscribed_subscribe
  mem_unsubscribe := TckrGatewaySource.mem_subscribed_unsubscribe
  mem_getSnapshot := id
  mem_getHistory := id
  mem_step := TckrGatewaySource.mem_subscribed_step

/-! ## The simulated source -/

namespace SimulatedSource

/-- Neither a page's `subscribe` nor its `unsubscribe`. -/
def isOwn : Action → Bool
  | .call (.subscribe _) => false
  | .call (.unsubscribe _) => false
  | _ => true

variable {calendar : Calendar} {s t : SimulatedSource} {x : String}

theorem connect_subscribed (s : SimulatedSource) (calendar : Calendar) :
    (s.connect calendar).subscribed = s.subscribed := by
  unfold connect
  split
  · rfl
  · exact (ensureSessionFor_quiet _ calendar).subscribed

theorem perform_subscribed {c : Call} (hown : isOwn (.call c) = true) :
    (s.perform calendar c).subscribed = s.subscribed := by
  cases c with
  | connect => exact s.connect_subscribed calendar
  | disconnect => rfl
  | subscribe symbols => cases hown
  | unsubscribe symbols => cases hown
  | getSnapshot symbol => rfl
  | getHistory symbol => exact (s.getHistory_quiet calendar symbol).subscribed
  | simulateEntitlementChange nextDemoUser =>
    change (s.simulateEntitlementChange nextDemoUser).subscribed = s.subscribed
    unfold simulateEntitlementChange
    dsimp only
    split
    · rfl
    · rfl
  | simulateDrop code => exact (s.simulateDrop_quiet code).subscribed

theorem step_subscribed {a : Action} (hown : isOwn a = true) (hstep : s.step calendar a = some t) :
    t.subscribed = s.subscribed := by
  cases step_cases hstep with
  | call c => exact perform_subscribed hown
  | interval => exact (generateBatch_quiet _ calendar).subscribed
  | marketClock => exact (ensureSessionFor_quiet _ calendar).subscribed
  | dropReconnect => exact connect_subscribed _ calendar
  | drain => exact (drainSnapshotRequests_quiet _).subscribed
  | frame => rfl
  | advance => rfl

end SimulatedSource

/-- The simulated source under the pages. -/
def simulatedFeed (symbols : List SimSymbol) (calendar : Calendar)
    (config : SimulatedSourceConfig) :
    MarketDataSource SimulatedSource SimulatedSource.Action where
  machine := simulated symbols calendar config
  own := SimulatedSource.isOwn
  subscribe := SimulatedSource.subscribe
  unsubscribe := SimulatedSource.unsubscribe
  getSnapshot := SimulatedSource.getSnapshot
  getHistory s symbol := s.getHistory calendar symbol
  subscribed := SimulatedSource.subscribed
  accepts s x := decide (s.Knows x)
  rejects _ := []
  mem_subscribe {s xs x} h := by
    apply s.mem_subscribe
    exact h.imp_right fun hx => ⟨hx.1, of_decide_eq_true hx.2⟩
  mem_unsubscribe h hx := OrderedSet.mem_deleteAll.mpr ⟨h, hx⟩
  mem_getSnapshot := id
  mem_getHistory {s x symbol} h := (s.getHistory_quiet calendar symbol).subscribed ▸ h
  mem_step hown hstep h _ := SimulatedSource.step_subscribed hown hstep ▸ h

/-! ## Both sources -/

/-- In every run of the pages whose cleanups release only what is their page's own,
each held symbol is subscribed at the source, and its ticks reach `on.tick` and the
dispatcher. -/
theorem held_symbols_stay_subscribed (as : List (PageAction TckrGatewaySource.Action))
    (symbols : List SimSymbol) (calendar : Calendar) (config : SimulatedSourceConfig)
    (bs : List (PageAction SimulatedSource.Action)) :
    (∀ s, gatewayFeed.pages.Guarded Pages.CleanupsOwn gatewayFeed.pages.init as →
      gatewayFeed.pages.run as = some s →
      ∀ page mounted, s.page? page = some mounted → ∀ symbol ∈ mounted.hold,
        symbol ∈ s.source.subscribedSymbols ∧ ∀ tick : Tick, tick.s = symbol →
          (s.source.handleTick tick).observed = s.source.observed ++ [tick] ∧
          (s.source.handleTick tick).dispatcher = s.source.dispatcher.push tick) ∧
    ∀ s, (simulatedFeed symbols calendar config).pages.Guarded Pages.CleanupsOwn
        (simulatedFeed symbols calendar config).pages.init bs →
      (simulatedFeed symbols calendar config).pages.run bs = some s →
      ∀ page mounted, s.page? page = some mounted → ∀ symbol ∈ mounted.hold,
        symbol ∈ s.source.subscribed ∧ ∀ tick : Tick, tick.s = symbol →
          (s.source.emit tick).observed = s.source.observed ++ [tick] ∧
          (s.source.emit tick).dispatcher = s.source.dispatcher.push tick := by
  constructor
  · intro s hg h page mounted hmounted symbol hsymbol
    have hheld := MarketDataSource.held_of_guarded hg h page mounted hmounted symbol hsymbol
    exact ⟨hheld, fun tick _ => ⟨rfl, rfl⟩⟩
  · intro s hg h page mounted hmounted symbol hsymbol
    have hheld := MarketDataSource.held_of_guarded hg h page mounted hmounted symbol hsymbol
    refine ⟨hheld, ?_⟩
    rintro tick rfl
    exact SimulatedSource.emit_of_mem hheld

section Runs

variable {α : Type}

/-- A board with one instrument, and a pane that opens on another and closes. -/
def orderlyPages : List (PageAction α) :=
  [.mountBoard, .universeArrived 0 ["COMI"], .mountDetail "ETEL", .unmount 1]

/-- A pane opens on an instrument of the board and closes again. -/
def sharedPages : List (PageAction α) :=
  [.mountBoard, .universeArrived 0 ["COMI"], .mountDetail "COMI", .unmount 1]

end Runs

/-- The board keeps its instrument when a pane on another one closes. -/
theorem orderlyPages_keep_board :
    (∃ s, gatewayFeed.pages.run orderlyPages = some s ∧ "COMI" ∈ s.source.subscribedSymbols) ∧
    ∃ s, (simulatedFeed [comi] alwaysOpen (demoConfig "user-001")).pages.run orderlyPages = some s ∧
      "COMI" ∈ s.source.subscribed := by
  constructor
  · obtain ⟨s, hs⟩ := Option.isSome_iff_exists.mp
      (show (gatewayFeed.pages.run orderlyPages).isSome = true by decide +kernel)
    have hpage : (gatewayFeed.pages.run orderlyPages).bind (fun s => s.page? 0) =
      some ⟨.board false false ["COMI"], ["COMI"]⟩ := by decide +kernel
    rw [hs] at hpage
    exact ⟨s, hs, ((held_symbols_stay_subscribed orderlyPages [comi] alwaysOpen
      (demoConfig "user-001") orderlyPages).1 s (by decide +kernel) hs 0 _ hpage "COMI"
      List.mem_cons_self).1⟩
  · obtain ⟨s, hs⟩ := Option.isSome_iff_exists.mp (show ((simulatedFeed [comi] alwaysOpen
      (demoConfig "user-001")).pages.run orderlyPages).isSome = true by decide +kernel)
    have hpage : ((simulatedFeed [comi] alwaysOpen (demoConfig "user-001")).pages.run
        orderlyPages).bind (fun s => s.page? 0) =
      some ⟨.board false false ["COMI"], ["COMI"]⟩ := by decide +kernel
    rw [hs] at hpage
    exact ⟨s, hs, ((held_symbols_stay_subscribed orderlyPages [comi] alwaysOpen
      (demoConfig "user-001") orderlyPages).2 s (by decide +kernel) hs 0 _ hpage "COMI"
      List.mem_cons_self).1⟩

/-- The closing pane unsubscribes the board's instrument too. -/
theorem pane_releases_board_symbol :
    (gatewayFeed.pages.run sharedPages).map (fun s =>
      ((s.page? 0).map Mounted.hold, s.source.subscribedSymbols.elems)) =
        some (some ["COMI"], []) ∧
    ((simulatedFeed [comi] alwaysOpen (demoConfig "user-001")).pages.run sharedPages).map (fun s =>
      ((s.page? 0).map Mounted.hold, s.source.subscribed.elems)) = some (some ["COMI"], []) := by
  decide +kernel

end Tckr.MarketWatch
