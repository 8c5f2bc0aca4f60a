import Tckr.MarketWatch.Data.Attempts

/-!
# One recovery round per reconnect

An automatic attempt waits for `connected` once its socket is open. A socket that
dies in between takes nobody off the waiters, so the next `connected` releases the
lost attempts with the one that reached it, and each of them resubscribes and asks
for every snapshot.
-/

namespace Tckr.MarketWatch.TckrGatewaySource

/-! ## The books of a recovery -/

/-- Every frame resubscribes all, and the snapshots are those of the frames. -/
structure Whole (R : Recovery) : Prop where
  frames : ∀ f ∈ R.frames, f.2.Nodup ∧ ∃ id, f.1 = .subscribe f.2 id
  snapshots : R.snapshots = R.frames.flatMap Prod.snd

theorem Whole.once_iff {R : Recovery} (h : Whole R) : R.Once ↔ R.frames.length = 1 := by
  constructor
  · rintro ⟨symbols, id, hframes, -, -⟩
    rw [hframes, List.length_singleton]
  · intro hlength
    obtain ⟨⟨msg, symbols⟩, hframes⟩ := List.length_eq_one_iff.mp hlength
    obtain ⟨hnodup, id, hid⟩ := h.frames (msg, symbols) (by rw [hframes]; exact List.mem_cons_self)
    refine ⟨symbols, id, ?_, hnodup, ?_⟩
    · rw [hframes]
      exact congrArg (fun m => [(m, symbols)]) hid
    · rw [h.snapshots, hframes, List.flatMap_singleton]

/-- What every step keeps: whoever waits is a lost attempt or the current one, and what a
`connected` released has run or is still queued. -/
structure Balanced (s : TckrGatewaySource) (r : Attempts) : Prop where
  tracked : s.Tracked
  timer : s.reconnectTimer ≠ none → s.socket = none
  connecting : s.socketState = some .connecting →
    s.connectResolvers = some (if r.automatic then .reconnectNow else .connect)
  opened : s.socketState = some .opened → s.connectResolvers = none
  unauthenticated : s.connectResolvers ≠ none → s.authenticated = false
  settled : s.authenticated = true → r.lost = 0
  named : "" ∉ s.subscribedSymbols
  waiters : s.authWaiters + s.continuations.count .afterOpen =
    r.lost + if s.Waits r then 1 else 0
  whole : ∀ R ∈ r.recovery, Whole R
  released : ∀ R ∈ r.recovery,
    R.frames.length + s.continuations.count .afterAuthenticated = R.lost + 1

variable {s t : TckrGatewaySource} {r : Attempts}

theorem Balanced.of_same (h : Balanced s r) (hst : SameAttempts s t)
    (hnamed : "" ∉ t.subscribedSymbols) : Balanced t r where
  tracked := h.tracked.of_sameSockets hst.toSameSockets
  timer := by
    rw [hst.reconnectTimer, hst.socket]
    exact h.timer
  connecting := by
    rw [hst.socketState, hst.connectResolvers]
    exact h.connecting
  opened := by
    rw [hst.socketState, hst.connectResolvers]
    exact h.opened
  unauthenticated := by
    rw [hst.connectResolvers, hst.authenticated]
    exact h.unauthenticated
  settled := by
    rw [hst.authenticated]
    exact h.settled
  named := hnamed
  waiters := by
    rw [hst.authWaiters, hst.continuations, h.waiters]
    simp only [hst.waits r]
  whole := h.whole
  released := by
    rw [hst.continuations]
    exact h.released

/-! ## Opening and closing -/

theorem socketState_openSocket (opener : Opener) :
    (s.openSocket opener).socketState = some .connecting := by
  rw [socketState, openSocket, Option.bind_some, readyState?, List.getElem?_concat_length,
    Option.map_some]

theorem Balanced.of_timer (h : Balanced s r) :
    Balanced { s with reconnectTimer := none } r where
  tracked := h.tracked.of_sameSockets (.of_eq rfl rfl)
  timer hsome := absurd rfl hsome
  connecting := h.connecting
  opened := h.opened
  unauthenticated := h.unauthenticated
  settled := h.settled
  named := h.named
  waiters := h.waiters
  whole := h.whole
  released := h.released

/-- Without a socket nobody waits but the lost attempts. -/
theorem Balanced.lost_eq (h : Balanced s r) (hfree : s.socket = none) :
    s.authWaiters + s.continuations.count .afterOpen = r.lost := by
  have hwaits : ¬ s.Waits r := by
    rintro ⟨-, hsome, -⟩
    rw [hfree] at hsome
    cases hsome
  rw [h.waiters, if_neg hwaits, Nat.add_zero]

/-- A fresh socket has nobody waiting on it yet. -/
theorem Balanced.openSocket (h : Balanced s r) (hfree : s.socket = none)
    (htimer : s.reconnectTimer = none) {opener : Opener} {automatic : Bool}
    (hopener : opener = if automatic then .reconnectNow else .connect) :
    Balanced (s.openSocket opener) { r with automatic := automatic } where
  tracked := h.tracked.openSocket hfree opener
  timer hsome := absurd htimer hsome
  connecting _ := congrArg some hopener
  opened hstate := by
    rw [socketState_openSocket] at hstate
    cases hstate
  unauthenticated _ := rfl
  settled hauth := absurd hauth.symm Bool.noConfusion
  named := h.named
  waiters := by
    have hwaits : ¬ (s.openSocket opener).Waits { r with automatic := automatic } :=
      fun hwaits => Option.some_ne_none opener hwaits.2.2.1
    rw [if_neg hwaits]
    exact h.lost_eq hfree
  whole := h.whole
  released := h.released

theorem Balanced.connect (h : Balanced s r)
    (hfree : s.HasSocket ∨ s.socket = none ∧ s.reconnectTimer = none) :
    Balanced s.connect (if s.HasSocket then r else { r with automatic := false }) := by
  unfold TckrGatewaySource.connect
  by_cases hsocket : s.HasSocket
  · simp only [hsocket, ite_true]
    exact h
  · obtain ⟨hnone, htimer⟩ := hfree.resolve_left hsocket
    have hu : Balanced { s with
        intentionalClose := false
        connectAttempts := s.connectAttempts + 1
        lastStatus := .connecting (s.connectAttempts + 1) } r :=
      h.of_same (.of_eq rfl rfl rfl rfl rfl rfl rfl) h.named
    simp only [hsocket, ite_false]
    exact @Balanced.openSocket _ r hu hnone htimer .connect false rfl

/-- A socket that starts to close was connecting or open before. -/
theorem Balanced.closing (h : Balanced s r) {i : Nat} (hi : s.Live i) :
    Balanced (s.setReadyState i .closing) r where
  tracked := h.tracked.of_live rfl fun j => live_setReadyState hi (by decide) j
  timer := h.timer
  connecting hstate := h.connecting (socketState_setReadyState (by decide) hstate)
  opened hstate := h.opened (socketState_setReadyState (by decide) hstate)
  unauthenticated := h.unauthenticated
  settled := h.settled
  named := h.named
  waiters := h.waiters
  whole := h.whole
  released := h.released

theorem Balanced.closeSocket (h : Balanced s r) (i : Nat) : Balanced (s.closeSocket i) r := by
  unfold TckrGatewaySource.closeSocket
  split
  · exact h.closing ⟨_, ‹_›, by decide⟩
  · exact h.closing ⟨_, ‹_›, by decide⟩
  · exact h

theorem Balanced.disconnect (h : Balanced s r) :
    Balanced s.disconnect r ∧ s.disconnect.reconnectTimer = none := by
  have hu : Balanced { s with
      intentionalClose := true
      reconnectTimer := none
      heartbeatWatchdog := none
      pingTimer := none
      throttleTimer := none } r :=
    h.of_timer.of_same (.of_eq rfl rfl rfl rfl rfl rfl rfl) h.named
  unfold TckrGatewaySource.disconnect
  dsimp only
  split
  · refine ⟨hu.closeSocket _, ?_⟩
    unfold TckrGatewaySource.closeSocket
    split
    · rfl
    · rfl
    · rfl
  · exact ⟨hu.of_same (.of_eq rfl rfl rfl rfl rfl rfl rfl) h.named, rfl⟩

theorem handleClose_attempts (code : Nat) (reason : String) (rand : Rat) :
    (s.handleClose code reason rand).authWaiters = s.authWaiters ∧
      (s.handleClose code reason rand).continuations = s.continuations ∧
      (s.handleClose code reason rand).connectResolvers = none := by
  unfold TckrGatewaySource.handleClose
  dsimp only
  split
  · exact ⟨rfl, rfl, rfl⟩
  · split
    · exact ⟨rfl, rfl, rfl⟩
    · exact ⟨rfl, rfl, rfl⟩

/-- Once closed, whoever still waits is lost. -/
theorem Balanced.handleClose {code : Nat} {reason : String} {rand : Rat}
    (hlive : ∀ i, ¬ s.Live i) (hnamed : "" ∉ s.subscribedSymbols)
    (hlost : s.authWaiters + s.continuations.count .afterOpen = r.lost)
    (hwhole : ∀ R ∈ r.recovery, Whole R)
    (hreleased : ∀ R ∈ r.recovery,
      R.frames.length + s.continuations.count .afterAuthenticated = R.lost + 1) :
    Balanced (s.handleClose code reason rand) r := by
  obtain ⟨hwaiters, hcontinuations, hresolvers⟩ := s.handleClose_attempts code reason rand
  obtain ⟨hsymbols, -, hauth, -⟩ := s.handleClose_books code reason rand
  have hsocket := s.handleClose_socket code reason rand
  have hstate : (s.handleClose code reason rand).socketState = none := by
    rw [socketState, hsocket, Option.bind_none]
  have hwaits : ¬ (s.handleClose code reason rand).Waits r := by
    rintro ⟨-, hsome, -⟩
    rw [hsocket] at hsome
    cases hsome
  exact {
    tracked := .handleClose hlive code reason rand
    timer := fun _ => hsocket
    connecting := fun hconnecting => absurd (hstate.symm.trans hconnecting) (by decide)
    opened := fun _ => hresolvers
    unauthenticated := fun _ => hauth
    settled := fun htrue => absurd (hauth.symm.trans htrue) Bool.false_ne_true
    named := by rw [hsymbols]; exact hnamed
    waiters := by rw [hwaiters, hcontinuations, if_neg hwaits, hlost, Nat.add_zero]
    whole := hwhole
    released := by rw [hcontinuations]; exact hreleased }

theorem Balanced.forceLocalClose (h : Balanced s r) (rand : Rat) :
    Balanced (s.forceLocalClose rand) r := by
  unfold TckrGatewaySource.forceLocalClose
  split
  · exact h.closeSocket _
  · rename_i hnone
    refine .handleClose (fun i hi => ?_) h.named (h.lost_eq hnone) h.whole h.released
    rw [h.tracked i, hnone] at hi
    cases hi

/-- The close of an attempt that waits loses it. -/
theorem Balanced.closed (h : Balanced s r) {i : Nat} (hi : s.Live i) {code : Nat}
    {reason : String} {rand : Rat} :
    Balanced ((s.setReadyState i .closed).handleClose code reason rand)
      (if s.Waits r then { r with lost := r.lost + 1 } else r) := by
  have hwaiters := h.waiters
  refine .handleClose (fun j hj => ?_) h.named ?_ ?_ ?_
  · rw [live_setReadyState_closed, h.tracked j] at hj
    rw [h.tracked i] at hi
    exact hj.1 (Option.some.inj (hi.symm.trans hj.2))
  · split_ifs at hwaiters ⊢ with hwaits
    · exact hwaiters
    · exact hwaiters
  · split_ifs
    · exact h.whole
    · exact h.whole
  · split_ifs
    · exact h.released
    · exact h.released

/-- An automatic attempt whose socket opens waits. -/
theorem Balanced.handleOpen (h : Balanced s r) {i : Nat} (hidle : s.continuations = [])
    (hi : s.readyState? i = some .connecting) :
    Balanced (s.setReadyState i .opened).handleOpen r := by
  have hlive : s.Live i := ⟨_, hi, by decide⟩
  have hsocket := (h.tracked i).mp hlive
  have hresolvers := h.connecting (by rw [socketState, hsocket, Option.bind_some, hi])
  have hne : s.connectResolvers ≠ none := fun hnone => Option.some_ne_none _ (hresolvers ▸ hnone)
  have hauth := h.unauthenticated hne
  have htracked : (s.setReadyState i .opened).Tracked :=
    h.tracked.of_live rfl fun j => live_setReadyState hlive (by decide) j
  have hstate : (s.setReadyState i .opened).socketState = some .opened := by
    rw [socketState_setReadyState_current hsocket, socketState, hsocket, Option.bind_some, hi,
      Option.map_some]
  have hcurrent : (s.setReadyState i .opened).socket = some i := hsocket
  have hsame := handleOpen_sameSockets (s.setReadyState i .opened)
  have hwaiters := h.waiters
  rw [if_neg fun hwaits => hne hwaits.2.2.1, Nat.add_zero, hidle, List.count_nil,
    Nat.add_zero] at hwaiters
  have hreleased := h.released
  rw [hidle] at hreleased
  have hresume : (s.setReadyState i .opened).handleOpen =
      { s.setReadyState i .opened with
        connectResolvers := none
        continuations := if r.automatic then [.afterOpen] else [] } := by
    unfold TckrGatewaySource.handleOpen
    rw [show (s.setReadyState i .opened).connectResolvers = _ from hresolvers]
    cases r.automatic with
    | true => exact congrArg (fun c : List Continuation => { s.setReadyState i .opened with
        connectResolvers := none, continuations := c ++ [Continuation.afterOpen] }) hidle
    | false => exact congrArg (fun c : List Continuation => { s.setReadyState i .opened with
        connectResolvers := none, continuations := c }) hidle
  rw [hresume] at hsame ⊢
  exact {
    tracked := htracked.of_sameSockets hsame
    timer := h.timer
    connecting := fun hconnecting => by
      rw [hsame.socketState, hstate] at hconnecting
      cases hconnecting
    opened := fun _ => rfl
    unauthenticated := fun hne => absurd rfl hne
    settled := h.settled
    named := h.named
    waiters := by
      have hwaits : Waits { s.setReadyState i .opened with
          connectResolvers := none
          continuations := if r.automatic then [.afterOpen] else [] } r ↔ r.automatic = true :=
        ⟨And.left, fun hautomatic => ⟨hautomatic, by rw [hcurrent]; rfl, rfl, hauth⟩⟩
      simp only [hwaits]
      cases r.automatic with
      | true => exact congrArg (· + 1) hwaiters
      | false => exact hwaiters
    whole := h.whole
    released := by
      intro R hR
      have hR := hreleased R hR
      cases r.automatic with
      | true => exact hR
      | false => exact hR }

/-! ## Messages -/

/-- `connected` authenticates and flushes, then releases whoever waits. -/
theorem connected_releases (s : TckrGatewaySource) (i : Nat) (m : Connected) :
    ∃ u : TckrGatewaySource,
      (s.announce i (some (.connected m))).handleConnected m = u.releaseWaiters ∧
        SameAttempts { s with authenticated := true } u ∧
        u.subscribedSymbols = s.subscribedSymbols := by
  have hannounced := s.announce_sameAttempts i (some (.connected m))
  have hsymbols := (s.announce_sameMarket i (some (.connected m))).subscribedSymbols
  generalize s.announce i (some (.connected m)) = a at hannounced hsymbols
  obtain ⟨v, hv, hsame, hsymbols'⟩ : ∃ v : TckrGatewaySource,
      a.handleConnected m = v.flushOutbound.releaseWaiters ∧
        SameAttempts { a with authenticated := true } v ∧
        v.subscribedSymbols = a.subscribedSymbols :=
    ⟨_, rfl, .of_eq rfl rfl rfl rfl rfl rfl rfl, rfl⟩
  have hauth : SameAttempts { s with authenticated := true } { a with authenticated := true } :=
    { hannounced with authenticated := rfl }
  refine ⟨v.flushOutbound, hv, (hauth.trans hsame).trans v.flushOutbound_sameAttempts, ?_⟩
  exact v.flushOutbound_sameMarket.subscribedSymbols.trans (hsymbols'.trans hsymbols)

/-- An attempt that reaches `connected` is released with the lost ones. -/
theorem Balanced.connected (h : Balanced s r) {i : Nat} (hidle : s.continuations = [])
    (hi : s.readyState? i = some .opened) (m : Connected) :
    Balanced ((s.announce i (some (.connected m))).handleConnected m)
      { r with
        lost := 0
        recovery :=
          if s.authenticated then r.recovery
          else if r.automatic then some { lost := r.lost } else none } := by
  obtain ⟨u, hu, hsame, hsymbols⟩ := s.connected_releases i m
  have hsocket := (h.tracked i).mp ⟨_, hi, by decide⟩
  have hresolvers := h.opened (by rw [socketState, hsocket, Option.bind_some, hi])
  have hreleases : u.releaseWaiters.continuations =
      List.replicate s.authWaiters .afterAuthenticated := by
    rw [releaseWaiters, show u.continuations = [] from hsame.continuations.trans hidle,
      List.nil_append, show u.authWaiters = s.authWaiters from hsame.authWaiters]
  have hsockets : SameSockets s u.releaseWaiters :=
    .trans ⟨hsame.socket, hsame.readyState⟩ u.releaseWaiters_sameSockets
  have hsettled : u.releaseWaiters.connectResolvers = none :=
    hsame.connectResolvers.trans hresolvers
  have hauth : u.releaseWaiters.authenticated = true := hsame.authenticated
  have hwaits (r' : Attempts) : ¬ u.releaseWaiters.Waits r' := by
    rintro ⟨-, -, -, hfalse⟩
    exact Bool.false_ne_true (hfalse.symm.trans hauth)
  have hwaiters := h.waiters
  rw [hidle, List.count_nil, Nat.add_zero] at hwaiters
  rw [hu]
  exact {
    tracked := h.tracked.of_sameSockets hsockets
    timer := fun htimer => hsockets.socket.trans
      (h.timer fun hnone => htimer (hsame.reconnectTimer.trans hnone))
    connecting := fun hconnecting => by
      rw [hsockets.socketState, socketState, hsocket, Option.bind_some, hi] at hconnecting
      cases hconnecting
    opened := fun _ => hsettled
    unauthenticated := fun hne => absurd hsettled hne
    settled := fun _ => rfl
    named := by
      rw [show u.releaseWaiters.subscribedSymbols = s.subscribedSymbols from hsymbols]
      exact h.named
    waiters := by
      rw [hreleases, if_neg (hwaits _), List.count_replicate]
      rfl
    whole := fun R hR => by
      dsimp only at hR
      split_ifs at hR
      · exact h.whole R hR
      · cases hR
        exact ⟨fun f hf => absurd hf List.not_mem_nil, rfl⟩
      · cases hR
    released := fun R hR => by
      rw [hreleases, List.count_replicate_self]
      dsimp only at hR
      split_ifs at hR with hbefore hautomatic
      · -- A second `connected` finds nobody waiting.
        have hnobody : ¬ s.Waits r := fun hw => absurd (hw.2.2.2.symm.trans hbefore) (by decide)
        have hreleased := h.released R hR
        rw [hidle, List.count_nil] at hreleased
        rw [hwaiters, h.settled hbefore, if_neg hnobody]
        exact hreleased
      · cases hR
        have hcurrent : s.Waits r :=
          ⟨hautomatic, by rw [hsocket]; rfl, hresolvers, Bool.eq_false_iff.mpr hbefore⟩
        rw [hwaiters, if_pos hcurrent]
        exact Nat.zero_add _
      · cases hR }

/-- The other messages leave the attempts alone. -/
theorem handleMessage_sameAttempts {m : Option ServerMessage}
    (hm : ∀ c, m ≠ some (.connected c)) (hnamed : "" ∉ s.subscribedSymbols) :
    SameAttempts s (s.handleMessage m) ∧ "" ∉ (s.handleMessage m).subscribedSymbols := by
  unfold handleMessage
  split
  · exact absurd rfl (hm _)
  · refine ⟨.of_eq rfl rfl rfl rfl rfl rfl rfl, fun hmem => hnamed ?_⟩
    exact (OrderedSet.mem_deleteAll.mp hmem).1
  · exact ⟨.of_eq rfl rfl rfl rfl rfl rfl rfl, hnamed⟩
  · exact ⟨.of_eq rfl rfl rfl rfl rfl rfl rfl, hnamed⟩
  · exact ⟨.of_eq rfl rfl rfl rfl rfl rfl rfl, hnamed⟩
  · exact ⟨.of_eq rfl rfl rfl rfl rfl rfl rfl, hnamed⟩
  · rename_i e
    rw [(s.handleError_sameMarket e).subscribedSymbols]
    refine ⟨?_, hnamed⟩
    unfold handleError
    split
    · refine .trans ?_ (scheduleThrottleFlush_sameAttempts _)
      exact .of_eq rfl rfl rfl rfl rfl rfl rfl
    · exact .of_eq rfl rfl rfl rfl rfl rfl rfl
  · unfold handleEntitlementChanged
    split
    · exact ⟨.of_eq rfl rfl rfl rfl rfl rfl rfl, hnamed⟩
    · exact ⟨.of_eq rfl rfl rfl rfl rfl rfl rfl, hnamed⟩
  · exact ⟨.of_eq rfl rfl rfl rfl rfl rfl rfl, hnamed⟩

theorem Balanced.message (h : Balanced s r) (i : Nat) {m : Option ServerMessage}
    (hm : ∀ c, m ≠ some (.connected c)) : Balanced ((s.announce i m).handleMessage m) r := by
  have hnamed : "" ∉ (s.announce i m).subscribedSymbols := by
    rw [(s.announce_sameMarket i m).subscribedSymbols]
    exact h.named
  obtain ⟨hsame, hnamed⟩ := handleMessage_sameAttempts hm hnamed
  exact h.of_same ((s.announce_sameAttempts i m).trans hsame) hnamed

/-! ## Continuations -/

/-- Sending issues the frame that is sent, to the wire or to the queue. -/
theorem issuedFrames_send (s : TckrGatewaySource) (msg : ClientMessage) :
    issuedFrames s (s.send msg) = [msg] := by
  have heffect := s.send_effect msg
  generalize s.send msg = t at heffect ⊢
  cases heffect with
  | direct h =>
    obtain ⟨socket, hs, ht⟩ := current_transmit h [msg]
    have hpending : (s.transmit [msg]).pendingOutbound = s.pendingOutbound := by
      rw [transmit_sockets_only]
    rw [issuedFrames, hpending, List.drop_length, List.append_nil, sent, sent, hs, ht]
    exact List.drop_left
  | queued h timer =>
    have hsent : sent { s with
        pendingOutbound := s.pendingOutbound ++ [msg]
        throttleTimer := timer } = s.sent := rfl
    rw [issuedFrames, hsent, List.drop_length, List.nil_append]
    exact List.drop_left

theorem send_snapshotRequests (s : TckrGatewaySource) (msg : ClientMessage) :
    (s.send msg).snapshotRequests = s.snapshotRequests := by
  have heffect := s.send_effect msg
  generalize s.send msg = t at heffect ⊢
  cases heffect with
  | direct h => rw [transmit_sockets_only]
  | queued h timer => rfl

/-- A continuation that changes neither the wire, the queue nor the requests issues nothing. -/
theorem issue_of_same (hsent : t.sent = s.sent) (hpending : t.pendingOutbound = s.pendingOutbound)
    (hrequests : t.snapshotRequests = s.snapshotRequests) (R : Recovery) : issue s t R = R := by
  rw [issue, issuedFrames, issuedSnapshots, hsent, hpending, hrequests, List.drop_length,
    List.drop_length, List.drop_length, List.append_nil, List.map_nil, List.map_nil,
    List.append_nil, List.append_nil]

/-- A released continuation resubscribes all that is subscribed, and asks for its snapshots. -/
theorem issue_afterAuthenticated {rest : List Continuation} (hnamed : "" ∉ s.subscribedSymbols)
    (hne : s.subscribedSymbols.elems ≠ []) (R : Recovery) :
    ∃ id, issue s ({ s with continuations := rest }.resume .afterAuthenticated) R =
      { R with
        frames := R.frames ++
          [(.subscribe s.subscribedSymbols.elems id, s.subscribedSymbols.elems)]
        snapshots := R.snapshots ++ s.subscribedSymbols.elems } := by
  have hwanted := wanted_elems hnamed
  obtain ⟨u, hu⟩ : ∃ u : TckrGatewaySource, u = { s with
    continuations := rest
    subscribedSymbols := s.subscribedSymbols.addAll s.subscribedSymbols.elems
    requestSeq := s.requestSeq + 1 } := ⟨_, rfl⟩
  obtain ⟨msg, hmsg⟩ : ∃ msg, msg = ClientMessage.subscribe s.subscribedSymbols.elems
    s.nextRequestId := ⟨_, rfl⟩
  have hresume : { s with continuations := rest }.resume .afterAuthenticated =
      { u.send msg with
        snapshotRequests := (u.send msg).snapshotRequests ++
          s.subscribedSymbols.elems.map fun symbol => { symbol := symbol } } := by
    unfold resume TckrGatewaySource.subscribe
    dsimp only
    rw [foldl_getSnapshot, hwanted, if_neg hne, hu, hmsg]
    rfl
  have hframes : issuedFrames s { u.send msg with
      snapshotRequests := (u.send msg).snapshotRequests ++
        s.subscribedSymbols.elems.map fun symbol => { symbol := symbol } } = [msg] := by
    have hsent := issuedFrames_send u msg
    rw [issuedFrames, show u.sent = s.sent by rw [hu]; rfl,
      show u.pendingOutbound = s.pendingOutbound by rw [hu]] at hsent
    exact hsent
  have hrequests : (u.send msg).snapshotRequests = s.snapshotRequests := by
    rw [send_snapshotRequests, hu]
  refine ⟨s.nextRequestId, ?_⟩
  rw [hresume, issue, hframes, issuedSnapshots, hrequests, List.drop_left, List.map_map,
    List.map_singleton, hmsg]
  congr 2
  exact List.map_id _

theorem resume_afterAuthenticated_sameAttempts (s : TckrGatewaySource) :
    SameAttempts s (s.resume .afterAuthenticated) := by
  unfold resume
  dsimp only
  rw [foldl_getSnapshot]
  refine .trans (s.subscribe_sameAttempts s.subscribedSymbols.elems) ?_
  exact .of_eq rfl rfl rfl rfl rfl rfl rfl

theorem named_subscribe (hnamed : "" ∉ s.subscribedSymbols) (symbols : List String) :
    "" ∉ (s.subscribe symbols).subscribedSymbols := by
  rw [(s.subscribe_sameMarket symbols).subscribedSymbols, OrderedSet.mem_addAll, not_or]
  exact ⟨hnamed, fun hmem => absurd rfl (of_decide_eq_true (List.mem_filter.mp hmem).2)⟩

theorem named_unsubscribe (hnamed : "" ∉ s.subscribedSymbols) (symbols : List String) :
    "" ∉ (s.unsubscribe symbols).subscribedSymbols := by
  rw [(s.unsubscribe_sameMarket symbols).subscribedSymbols, OrderedSet.mem_deleteAll]
  exact fun hmem => hnamed hmem.1

theorem named_resume (hnamed : "" ∉ s.subscribedSymbols) :
    "" ∉ (s.resume .afterAuthenticated).subscribedSymbols := by
  unfold resume
  dsimp only
  rw [foldl_getSnapshot]
  exact named_subscribe hnamed s.subscribedSymbols.elems

/-- An attempt that has yet to wait is not authenticated. -/
theorem Balanced.authenticated_eq (h : Balanced s r) (hmem : .afterOpen ∈ s.continuations) :
    s.authenticated = false := by
  by_contra hauth
  rw [Bool.not_eq_false] at hauth
  have hnobody : ¬ s.Waits r := fun hw => absurd (hw.2.2.2.symm.trans hauth) (by decide)
  have hwaiters := h.waiters
  have hcount := List.count_pos_iff.mpr hmem
  rw [if_neg hnobody, h.settled hauth] at hwaiters
  omega

theorem Balanced.resume (h : Balanced s r) {c : Continuation} {rest : List Continuation}
    (hc : s.continuations = c :: rest)
    (hne : s.continuations.head? = some .afterAuthenticated → s.subscribedSymbols.elems ≠ []) :
    Balanced ({ s with continuations := rest }.resume c)
      { r with
        recovery := r.recovery.map (issue s ({ s with continuations := rest }.resume c)) } := by
  have hwaiters := h.waiters
  have hreleased := h.released
  rw [hc] at hwaiters hreleased
  cases c with
  | afterOpen =>
    have hauth := h.authenticated_eq (hc ▸ List.mem_cons_self)
    have hresume : { s with continuations := rest }.resume .afterOpen =
        { s with continuations := rest, authWaiters := s.authWaiters + 1 } := by
      rw [TckrGatewaySource.resume, if_neg (by rw [hauth]; decide)]
    rw [hresume]
    have hissue : issue s { s with continuations := rest, authWaiters := s.authWaiters + 1 } = id :=
      funext (issue_of_same rfl rfl rfl)
    rw [hissue, Option.map_id_fun, id_eq]
    rw [List.count_cons_self] at hwaiters
    exact {
      tracked := h.tracked.of_sameSockets (.of_eq rfl rfl)
      timer := h.timer
      connecting := h.connecting
      opened := h.opened
      unauthenticated := h.unauthenticated
      settled := h.settled
      named := h.named
      waiters := (by rw [add_right_comm]; exact hwaiters)
      whole := h.whole
      released := hreleased }
  | afterAuthenticated =>
    have hne := hne (by rw [hc]; rfl)
    refine Balanced.of_same (s := { s with continuations := rest }) ?_
      (resume_afterAuthenticated_sameAttempts _) ?_
    · refine {
        tracked := h.tracked.of_sameSockets (.of_eq rfl rfl)
        timer := h.timer
        connecting := h.connecting
        opened := h.opened
        unauthenticated := h.unauthenticated
        settled := h.settled
        named := h.named
        waiters := hwaiters
        whole := fun R' hR' => ?_
        released := fun R' hR' => ?_ }
      · obtain ⟨R, hR, rfl⟩ := Option.map_eq_some_iff.mp hR'
        obtain ⟨id, hissue⟩ := @issue_afterAuthenticated s rest h.named hne R
        rw [hissue]
        refine ⟨fun f hf => ?_, ?_⟩
        · rcases List.mem_append.mp hf with hf | hf
          · exact (h.whole R hR).frames f hf
          · rw [List.mem_singleton.mp hf]
            exact ⟨s.subscribedSymbols.nodup, id, rfl⟩
        · rw [List.flatMap_append, (h.whole R hR).snapshots, List.flatMap_singleton]
      · obtain ⟨R, hR, rfl⟩ := Option.map_eq_some_iff.mp hR'
        obtain ⟨id, hissue⟩ := @issue_afterAuthenticated s rest h.named hne R
        have hreleased := hreleased R hR
        rw [List.count_cons_self] at hreleased
        rw [hissue, List.length_append, List.length_singleton]
        show R.frames.length + 1 + rest.count .afterAuthenticated = R.lost + 1
        omega
    · exact named_resume (s := { s with continuations := rest }) h.named

/-! ## Runs -/

theorem Balanced.step {a : Action} (h : Balanced s r) (hg : s.Automatic a)
    (hstep : s.step a = some t) : Balanced t (recordAttempts s a t r) := by
  cases step_cases hstep with
  | call c =>
    cases c with
    | connect => exact h.connect hg
    | disconnect => exact h.disconnect.1
    | reconnectSharedSource =>
      have hsocket : s.disconnect.socket = none := disconnect_socket.trans hg
      have hnot : ¬ s.disconnect.HasSocket := by
        rw [HasSocket, socketState, hsocket, Option.bind_none]
        rintro (hstate | hstate)
        · cases hstate
        · cases hstate
      have hconnect := h.disconnect.1.connect (.inr ⟨hsocket, h.disconnect.2⟩)
      rw [if_neg hnot] at hconnect
      exact hconnect
    | subscribe symbols =>
      exact h.of_same (s.subscribe_sameAttempts symbols) (named_subscribe h.named symbols)
    | unsubscribe symbols =>
      exact h.of_same (s.unsubscribe_sameAttempts symbols) (named_unsubscribe h.named symbols)
    | getSnapshot symbol => exact h.of_same (.of_eq rfl rfl rfl rfl rfl rfl rfl) h.named
  | opened hidle hi => exact h.handleOpen hidle hi
  | @message i m hidle hi =>
    cases m with
    | none => exact h.message i (fun _ hc => by cases hc)
    | some m =>
      cases m with
      | connected c => exact h.connected hidle hi c
      | subscribed | unsubscribed | tick | snapshot | heartbeat | error | entitlementChanged =>
        exact h.message i (fun _ hc => by cases hc)
  | closing hidle hi => exact h.closing ⟨_, hi, by decide⟩
  | closed hidle hi => exact h.closed hi
  | throttle =>
    refine h.of_same s.throttleTimerFired_sameAttempts ?_
    rw [s.throttleTimerFired_sameMarket.subscribedSymbols]
    exact h.named
  | reconnect hidle htimer =>
    have hfree := h.timer (by rw [htimer]; exact Option.some_ne_none _)
    exact @Balanced.openSocket _ r h.of_timer hfree rfl .reconnectNow true rfl
  | watchdog =>
    apply Balanced.forceLocalClose
    exact h.of_same (.of_eq rfl rfl rfl rfl rfl rfl rfl) h.named
  | ping =>
    refine h.of_same s.ping_sameAttempts ?_
    rw [s.ping_sameMarket.subscribedSymbols]
    exact h.named
  | continuation hc => exact h.resume hc hg
  | frame | snapshotAnswered | snapshotArrived | snapshotFailed | universeArrived | advance =>
    exact h.of_same (.of_eq rfl rfl rfl rfl rfl rfl rfl) h.named

theorem balanced_init : Balanced gateway.init {} where
  tracked := tracked_init
  timer htimer := absurd rfl htimer
  connecting hstate := by cases hstate
  opened _ := rfl
  unauthenticated hne := absurd rfl hne
  settled _ := rfl
  named := List.not_mem_nil
  waiters := rfl
  whole R hR := by cases hR
  released R hR := by cases hR

/-- Once all that a `connected` released has run, there was one round for the attempt that
reached it and one for each that was lost before. -/
theorem length_frames {as : List Action} {s : TckrGatewaySource} {r : Attempts} {R : Recovery}
    (hg : attempting.Guarded (fun p => p.1.Automatic) attempting.init as)
    (h : attempting.run as = some (s, r)) (hidle : s.continuations = [])
    (hR : r.recovery = some R) : Whole R ∧ R.frames.length = R.lost + 1 := by
  have hbalanced : Balanced s r := by
    refine Machine.run_invariant_of_guarded (m := attempting) (I := fun p => Balanced p.1 p.2)
      balanced_init ?_ hg h
    intro p a q hp ha hq
    obtain ⟨hq, hrecord⟩ := Machine.withHistory_step gateway |>.mp hq
    rw [hrecord]
    exact hp.step ha hq
  have hreleased := hbalanced.released R hR
  rw [hidle, List.count_nil, Nat.add_zero] at hreleased
  exact ⟨hbalanced.whole R hR, hreleased⟩

/-- In every run of drops and automatic attempts: what a `connected` led to is one round exactly
when no attempt had lost an open socket since the `connected` before. -/
theorem recovered_once_iff {as : List Action} {s : TckrGatewaySource} {r : Attempts}
    {R : Recovery} (hg : attempting.Guarded (fun p => p.1.Automatic) attempting.init as)
    (h : attempting.run as = some (s, r)) (hidle : s.continuations = [])
    (hR : r.recovery = some R) : R.Once ↔ R.lost = 0 := by
  obtain ⟨hwhole, hlength⟩ := length_frames hg h hidle hR
  rw [hwhole.once_iff, hlength]
  exact ⟨fun heq => Nat.succ.inj heq, fun heq => congrArg (· + 1) heq⟩

/-- A drop, an attempt that never opens, and one that reaches `connected`. -/
def unopenedAttempt : List Action :=
  [.call .connect, .socket 0 .open, .socket 0 (hello .live), .call (.subscribe ["COMI", "HRHO"]),
    .socket 0 (.close 1006 "" 0), .advance 400, .timer .reconnect,
    .socket 1 (.close 1006 "" 0), .advance 800, .timer .reconnect, .socket 2 .open,
    .continuation, .socket 2 (hello .live), .continuation]

/-- The attempt that never opened leaves no trace. -/
theorem recovered_once_iff_unopenedAttempt :
    ∃ p R, attempting.run unopenedAttempt = some p ∧ p.2.recovery = some R ∧ R.Once := by
  refine ⟨(attempting.run unopenedAttempt).getD attempting.init,
    ⟨0, [(.subscribe ["COMI", "HRHO"] "gw-2", ["COMI", "HRHO"])], ["COMI", "HRHO"]⟩,
    by decide +kernel, by decide +kernel, ?_⟩
  exact (@recovered_once_iff unopenedAttempt
    ((attempting.run unopenedAttempt).getD attempting.init).1
    ((attempting.run unopenedAttempt).getD attempting.init).2 _ (by decide +kernel)
    (by decide +kernel) (by decide +kernel) (by decide +kernel)).mpr rfl

/-- A drop, an attempt whose socket is lost before `connected`, and one that reaches it. -/
def lostAttempt : List Action :=
  [.call .connect, .socket 0 .open, .socket 0 (hello .live), .call (.subscribe ["COMI", "HRHO"]),
    .socket 0 (.close 1006 "" 0), .advance 400, .timer .reconnect, .socket 1 .open, .continuation,
    .socket 1 (.close 1006 "" 0), .advance 800, .timer .reconnect, .socket 2 .open,
    .continuation, .socket 2 (hello .live), .continuation, .continuation]

/-- The lost attempt resubscribes a second time. -/
theorem not_recovered_once :
    ¬ ∀ (as : List Action) (s : TckrGatewaySource) (r : Attempts) (R : Recovery),
      attempting.Guarded (fun p => p.1.Automatic) attempting.init as →
      attempting.run as = some (s, r) → s.continuations = [] → r.recovery = some R →
      R.Once := by
  intro h
  obtain ⟨symbols, id, hframes, -, -⟩ := h lostAttempt
    ((attempting.run lostAttempt).getD attempting.init).1
    ((attempting.run lostAttempt).getD attempting.init).2
    ⟨1, [(.subscribe ["COMI", "HRHO"] "gw-2", ["COMI", "HRHO"]),
      (.subscribe ["COMI", "HRHO"] "gw-3", ["COMI", "HRHO"])], ["COMI", "HRHO", "COMI", "HRHO"]⟩
    (by decide +kernel) (by decide +kernel) (by decide +kernel) (by decide +kernel)
  cases congrArg List.length hframes

end Tckr.MarketWatch.TckrGatewaySource
