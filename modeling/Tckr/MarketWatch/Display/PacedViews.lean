import Tckr.Core.Collections
import Tckr.Core.LiveMap
import Tckr.Core.Machine

/-!
# One beat

The painted view of each symbol and the beat that everything on screen moves on. A
listener is any script that calls into the module and returns, so a run is made of the
calls of scripts, of their returns and of the steps the module takes in between: listeners
may subscribe and unsubscribe while the module walks over its entries. Views are the
objects the store holds, and the store's records hold nothing else here.
-/

namespace Tckr.MarketWatch

/-- A symbol's view as painted, and who is told when it changes. -/
structure PacedEntry (V L : Type) where
  view : Option V
  listeners : OrderedSet L

/-- A function that ends a subscription, by what it closes over. -/
inductive Unsubscribe (L : Type)
  | symbol (symbol : String) (active : Nat) (cb : L)
  | beat (cb : L)
  deriving DecidableEq

/-- A listener of the store's stream discards. -/
inductive DiscardListener (L : Type)
  | publishAll
  | other (cb : L)
  deriving DecidableEq

/-- What the event loop has begun and not finished. -/
inductive Task (L : Type)
  | idle
  /-- The walk of `publishAll` in a beat. -/
  | beatPublishing (position : Nat)
  /-- The listeners a beat has still to call. -/
  | beatListening (remaining : List L)
  /-- The walk of `resetStream` over the records. -/
  | clearing (position : Nat)
  /-- The walk of `resetStream` over the discard listeners. -/
  | discarding (position : Nat)
  /-- The walk of `publishAll` as one of these listeners. -/
  | discardPublishing (outer position : Nat)

/-- A call within the task that has not returned. -/
inductive Call (L : Type)
  /-- The listeners `publish` has still to call. -/
  | publish (remaining : List L)
  | listener (cb : L)
  /-- The store's own listeners of a symbol. -/
  | notify (symbol : String)

structure PacedViews (V L : Type) where
  /-- The store's views. -/
  records : LiveMap String (Option V)
  streamDiscardListeners : LiveMap (DiscardListener L) Unit
  /-- The entries that were ever made. -/
  heap : List (PacedEntry V L)
  entries : LiveMap String Nat
  beatListeners : OrderedSet L
  /-- A timer is set. -/
  beatTimer : Bool
  /-- The discards are watched. -/
  stopDiscardWatch : Bool
  /-- The functions that were returned to subscribers. -/
  returned : List (Unsubscribe L)
  task : Task L
  /-- The calls within the task, the innermost first. -/
  calls : List (Call L)

namespace PacedViews

variable {V L : Type}

def getSymbolSnapshot (s : PacedViews V L) (symbol : String) : Option V :=
  (s.records.get? symbol).join

/-- The view of an entry. -/
def viewOf (s : PacedViews V L) (entry : Nat) : Option V := s.heap[entry]?.bind PacedEntry.view

def getPacedSymbolSnapshot (s : PacedViews V L) (symbol : String) : Option V :=
  match s.entries.get? symbol with
  | some entry => s.viewOf entry
  | none => s.getSymbolSnapshot symbol

/-- Neither an entry nor a beat listener is there. -/
def unheard (s : PacedViews V L) : Bool := s.entries.isEmpty && s.beatListeners.elems.isEmpty

def schedule (s : PacedViews V L) : PacedViews V L :=
  if s.beatTimer || s.unheard then s else { s with beatTimer := true }

/-- A script runs: a listener, or whatever the event loop runs between tasks. -/
def scripting (s : PacedViews V L) : Bool :=
  match s.calls, s.task with
  | .listener _ :: _, _ => true
  | .notify _ :: _, _ => true
  | .publish _ :: _, _ => false
  | [], .idle => true
  | [], _ => false

/-- No listener runs, nor anything that could have called it. -/
def atRest (s : PacedViews V L) : Bool :=
  match s.calls, s.task with
  | [], .idle => true
  | _, _ => false

section

variable [DecidableEq L]

def start (s : PacedViews V L) : PacedViews V L :=
  schedule { s with
    stopDiscardWatch := true
    streamDiscardListeners :=
      if s.stopDiscardWatch then s.streamDiscardListeners
      else s.streamDiscardListeners.set .publishAll () }

def stopIfIdle (s : PacedViews V L) : PacedViews V L :=
  if s.unheard then
    { s with
      beatTimer := false
      stopDiscardWatch := false
      streamDiscardListeners :=
        if s.stopDiscardWatch then s.streamDiscardListeners.delete .publishAll
        else s.streamDiscardListeners }
  else s

/-- Change the listeners of an entry. -/
def listen (s : PacedViews V L) (entry : Nat) (f : OrderedSet L → OrderedSet L) : PacedViews V L :=
  { s with
    heap := s.heap.modify entry fun active => { active with listeners := f active.listeners } }

/-- The state with an entry for the symbol, made if it has none. -/
def withEntry (s : PacedViews V L) (symbol : String) : PacedViews V L :=
  if (s.entries.get? symbol).isSome then s
  else
    { s with
      heap := s.heap ++ [⟨s.getSymbolSnapshot symbol, .empty⟩]
      entries := s.entries.set symbol s.heap.length }

/-- The entry of the symbol, or the one that is made for it. -/
def entryFor (s : PacedViews V L) (symbol : String) : Nat :=
  (s.entries.get? symbol).getD s.heap.length

def subscribePacedSymbol (s : PacedViews V L) (symbol : String) (cb : L) : PacedViews V L :=
  let active := s.entryFor symbol
  let s := (s.withEntry symbol).listen active (·.add cb)
  { s.start with returned := s.returned ++ [.symbol symbol active cb] }

def subscribeBeat (s : PacedViews V L) (cb : L) : PacedViews V L :=
  let s := { s with beatListeners := s.beatListeners.add cb }
  { s.start with returned := s.returned ++ [.beat cb] }

/-- The entry is removed if it is the symbol's and nobody listens any more. -/
def dropSilent (s : PacedViews V L) (symbol : String) (active : Nat) : PacedViews V L :=
  if s.heap[active]?.any (·.listeners.elems.isEmpty) ∧ s.entries.get? symbol = some active then
    { s with entries := s.entries.delete symbol }
  else s

def unsubscribe (s : PacedViews V L) : Unsubscribe L → PacedViews V L
  | .symbol symbol active cb =>
      ((s.listen active (·.delete cb)).dropSilent symbol active).stopIfIdle
  | .beat cb => stopIfIdle { s with beatListeners := s.beatListeners.delete cb }

variable [DecidableEq V]

def publish (s : PacedViews V L) (symbol : String) (entry : Nat) : PacedViews V L :=
  match s.heap[entry]? with
  | none => s
  | some active =>
      let next := s.getSymbolSnapshot symbol
      if next = active.view then s
      else
        { s with
          heap := s.heap.set entry { active with view := next }
          calls := .publish active.listeners.elems :: s.calls }

def flushPacedSymbol (s : PacedViews V L) (symbol : String) : PacedViews V L :=
  match s.entries.get? symbol with
  | some entry => s.publish symbol entry
  | none => s

/-- The next step of what runs outside of scripts. -/
def proceed (s : PacedViews V L) : Option (PacedViews V L) :=
  match s.calls, s.task with
  | .listener _ :: _, _ => none
  | .notify _ :: _, _ => none
  | .publish [] :: calls, _ => some { s with calls := calls }
  | .publish (cb :: remaining) :: calls, _ =>
      some { s with calls := .listener cb :: .publish remaining :: calls }
  | [], .idle => none
  | [], .beatPublishing position =>
      match s.entries.next position with
      | some (position, symbol, entry) =>
          some (publish { s with task := .beatPublishing position } symbol entry)
      | none => some { s with task := .beatListening s.beatListeners.elems }
  | [], .beatListening (cb :: remaining) =>
      some { s with task := .beatListening remaining, calls := [.listener cb] }
  | [], .beatListening [] => some (schedule { s with task := .idle })
  | [], .clearing position =>
      match s.records.next position with
      | some (position, symbol, some _) =>
          some { s with
            records := s.records.set symbol none
            task := .clearing position
            calls := [.notify symbol] }
      | some (position, _, none) => some { s with task := .clearing position }
      | none => some { s with task := .discarding 0 }
  | [], .discarding position =>
      match s.streamDiscardListeners.next position with
      | some (position, .publishAll, _) => some { s with task := .discardPublishing position 0 }
      | some (position, .other cb, _) =>
          some { s with task := .discarding position, calls := [.listener cb] }
      | none => some { s with task := .idle }
  | [], .discardPublishing outer position =>
      match s.entries.next position with
      | some (position, symbol, entry) =>
          some (publish { s with task := .discardPublishing outer position } symbol entry)
      | none => some { s with task := .discarding outer }

end

end PacedViews

/-- A call of a script, its return, or the next step of what runs outside of scripts. -/
inductive PacedAction (V L : Type)
  | subscribePacedSymbol (symbol : String) (cb : L)
  | subscribeBeat (cb : L)
  /-- Call one of the functions that were returned, for the first time or again. -/
  | unsubscribe (index : Nat)
  | flushPacedSymbol (symbol : String)
  /-- Other listeners come and go too. -/
  | onStreamDiscard (cb : L)
  | offStreamDiscard (cb : L)
  /-- A tick or a snapshot gives the symbol a view. -/
  | write (symbol : String) (view : V)
  | resetStream
  /-- The timer has fired. -/
  | beat
  /-- The innermost listener returns. -/
  | ends
  | proceed

open PacedViews in
/-- Listeners subscribe, unsubscribe and flush; they do not write the store. -/
def pacedViews (V L : Type) [DecidableEq V] [DecidableEq L] :
    Machine (PacedViews V L) (PacedAction V L) where
  init :=
    { records := .empty
      streamDiscardListeners := .empty
      heap := []
      entries := .empty
      beatListeners := .empty
      beatTimer := false
      stopDiscardWatch := false
      returned := []
      task := .idle
      calls := [] }
  step s
    | .subscribePacedSymbol symbol cb =>
        if s.scripting then some (s.subscribePacedSymbol symbol cb) else none
    | .subscribeBeat cb => if s.scripting then some (s.subscribeBeat cb) else none
    | .unsubscribe index =>
        if s.scripting then s.returned[index]?.map s.unsubscribe else none
    | .flushPacedSymbol symbol => if s.scripting then some (s.flushPacedSymbol symbol) else none
    | .onStreamDiscard cb =>
        if s.scripting then
          some { s with streamDiscardListeners := s.streamDiscardListeners.set (.other cb) () }
        else none
    | .offStreamDiscard cb =>
        if s.scripting then
          some { s with streamDiscardListeners := s.streamDiscardListeners.delete (.other cb) }
        else none
    | .write symbol view =>
        if s.atRest then some { s with records := s.records.set symbol (some view) } else none
    | .resetStream => if s.atRest then some { s with task := .clearing 0 } else none
    | .beat =>
        if s.atRest then some { s with beatTimer := false, task := .beatPublishing 0 } else none
    | .ends =>
        match s.calls with
        | .listener _ :: calls => some { s with calls := calls }
        | .notify _ :: calls => some { s with calls := calls }
        | _ => none
    | .proceed => s.proceed

end Tckr.MarketWatch
