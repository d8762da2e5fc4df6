import SyncEngine.Core.Types
import SyncEngine.Machine.Runs

/-!
# The event bus

`src/core/event-bus.ts`, with the code around it.  The bus calls middleware and the emitter calls
handlers, and both may do anything before they return, also call the bus.  `EventProcess` therefore
keeps the calls of `emit` and `emitSync` that have not ended, the innermost first.  A step is one
stretch of the bus's and the emitter's own code, and the inputs are everything else: the calls that
running code makes, and how a middleware or a handler ends.  Nothing here waits for a promise:
`emit` is asynchronous in its type only.

The emitter is a library.  What the bus relies on is that `listeners` lists the handlers of an event
and that `emit` calls these in turn until one throws, which ends it with that exception; how
`on`, `once` and `off` change the lists is left to the inputs.

`passed` and `settled` are a record for the specification: the envelopes that have passed the
middleware, and those whose `emit` has ended, with what their handlers did.
-/

namespace SyncEngine

open Js

structure EventEnvelope (P : Type) where
  /-- `generateId()`, the number of the id drawn -/
  id : ℕ
  event : String
  payload : P
  source : String
  timestamp : Timestamp
  metadata : Option (Js.Map String P)

structure EventStats where
  emitted : ℕ
  handled : ℕ
  errors : ℕ
  avgHandleTimeMs : ℚ

structure EventBus (P H : Type) where
  stats : Js.Map String EventStats
  deadLetterQueue : List (EventEnvelope P)
  maxDeadLetters : ℕ
  /-- the number of middleware functions -/
  middleware : ℕ
  /-- `emitter.listeners` -/
  listeners : String → List H

namespace EventBus

variable {P H : Type}

/-- `new EventBus(maxDeadLetters)`. -/
def new (maxDeadLetters : ℕ) : EventBus P H := ⟨.empty, [], maxDeadLetters, 0, fun _ => []⟩

def use (b : EventBus P H) : EventBus P H := { b with middleware := b.middleware + 1 }

def addToDeadLetter (b : EventBus P H) (envelope : EventEnvelope P) : EventBus P H :=
  let queue := b.deadLetterQueue ++ [envelope]
  { b with deadLetterQueue := if queue.length > b.maxDeadLetters then queue.tail else queue }

/-- A new entry of the statistics. -/
def newStats : EventStats := ⟨0, 0, 0, 0⟩

def getOrCreateStats (b : EventBus P H) (event : String) : EventBus P H :=
  match b.stats.get? event with
  | some _ => b
  | none => { b with stats := b.stats.set event newStats }

/-- Write to the entry of an event. -/
def count (b : EventBus P H) (event : String) (f : EventStats → EventStats) : EventBus P H :=
  { b with stats := b.stats.modify event f }

/-- The entry of an event, or a new one. -/
def statsOf (b : EventBus P H) (event : String) : EventStats :=
  (b.stats.get? event).getD newStats

end EventBus

/-! ## Calls in progress -/

/-- How a handler ended. -/
inductive HandlerResult
  | returned
  | threw
  /-- It returned a promise that rejects. -/
  | rejected
  deriving DecidableEq

/-- An envelope that has passed the middleware of an `emit`. -/
structure Emission (P : Type) where
  event : String
  envelope : EventEnvelope P

inductive EmitMode
  | emit
  | emitSync
  deriving DecidableEq

/-- The loop of the emitter over the handlers of an event. -/
structure Handling (P H : Type) where
  mode : EmitMode
  emission : Emission P
  start : Timestamp
  pending : List H
  running : Option H
  /-- how the handlers that were called have ended -/
  results : List HandlerResult

inductive EventFrame (P H : Type)
  /-- the loop of `emit` over the middleware, and whether it has called one -/
  | filtering (event : String) (envelope : EventEnvelope P) (index : ℕ) (calling : Bool)
  | handling (h : Handling P H)

structure EventProcess (P H : Type) where
  bus : EventBus P H
  /-- the number of ids drawn so far -/
  drawn : ℕ
  stack : List (EventFrame P H)
  passed : List (Emission P)
  /-- the envelopes whose `emit` has ended, with how their handlers ended if they had any -/
  settled : List (Emission P × Option (List HandlerResult))

inductive EventInput (P H : Type)
  | use
  /-- The handlers are others, by `on`, `once`, `off` or `removeAllListeners`, or because the
  emitter has called a handler that was added by `once`. -/
  | listen (listeners : String → List H)
  | emit (event : String) (payload : P) (source : String) (metadata : Option (Js.Map String P))
      (now : Timestamp)
  | emitSync (event : String) (payload : P) (source : String) (now : Timestamp)
  /-- The bus or the emitter takes its next turn. -/
  | advance (now : Timestamp)
  /-- The innermost middleware returns an envelope, or nothing. -/
  | filtered (result : Option (EventEnvelope P))
  /-- The innermost handler returns. -/
  | returned (rejects : Bool)
  /-- The innermost middleware or handler throws. -/
  | threw

namespace EventProcess

variable {P H : Type}

/-- A process with a new bus. -/
def new (maxDeadLetters : ℕ) : EventProcess P H := ⟨.new maxDeadLetters, 0, [], [], []⟩

/-- Code other than that of the bus and the emitter is running. -/
def idle (σ : EventProcess P H) : Bool :=
  match σ.stack with
  | [] => true
  | .filtering _ _ _ calling :: _ => calling
  | .handling h :: _ => h.running.isSome

/-- `emit`, up to its loop over the middleware. -/
def emit (σ : EventProcess P H) (event : String) (payload : P) (source : String)
    (metadata : Option (Js.Map String P)) (now : Timestamp) : EventProcess P H :=
  let envelope := ⟨σ.drawn, event, payload, source, now, metadata⟩
  { σ with drawn := σ.drawn + 1, stack := .filtering event envelope 0 false :: σ.stack }

/-- `emitSync`, up to the loop of the emitter. -/
def emitSync (σ : EventProcess P H) (event : String) (payload : P) (source : String)
    (now : Timestamp) : EventProcess P H :=
  let envelope := ⟨σ.drawn, event, payload, source, now, none⟩
  { σ with
    drawn := σ.drawn + 1
    stack := .handling ⟨.emitSync, ⟨event, envelope⟩, now, σ.bus.listeners event, none, []⟩ ::
      σ.stack }

/-- `emit` behind its loop over the middleware, up to the loop of the emitter. -/
def accept (σ : EventProcess P H) (e : Emission P) (rest : List (EventFrame P H))
    (now : Timestamp) : EventProcess P H :=
  let bus := (σ.bus.getOrCreateStats e.event).count e.event fun s =>
    { s with emitted := s.emitted + 1 }
  let listeners := bus.listeners e.event
  if listeners.length = 0 then
    { σ with
      bus := bus.addToDeadLetter e.envelope
      stack := rest
      passed := σ.passed ++ [e]
      settled := σ.settled ++ [(e, none)] }
  else
    { σ with
      bus := bus
      stack := .handling ⟨.emit, e, now, listeners, none, []⟩ :: rest
      passed := σ.passed ++ [e] }

/-- The emitter has called every handler. -/
def finish (σ : EventProcess P H) (h : Handling P H) (rest : List (EventFrame P H))
    (now : Timestamp) : EventProcess P H :=
  match h.mode with
  | .emitSync => { σ with stack := rest }
  | .emit =>
    let elapsed : ℚ := now - h.start
    { σ with
      bus := σ.bus.count h.emission.event fun s =>
        { s with
          handled := s.handled + 1
          avgHandleTimeMs := s.avgHandleTimeMs * (9 / 10) + elapsed * (1 / 10) }
      stack := rest
      settled := σ.settled ++ [(h.emission, some h.results)] }

/-- A handler has thrown: `emit` catches the exception, and `emitSync` throws it on. -/
def fail (σ : EventProcess P H) (h : Handling P H) (rest : List (EventFrame P H)) :
    EventProcess P H :=
  match h.mode with
  | .emitSync => { σ with stack := rest }
  | .emit =>
    { σ with
      bus := (σ.bus.count h.emission.event fun s =>
        { s with errors := s.errors + 1 }).addToDeadLetter h.emission.envelope
      stack := rest
      settled := σ.settled ++ [(h.emission, some (h.results ++ [.threw]))] }

def advance (σ : EventProcess P H) (now : Timestamp) : EventProcess P H :=
  match σ.stack with
  | [] => σ
  | .filtering event envelope index calling :: rest =>
    if calling then σ
    else if index < σ.bus.middleware then
      { σ with stack := .filtering event envelope index true :: rest }
    else σ.accept ⟨event, envelope⟩ rest now
  | .handling h :: rest =>
    if h.running.isSome then σ
    else
      match h.pending with
      | [] => σ.finish h rest now
      | handler :: pending =>
        { σ with stack := .handling { h with pending := pending, running := some handler } :: rest }

/-- The innermost middleware returns. -/
def filtered (σ : EventProcess P H) (result : Option (EventEnvelope P)) : EventProcess P H :=
  match σ.stack with
  | .filtering event _ index true :: rest =>
    match result with
    | none => { σ with stack := rest }
    | some envelope => { σ with stack := .filtering event envelope (index + 1) false :: rest }
  | _ => σ

/-- The innermost handler returns. -/
def returned (σ : EventProcess P H) (rejects : Bool) : EventProcess P H :=
  match σ.stack with
  | .handling h :: rest =>
    if h.running.isSome then
      let result := if rejects then HandlerResult.rejected else .returned
      { σ with
        stack := .handling { h with running := none, results := h.results ++ [result] } :: rest }
    else σ
  | _ => σ

/-- The innermost middleware or handler throws.  A middleware's exception rejects the promise of
`emit`, which has done nothing yet. -/
def threw (σ : EventProcess P H) : EventProcess P H :=
  match σ.stack with
  | .filtering _ _ _ true :: rest => { σ with stack := rest }
  | .handling h :: rest => if h.running.isSome then σ.fail h rest else σ
  | _ => σ

/-- What running code does, and nothing where the bus or the emitter is running itself. -/
def whenIdle (σ : EventProcess P H) (f : EventProcess P H → EventProcess P H) : EventProcess P H :=
  if σ.idle then f σ else σ

def step (σ : EventProcess P H) : EventInput P H → EventProcess P H
  | .use => σ.whenIdle fun σ => { σ with bus := σ.bus.use }
  | .listen listeners => σ.whenIdle fun σ => { σ with bus := { σ.bus with listeners := listeners } }
  | .emit event payload source metadata now => σ.whenIdle fun σ =>
    σ.emit event payload source metadata now
  | .emitSync event payload source now => σ.whenIdle fun σ => σ.emitSync event payload source now
  | .advance now => σ.advance now
  | .filtered result => σ.filtered result
  | .returned rejects => σ.returned rejects
  | .threw => σ.threw

end EventProcess

end SyncEngine
