import SyncEngine.Core.RingBuffer
import SyncEngine.Core.Types
import SyncEngine.Machine.Runs

/-!
# The message broker

`src/core/message-broker.ts`, with the code around it.  The broker calls handlers, and what a
handler does is not the broker's to say: it may return, throw, return a promise that settles later,
and call the broker again before it returns.  `Process` therefore keeps the calls of the broker that
have not ended: those on the stack, the innermost first, and the publishes that wait for a handler's
promise.  A step is one stretch of the broker's own code, and the inputs are everything else: the
calls that running code makes, how a handler returns, and which promise settles next.

The stretches are as long as the source makes them.  `publish` and `publishSync` run up to their
loop; `advance` is one turn of the innermost loop, up to the call of a handler; a handler that
returns to `publish` suspends it, and one that returns to `publishSync` does not.

JavaScript iterates over a live `Set` or `Map`: what is added behind the cursor is visited, what is
removed is not.  Ids are drawn from one counter, subscriptions of a channel and channels of the
broker stand in the order of their ids, and a cursor is the id from which on the loop still has to
look.  A `Set` that was dropped from the broker when it became empty is recognized by its own id.
-/

namespace SyncEngine

open Js

abbrev ChannelId := String

inductive MessageType
  | stateUpdate | stateDelta | stateSnapshot | stateRequest
  | entityCreate | entityUpdate | entityDelete
  | event | command | query | response
  | heartbeat | heartbeatAck
  | join | leave
  | nodeAnnounce | nodeGoodbye
  | error
  deriving DecidableEq

structure SyncMessage (P : Type) where
  /-- `generateId()`, the number of the id drawn -/
  id : ℕ
  type : MessageType
  channel : ChannelId
  source : NodeId
  target : Option NodeId
  payload : P
  timestamp : Timestamp
  sequence : ℕ
  ttl : ℕ

structure Subscription (P : Type) where
  id : ℕ
  channel : ChannelId
  filter : Option (SyncMessage P → Except JsError Bool)

/-- `sub.filter && !sub.filter(message)` is false. -/
def Subscription.accepts {P : Type} (s : Subscription P) (message : SyncMessage P) :
    Except JsError Bool :=
  match s.filter with
  | none => .ok true
  | some filter => filter message

/-- The subscriptions of a channel; `id` tells the `Set` from later ones of the channel. -/
structure ChannelSubs (P : Type) where
  id : ℕ
  subs : List (Subscription P)

/-- The statistics of a channel, made and dropped with its `Set`. -/
structure ChannelStats where
  delivered : ℕ
  dropped : ℕ
  createdAt : Timestamp
  deriving DecidableEq

structure MessageBroker (P : Type) where
  channels : Js.Map ChannelId (ChannelSubs P)
  channelStats : Js.Map ChannelId ChannelStats
  messageBuffer : RingBuffer (SyncMessage P)
  sequenceCounters : Js.Map ChannelId ℕ
  nodeId : NodeId

/-- `list.slice(start)`. -/
def slice {α : Type} (list : List α) (start : ℤ) : List α :=
  list.drop (if start < 0 then (list.length + start).toNat else start.toNat)

namespace MessageBroker

variable {P : Type}

/-- `new MessageBroker(nodeId, bufferSize)`. -/
def new (nodeId : NodeId) (bufferSize : ℕ) : MessageBroker P :=
  ⟨.empty, .empty, .new bufferSize, .empty, nodeId⟩

/-- The counter of a channel. -/
def counter (b : MessageBroker P) (channel : ChannelId) : ℕ :=
  (b.sequenceCounters.get? channel).getD 0

/-- The message that `publish` and `publishSync` make. -/
def nextMessage (b : MessageBroker P) (id : ℕ) (channel : ChannelId) (type : MessageType)
    (payload : P) (target : Option NodeId) (now : Timestamp) : SyncMessage P :=
  ⟨id, type, channel, b.nodeId, target, payload, now, b.counter channel + 1, 30000⟩

/-- `nextSequence(channel)`, and the push of the message that carries it. -/
def accept (b : MessageBroker P) (message : SyncMessage P) : MessageBroker P :=
  { b with
    sequenceCounters := b.sequenceCounters.set message.channel (b.counter message.channel + 1)
    messageBuffer := (b.messageBuffer.push message).1 }

def getRecentMessages (b : MessageBroker P) (channel : ChannelId) (count : ℕ) :
    List (SyncMessage P) :=
  slice (b.messageBuffer.toArray.filter fun m => m.channel = channel) (-(count : ℤ))

/-- Add a subscription under the ids `id` and, where the channel has none, the `Set` under
`setId`. -/
def subscribe (b : MessageBroker P) (setId id : ℕ) (channel : ChannelId)
    (filter : Option (SyncMessage P → Except JsError Bool)) (now : Timestamp) : MessageBroker P :=
  match b.channels.get? channel with
  | some set =>
    { b with channels := b.channels.set channel ⟨set.id, set.subs ++ [⟨id, channel, filter⟩]⟩ }
  | none =>
    { b with
      channels := b.channels.set channel ⟨setId, [⟨id, channel, filter⟩]⟩
      channelStats := b.channelStats.set channel ⟨0, 0, now⟩ }

def unsubscribe (b : MessageBroker P) (channel : ChannelId) (id : ℕ) : MessageBroker P :=
  match b.channels.get? channel with
  | none => b
  | some set =>
    let subs := set.subs.filter fun s => s.id ≠ id
    if subs.length = 0 then
      { b with
        channels := b.channels.delete channel
        channelStats := b.channelStats.delete channel }
    else { b with channels := b.channels.set channel ⟨set.id, subs⟩ }

/-- The `Set` of a channel, by its id. -/
def setOf (b : MessageBroker P) (channel : ChannelId) : Option ℕ :=
  (b.channels.get? channel).map ChannelSubs.id

/-- Write to the statistics that a publish holds; those of a dropped `Set` are seen by nobody. -/
def count (b : MessageBroker P) (channel : ChannelId) (set : Option ℕ)
    (f : ChannelStats → ChannelStats) : MessageBroker P :=
  if b.setOf channel = set then { b with channelStats := b.channelStats.modify channel f } else b

def drop (b : MessageBroker P) (channel : ChannelId) (set : Option ℕ) : MessageBroker P :=
  b.count channel set fun s => { s with dropped := s.dropped + 1 }

def deliver (b : MessageBroker P) (channel : ChannelId) (set : Option ℕ) : MessageBroker P :=
  b.count channel set fun s => { s with delivered := s.delivered + 1 }

end MessageBroker

/-! ## Calls in progress -/

/-- Whether the loop awaits its handlers. -/
inductive Mode
  | publish
  | publishSync
  deriving DecidableEq

/-- The loop of `publish` or `publishSync`. -/
structure Delivery (P : Type) where
  mode : Mode
  message : SyncMessage P
  /-- the `Set` it iterates over -/
  set : Option ℕ
  cursor : ℕ
  /-- the subscription whose handler has been called -/
  handling : Option ℕ

inductive Frame (P : Type)
  | delivery (d : Delivery P)
  /-- the loop of `broadcast` -/
  | broadcast (type : MessageType) (payload : P) (cursor : ℕ)

structure Process (P : Type) where
  broker : MessageBroker P
  /-- the number of ids drawn so far -/
  drawn : ℕ
  stack : List (Frame P)
  suspended : List (Delivery P)
  /-- the messages published so far -/
  published : List (SyncMessage P)
  /-- the calls of handlers so far, with the subscription -/
  handed : List (ℕ × SyncMessage P)

inductive Input (P : Type)
  | subscribe (channel : ChannelId) (filter : Option (SyncMessage P → Except JsError Bool))
      (now : Timestamp)
  | unsubscribe (channel : ChannelId) (id : ℕ)
  | publish (channel : ChannelId) (type : MessageType) (payload : P) (target : Option NodeId)
      (now : Timestamp)
  | publishSync (channel : ChannelId) (type : MessageType) (payload : P) (now : Timestamp)
  | broadcast (type : MessageType) (payload : P)
  /-- The innermost loop takes its next turn. -/
  | advance (now : Timestamp)
  /-- The innermost handler returns, or throws. -/
  | returned (threw : Bool)
  /-- The promise that the `i`-th suspended publish waits for is fulfilled, or rejected. -/
  | settled (i : ℕ) (rejected : Bool)

namespace Process

variable {P : Type}

/-- A process with a new broker. -/
def new (nodeId : NodeId) (bufferSize : ℕ) : Process P :=
  ⟨.new nodeId bufferSize, 0, [], [], [], []⟩

/-- Code other than the broker's is running: a handler, or what the stack was entered from. -/
def idle (σ : Process P) : Bool :=
  match σ.stack with
  | [] => true
  | .delivery d :: _ => d.handling.isSome
  | .broadcast _ _ _ :: _ => false

/-- Draw an id for a message and publish it. -/
def accept (σ : Process P) (message : SyncMessage P) : Process P :=
  { σ with
    broker := σ.broker.accept message
    drawn := σ.drawn + 1
    published := σ.published ++ [message] }

def push (σ : Process P) (f : Frame P) : Process P := { σ with stack := f :: σ.stack }

/-- `publish`, up to its loop. -/
def publish (σ : Process P) (channel : ChannelId) (type : MessageType) (payload : P)
    (target : Option NodeId) (now : Timestamp) : Process P :=
  let message := σ.broker.nextMessage σ.drawn channel type payload target now
  let τ := σ.accept message
  match τ.broker.channels.get? channel with
  | none => τ
  | some set =>
    if set.subs.length = 0 then { τ with broker := τ.broker.drop channel (some set.id) }
    else τ.push (.delivery ⟨.publish, message, some set.id, 0, none⟩)

/-- `publishSync`, up to its loop. -/
def publishSync (σ : Process P) (channel : ChannelId) (type : MessageType) (payload : P)
    (now : Timestamp) : Process P :=
  let message := σ.broker.nextMessage σ.drawn channel type payload none now
  let τ := σ.accept message
  match τ.broker.channels.get? channel with
  | none => τ
  | some set => τ.push (.delivery ⟨.publishSync, message, some set.id, 0, none⟩)

/-- The subscription that a loop looks at next. -/
def nextSub (b : MessageBroker P) (d : Delivery P) : Option (Subscription P) :=
  match b.channels.get? d.message.channel with
  | none => none
  | some set => if d.set = some set.id then set.subs.find? fun s => d.cursor ≤ s.id else none

/-- The channel that the loop of `broadcast` looks at next. -/
def nextChannel (b : MessageBroker P) (cursor : ℕ) : Option (ChannelId × ChannelSubs P) :=
  b.channels.entries.find? fun e => cursor ≤ e.2.id

/-- One turn of the loop of `publish` or `publishSync`, above the rest of the stack. -/
def turn (σ : Process P) (d : Delivery P) (rest : List (Frame P)) : Process P :=
  match nextSub σ.broker d with
  | none => { σ with stack := rest }
  | some s =>
    let d' := { d with cursor := s.id + 1 }
    match s.accepts d.message with
    | .error _ =>
      { σ with
        broker := if d.mode = .publish then σ.broker.drop d.message.channel d.set else σ.broker
        stack := .delivery d' :: rest }
    | .ok false => { σ with stack := .delivery d' :: rest }
    | .ok true =>
      { σ with
        handed := σ.handed ++ [(s.id, d.message)]
        stack := .delivery { d' with handling := some s.id } :: rest }

def advance (σ : Process P) (now : Timestamp) : Process P :=
  match σ.stack with
  | [] => σ
  | .delivery d :: rest => if d.handling.isSome then σ else σ.turn d rest
  | .broadcast type payload cursor :: rest =>
    match nextChannel σ.broker cursor with
    | none => { σ with stack := rest }
    | some (channel, set) =>
      { σ with stack := .broadcast type payload (set.id + 1) :: rest }.publishSync channel type
        payload now

/-- The innermost handler returns. -/
def returned (σ : Process P) (threw : Bool) : Process P :=
  match σ.stack with
  | .delivery d :: rest =>
    if d.handling.isSome then
      let d' := { d with handling := none }
      match d.mode with
      | .publishSync => { σ with stack := .delivery d' :: rest }
      | .publish =>
        if threw then
          { σ with
            broker := σ.broker.drop d.message.channel d.set
            stack := .delivery d' :: rest }
        else { σ with stack := rest, suspended := σ.suspended ++ [d'] }
    else σ
  | _ => σ

/-- A suspended publish goes on. -/
def settled (σ : Process P) (i : ℕ) (rejected : Bool) : Process P :=
  match σ.stack, σ.suspended[i]? with
  | [], some d =>
    { σ with
      broker := if rejected then σ.broker.drop d.message.channel d.set
        else σ.broker.deliver d.message.channel d.set
      stack := [.delivery d]
      suspended := σ.suspended.eraseIdx i }
  | _, _ => σ

/-- What running code does, and nothing where the broker is running itself. -/
def whenIdle (σ : Process P) (f : Process P → Process P) : Process P :=
  if σ.idle then f σ else σ

def step (σ : Process P) : Input P → Process P
  | .subscribe channel filter now => σ.whenIdle fun σ =>
    { σ with
      broker := σ.broker.subscribe σ.drawn (σ.drawn + 1) channel filter now
      drawn := σ.drawn + 2 }
  | .unsubscribe channel id => σ.whenIdle fun σ =>
    { σ with broker := σ.broker.unsubscribe channel id }
  | .publish channel type payload target now => σ.whenIdle fun σ =>
    σ.publish channel type payload target now
  | .publishSync channel type payload now => σ.whenIdle fun σ =>
    σ.publishSync channel type payload now
  | .broadcast type payload => σ.whenIdle fun σ => σ.push (.broadcast type payload 0)
  | .advance now => σ.advance now
  | .returned threw => σ.returned threw
  | .settled i rejected => σ.settled i rejected

end Process

end SyncEngine
