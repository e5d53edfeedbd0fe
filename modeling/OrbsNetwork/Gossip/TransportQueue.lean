import OrbsNetwork.Merkle.Node

namespace OrbsNetwork.Gossip

/-- `adapter.TransportData`, the payloads the queue weighs. -/
structure TransportData where
  payloads : List Bytes
  deriving DecidableEq, Repr

/-- `TotalSize`: the lengths of the payloads added up. -/
def TransportData.totalSize (d : TransportData) : Nat :=
  (d.payloads.map List.length).sum

/-- The errors of `Push`, with what their messages print. -/
inductive QueueError
  /-- "attempted to push to a disabled queue" -/
  | disabledQueue
  /-- `NewQueueFullError`: "failed to push %d bytes to queue - full with %d bytes out of %d bytes" -/
  | queueFull (bytesAttempted bytesInQueue queueSize : Int)
  /-- "failed to push to queue - full with %d messages" -/
  | channelFull (maxMessages : Nat)
  deriving DecidableEq, Repr

/-- `transportQueue` without its metric and logger: the messages in the buffered channel, oldest
first, the limits, and the fields under the mutex. -/
structure TransportQueue where
  channel : List TransportData
  maxBytes : Nat
  maxMessages : Nat
  bytesLeft : Int
  disabled : Bool
  deriving DecidableEq, Repr

/-- `NewTransportQueue`: a channel of `maxSizeMessages` places. -/
def newTransportQueue (maxSizeBytes maxSizeMessages : Nat) : TransportQueue :=
  ⟨[], maxSizeBytes, maxSizeMessages, maxSizeBytes, false⟩

namespace TransportQueue

/-- `updateUsageMetric` divides by `maxBytes`: `none` is its panic on a zero limit. -/
def updateUsageMetric (q : TransportQueue) : Option Unit :=
  if q.maxBytes = 0 then none else some ()

/-- `consumeBytes`: the bytes of the message are reserved, or the error says why not. -/
def consumeBytes (q : TransportQueue) (data : TransportData) : Option (TransportQueue × Option QueueError) :=
  if q.disabled then some (q, some .disabledQueue)
  else
    let dataSize := data.totalSize
    if dataSize > q.bytesLeft then
      some (q, some (.queueFull dataSize (q.maxBytes - q.bytesLeft) q.maxBytes))
    else
      let q := { q with bytesLeft := q.bytesLeft - dataSize }
      q.updateUsageMetric.map fun () => (q, none)

/-- `releaseBytes`. -/
def releaseBytes (q : TransportQueue) (data : TransportData) : Option TransportQueue :=
  let q := { q with bytesLeft := q.bytesLeft + data.totalSize }
  q.updateUsageMetric.map fun () => q

/-- `Push`: once the bytes are reserved the message goes into the channel if it has a free place;
a full channel fails the push and keeps the reservation. -/
def push (q : TransportQueue) (data : TransportData) : Option (TransportQueue × Option QueueError) :=
  (q.consumeBytes data).map fun (q, err) =>
    match err with
    | some err => (q, some err)
    | none =>
      if q.channel.length < q.maxMessages then ({ q with channel := q.channel ++ [data] }, none)
      else (q, some (.channelFull q.maxMessages))

/-- `Pop`: `takeMessage` is the branch its `select` takes. A message is received only when there is
one; otherwise the call returns nil once its context is done. -/
def pop (q : TransportQueue) (takeMessage : Bool) : Option (TransportQueue × Option TransportData) :=
  match q.channel, takeMessage with
  | data :: rest, true => ({ q with channel := rest }.releaseBytes data).map fun q => (q, some data)
  | _, _ => some (q, none)

/-- `Clear`: messages are received until the channel is empty, or until its context is done after
`received` of them. -/
def clear (q : TransportQueue) : Nat → Option TransportQueue
  | 0 => some q
  | received + 1 =>
    match q.channel with
    | [] => some q
    | data :: rest => ({ q with channel := rest }.releaseBytes data).bind fun q => q.clear received

def disable (q : TransportQueue) : TransportQueue :=
  { q with disabled := true }

def enable (q : TransportQueue) : TransportQueue :=
  { q with disabled := false }

/-- `OnNewConnection`. -/
def onNewConnection (q : TransportQueue) (received : Nat) : Option TransportQueue :=
  (q.clear received).map enable

end TransportQueue

/-- The calls made on a queue, each with the choice its `select`s make. -/
inductive QueueOp
  | push (data : TransportData)
  | pop (takeMessage : Bool)
  | clear (received : Nat)
  | disable
  | enable
  | onNewConnection (received : Nat)
  deriving DecidableEq, Repr

/-- What a call returns: the error of a push, the message of a pop. -/
inductive QueueResult
  | pushed (err : Option QueueError)
  | popped (data : Option TransportData)
  | done
  deriving DecidableEq, Repr

namespace TransportQueue

/-- One call; `none` is a panic. -/
def step (q : TransportQueue) : QueueOp → Option (TransportQueue × QueueResult)
  | .push data => (q.push data).map fun (q, err) => (q, .pushed err)
  | .pop takeMessage => (q.pop takeMessage).map fun (q, data) => (q, .popped data)
  | .clear received => (q.clear received).map fun q => (q, .done)
  | .disable => some (q.disable, .done)
  | .enable => some (q.enable, .done)
  | .onNewConnection received => (q.onNewConnection received).map fun q => (q, .done)

/-- The calls one after the other, with what each returned; `none` when one of them panics. -/
def run (q : TransportQueue) : List QueueOp → Option (TransportQueue × List QueueResult)
  | [] => some (q, [])
  | op :: ops =>
    (q.step op).bind fun (q, result) => (q.run ops).map fun (q, results) => (q, result :: results)

end TransportQueue

end OrbsNetwork.Gossip
