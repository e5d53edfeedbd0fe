import OrbsNetwork.Gossip.TransportQueue
import OrbsNetwork.Library.ChunkedStream
import OrbsNetwork.Library.ByteStream

namespace OrbsNetwork.Gossip

open ByteStream (toLE ofLE)
open ChunkedStream (Source)

/-- `MAX_PAYLOADS_IN_MESSAGE`. -/
def maxPayloadsInMessage : UInt32 := 100000

/-- `MAX_PAYLOAD_SIZE_BYTES`. -/
def maxPayloadSizeBytes : UInt32 := 20 * 1024 * 1024

/-- `calcPaddingSize`, in the `uint32` arithmetic of the source. -/
def calcPaddingSize (size : UInt32) : UInt32 :=
  let contentAlignment : UInt32 := 4
  let alignedSize := (size + contentAlignment - 1) / contentAlignment * contentAlignment
  alignedSize - size

/-- `membuffers.WriteUint32` into a buffer of four bytes, least significant first. -/
def writeUint32 (v : UInt32) : Bytes :=
  toLE 4 v.toNat

/-- `membuffers.GetUint32` of a buffer of four bytes. -/
def getUint32 (buffer : Bytes) : UInt32 :=
  (ofLE buffer).toUInt32

/-- The side of a `net.Conn` that `write` uses: the answer of `SetWriteDeadline`, and how much
of a buffer `Write` takes, with its error. -/
structure OutgoingSocket where
  setWriteDeadline : Option String
  write : Bytes → Nat × Option String

section Outgoing

-- `ctx.Err()` when `write` polls the context
variable (ctxErr : Option String) (conn : OutgoingSocket)

/-- `write`: the result, and the bytes of the buffer that went out on the socket. -/
def write (buffer : Bytes) : Except String Unit × Bytes :=
  match ctxErr with
  | some err => (.error err, [])
  | none =>
    match conn.setWriteDeadline with
    | some err => (.error err, [])
    | none =>
      let (written, err) := conn.write buffer
      let sent := buffer.take written
      if written ≠ buffer.length then
        match err with
        | none => (.error s!"attempted to write {buffer.length} bytes but only wrote {written}", sent)
        | some err => (.error s!"attempted to write {buffer.length} bytes but only wrote {written}: {err}", sent)
      else (.ok (), sent)

/-- The writes of one send, in order; the first that fails ends it. -/
def writeEach : List Bytes → Except String Unit × Bytes
  | [] => (.ok (), [])
  | buffer :: later =>
    match write ctxErr conn buffer with
    | (.error err, sent) => (.error err, sent)
    | (.ok (), sent) =>
      let (result, sentLater) := writeEach later
      (result, sent ++ sentLater)

/-- The buffers `sendToSocket` writes for one payload: its size, its data, and the zero padding
when there is any. -/
def payloadBuffers (payload : Bytes) : List Bytes :=
  let paddingSize := calcPaddingSize payload.length.toUInt32
  [writeUint32 payload.length.toUInt32, payload] ++
    if paddingSize > 0 then [(List.replicate 4 (0 : UInt8)).take paddingSize.toNat] else []

/-- `sendToSocket`: the number of payloads, then each payload with its size and padding. -/
def sendToSocket (data : TransportData) : Except String Unit × Bytes :=
  writeEach ctxErr conn (writeUint32 data.payloads.length.toUInt32 :: data.payloads.flatMap payloadBuffers)

/-- `sendKeepAlive`: a zero number of payloads. -/
def sendKeepAlive : Except String Unit × Bytes :=
  write ctxErr conn (List.replicate 4 0)

end Outgoing

/-- `handleOutgoingConnection` over what each turn of its loop pops from the queue while the
context is live: a message, or nothing within the keep-alive interval. The list ends when the
context closes. The bytes that went out, and whether to reconnect. -/
def handleOutgoingConnection (conn : OutgoingSocket) : List (Option TransportData) → Bytes × Bool
  | [] => ([], false)
  | popped :: later =>
    let (result, sent) :=
      match popped with
      | some data => sendToSocket none conn data
      | none => sendKeepAlive none conn
    match result with
    | .error _ => (sent, true)
    | .ok () =>
      let (sentLater, reconnect) := handleOutgoingConnection conn later
      (sent ++ sentLater, reconnect)

/-- The read side of an incoming `net.Conn`: the bytes in the chunks `Read` hands them over in,
ended by the error `Read` reports at the end of the connection. -/
abbrev Connection := Source UInt8 String

section Incoming

-- `ctx.Err()` when `readTotal` polls the context, and the answer of `SetReadDeadline`
variable (ctxErr : Option String) (setReadDeadline : Option String)

set_option linter.unusedVariables false in
/-- The loop of `readTotal`: read into the rest of the buffer until it is full. A read that
fills it ends the loop even when it comes with an error. -/
def readTotalLoop (totalSize : Nat) (buffer : Bytes) (conn : Connection) : Except String Bytes × Connection :=
  if buffer.length < totalSize then
    match setReadDeadline with
    | some err => (.error err, conn)
    | none =>
      match reading : conn.read (totalSize - buffer.length) with
      | ((read, err), conn') =>
        if full : buffer.length + read.length = totalSize then (.ok (buffer ++ read), conn')
        else
          match err with
          | some err => (.error err, conn')
          | none => readTotalLoop totalSize (buffer ++ read) conn'
  else (.ok buffer, conn)
termination_by conn.chunks.length
decreasing_by
  -- a read that leaves the buffer short without an error took a whole chunk
  have within := conn.length_read_le (totalSize - buffer.length)
  have short := conn.read_short (totalSize - buffer.length)
  rw [reading] at within short
  dsimp only at within short
  exact short (by omega) rfl

/-- `readTotal`: `totalSize` bytes from the connection. -/
def readTotal (conn : Connection) (totalSize : UInt32) : Except String Bytes × Connection :=
  match ctxErr with
  | some err => (.error err, conn)
  | none => readTotalLoop setReadDeadline totalSize.toNat [] conn

/-- The payload loop of `receiveTransportData`, for the `remaining` payloads still to read. -/
def receivePayloads : Nat → List Bytes → Connection → Except String (List Bytes) × Connection
  | 0, res, conn => (.ok res, conn)
  | remaining + 1, res, conn =>
    match readTotal ctxErr setReadDeadline conn 4 with
    | (.error err, conn) => (.error err, conn)
    | (.ok sizeBuffer, conn) =>
      let payloadSize := getUint32 sizeBuffer
      if payloadSize > maxPayloadSizeBytes then
        (.error s!"received message with a payload too big: {payloadSize} bytes", conn)
      else
        match readTotal ctxErr setReadDeadline conn payloadSize with
        | (.error err, conn) => (.error err, conn)
        | (.ok payload, conn) =>
          let res := res ++ [payload]
          let paddingSize := calcPaddingSize payload.length.toUInt32
          if paddingSize > 0 then
            match readTotal ctxErr setReadDeadline conn paddingSize with
            | (.error err, conn) => (.error err, conn)
            | (.ok _, conn) => receivePayloads remaining res conn
          else receivePayloads remaining res conn

/-- `receiveTransportData`: the number of payloads, then each payload with its size and padding. -/
def receiveTransportData (conn : Connection) : Except String (List Bytes) × Connection :=
  match readTotal ctxErr setReadDeadline conn 4 with
  | (.error err, conn) => (.error err, conn)
  | (.ok sizeBuffer, conn) =>
    let numPayloads := getUint32 sizeBuffer
    if numPayloads > maxPayloadsInMessage then
      (.error s!"received message with too many payloads: {numPayloads}", conn)
    else receivePayloads ctxErr setReadDeadline numPayloads.toNat [] conn

/-- `handleIncomingConnection` for `iterations` turns of its loop: the payload lists it hands to
the listener, until a receive fails and it disconnects. A keep-alive is not handed on. -/
def handleIncomingConnection : Nat → Connection → List (List Bytes)
  | 0, _ => []
  | iterations + 1, conn =>
    match receiveTransportData ctxErr setReadDeadline conn with
    | (.error _, _) => []
    | (.ok payloads, conn) =>
      if payloads.length > 0 then payloads :: handleIncomingConnection iterations conn
      else handleIncomingConnection iterations conn

end Incoming

end OrbsNetwork.Gossip
