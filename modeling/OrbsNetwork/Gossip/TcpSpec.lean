import OrbsNetwork.Gossip.Tcp
import OrbsNetwork.Gossip.CodecSpec

namespace OrbsNetwork.Gossip

open ByteStream (toLE ofLE length_toLE ofLE_toLE_of_lt)
open ChunkedStream (Source)

/-- The padding of a payload of `size` bytes, as a number. -/
theorem calcPaddingSize_toNat (size : UInt32) : (calcPaddingSize size).toNat = (4 - size.toNat % 4) % 4 := by
  unfold calcPaddingSize
  simp only [UInt32.toNat_sub, UInt32.toNat_add, UInt32.toNat_div, UInt32.toNat_mul]
  have := size.toNat_lt
  simp
  omega

@[simp] theorem length_writeUint32 (v : UInt32) : (writeUint32 v).length = 4 :=
  length_toLE 4 v.toNat

@[simp] theorem getUint32_writeUint32 (v : UInt32) : getUint32 (writeUint32 v) = v := by
  rw [getUint32, writeUint32, ofLE_toLE_of_lt v.toNat_lt]
  simp

/-- The bytes of one payload on the wire: its size, its data, and `calcPaddingSize` zero bytes. -/
def payloadFrame (payload : Bytes) : Bytes :=
  writeUint32 payload.length.toUInt32 ++ payload ++ List.replicate (calcPaddingSize payload.length.toUInt32).toNat 0

/-- The bytes of one message on the wire: the number of payloads, then each payload's frame. -/
def frame (payloads : List Bytes) : Bytes :=
  writeUint32 payloads.length.toUInt32 ++ (payloads.map payloadFrame).flatten

/-- The payloads a turn of the sender's loop sends: a message's, or none for a keep-alive. -/
def payloadsOf : Option TransportData → List Bytes
  | some data => data.payloads
  | none => []

/-- Every payload's frame ends on a four-byte boundary, whatever its length. -/
theorem length_payloadFrame_mod (payload : Bytes) : (payloadFrame payload).length % 4 = 0 := by
  simp only [payloadFrame, List.length_append, length_writeUint32, List.length_replicate, calcPaddingSize_toNat]
  simp
  omega

theorem length_frame_mod (payloads : List Bytes) : (frame payloads).length % 4 = 0 := by
  induction payloads with
  | nil => rfl
  | cons payload payloads ih =>
    have first := length_payloadFrame_mod payload
    simp only [frame, List.length_append, length_writeUint32, List.map_cons, List.flatten_cons] at ih ⊢
    omega

/-- A keep-alive is the frame of no payloads. -/
theorem frame_nil : frame [] = List.replicate 4 0 := rfl

section Sending

/-- A socket that takes every buffer whole. -/
structure Accepts (conn : OutgoingSocket) : Prop where
  deadline : conn.setWriteDeadline = none
  whole : ∀ buffer, (conn.write buffer).1 = buffer.length

variable {conn : OutgoingSocket}

theorem write_of_accepts (accepts : Accepts conn) (buffer : Bytes) : write none conn buffer = (.ok (), buffer) := by
  have whole := accepts.whole buffer
  unfold write
  rw [accepts.deadline]
  dsimp only
  rw [if_neg (by rw [whole]; exact not_not.mpr rfl), whole, List.take_length]

theorem writeEach_of_accepts (accepts : Accepts conn) (buffers : List Bytes) :
    writeEach none conn buffers = (.ok (), buffers.flatten) := by
  induction buffers with
  | nil => rfl
  | cons buffer later ih => rw [writeEach, write_of_accepts accepts, ih]; rfl

theorem flatten_payloadBuffers (payload : Bytes) : (payloadBuffers payload).flatten = payloadFrame payload := by
  have small : (calcPaddingSize payload.length.toUInt32).toNat ≤ 4 := by
    rw [calcPaddingSize_toNat]
    omega
  unfold payloadBuffers payloadFrame
  dsimp only
  split_ifs with some
  · rw [List.take_replicate, Nat.min_eq_left small]
    simp
  · have none : (calcPaddingSize payload.length.toUInt32).toNat = 0 := by
      simpa [UInt32.lt_iff_toNat_lt] using some
    simp [none]

theorem sendToSocket_of_accepts (accepts : Accepts conn) (data : TransportData) :
    sendToSocket none conn data = (.ok (), frame data.payloads) := by
  rw [sendToSocket, writeEach_of_accepts accepts, frame, List.flatten_cons]
  simp [List.flatMap, List.flatten_flatten, Function.comp_def, flatten_payloadBuffers]

theorem sendKeepAlive_of_accepts (accepts : Accepts conn) : sendKeepAlive none conn = (.ok (), frame []) := by
  rw [sendKeepAlive, write_of_accepts accepts, frame_nil]

/-- Over a socket that takes everything, the sender writes the frame of every turn of its loop,
one after the other, and ends without asking to reconnect. -/
theorem handleOutgoingConnection_of_accepts (accepts : Accepts conn) (popped : List (Option TransportData)) :
    handleOutgoingConnection conn popped = ((popped.map fun turn => frame (payloadsOf turn)).flatten, false) := by
  induction popped with
  | nil => rfl
  | cons turn later ih =>
    cases turn with
    | some data => simp [handleOutgoingConnection, sendToSocket_of_accepts accepts, ih, payloadsOf]
    | none => simp [handleOutgoingConnection, sendKeepAlive_of_accepts accepts, ih, payloadsOf]

end Sending

section Receiving

/-- With a live context and deadline, the loop fills the buffer from the front of the stream
whatever the chunks, and leaves the connection at what follows. -/
theorem readTotalLoop_of_rest (totalSize : Nat) (buffer : Bytes) (conn : Connection) {s later : Bytes}
    (stream : conn.rest = s ++ later) (fills : buffer.length + s.length = totalSize) :
    ∃ conn', readTotalLoop none totalSize buffer conn = (.ok (buffer ++ s), conn') ∧ conn'.rest = later := by
  fun_induction readTotalLoop none totalSize buffer conn generalizing s with
  | case1 => contradiction
  | case2 buffer conn short _ read err conn' reading full =>
    obtain ⟨s', rfl, rest⟩ := Source.read_prefix reading stream (by omega)
    have none : s' = [] := List.eq_nil_of_length_eq_zero (by simp only [List.length_append] at fills; omega)
    subst none
    exact ⟨conn', by simp, by simpa using rest⟩
  | case3 buffer conn short _ read conn' unfilled err _ reading =>
    obtain ⟨s', rfl, rest⟩ := Source.read_prefix reading stream (by omega)
    -- the error comes only once the stream is used up, and the buffer is still short
    have empty := conn.rest_read_of_error (totalSize - buffer.length) (by rw [reading])
    rw [reading, rest] at empty
    have none : s' = [] := (List.append_eq_nil_iff.mp empty).1
    subst none
    simp only [List.append_nil] at fills
    exact absurd fills unfilled
  | case4 buffer conn short _ read conn' unfilled _ reading ih =>
    obtain ⟨s', rfl, rest⟩ := Source.read_prefix reading stream (by omega)
    obtain ⟨conn'', filled, left⟩ := ih rest (by simp only [List.length_append] at fills ⊢; omega)
    exact ⟨conn'', by rw [filled, List.append_assoc], left⟩
  | case5 buffer conn full =>
    have none : s = [] := List.eq_nil_of_length_eq_zero (by omega)
    subst none
    exact ⟨conn, by simp, by simpa using stream⟩

/-- When the stream ends before the buffer is full, the loop fails. -/
theorem readTotalLoop_of_short (totalSize : Nat) (buffer : Bytes) (conn : Connection)
    (short : buffer.length + conn.rest.length < totalSize) :
    ∃ err conn', readTotalLoop none totalSize buffer conn = (.error err, conn') := by
  fun_induction readTotalLoop none totalSize buffer conn with
  | case1 => contradiction
  | case2 buffer conn _ _ read err conn' reading full =>
    have taken := conn.read_rest (totalSize - buffer.length)
    rw [reading] at taken
    have := congrArg List.length taken
    simp only [List.length_append] at this
    omega
  | case3 buffer conn _ _ read conn' _ err _ _ => exact ⟨err, conn', rfl⟩
  | case4 buffer conn _ _ read conn' _ _ reading ih =>
    have taken := conn.read_rest (totalSize - buffer.length)
    rw [reading] at taken
    have := congrArg List.length taken
    simp only [List.length_append] at this
    exact ih (by simp only [List.length_append]; omega)
  | case5 => omega

theorem readTotal_of_rest {conn : Connection} {s later : Bytes} (stream : conn.rest = s ++ later)
    (totalSize : UInt32) (sized : s.length = totalSize.toNat) :
    ∃ conn', readTotal none none conn totalSize = (.ok s, conn') ∧ conn'.rest = later := by
  have filled := readTotalLoop_of_rest totalSize.toNat [] conn stream (by simpa using sized)
  rw [List.nil_append] at filled
  exact filled

theorem readTotal_of_short (conn : Connection) (totalSize : UInt32) (short : conn.rest.length < totalSize.toNat) :
    ∃ err conn', readTotal none none conn totalSize = (.error err, conn') :=
  readTotalLoop_of_short totalSize.toNat [] conn (by simpa using short)

theorem maxPayloadSizeBytes_toNat : maxPayloadSizeBytes.toNat = 20971520 := rfl

theorem maxPayloadsInMessage_toNat : maxPayloadsInMessage.toNat = 100000 := rfl

/-- A payload's frame at the front of the stream: the loop reads the payload, skips its padding,
and goes on with the next payload from what follows. -/
theorem receivePayloads_succ_of_frame {payload : Bytes} (small : payload.length ≤ maxPayloadSizeBytes.toNat)
    (remaining : Nat) (res : List Bytes) {conn : Connection} {later : Bytes}
    (stream : conn.rest = payloadFrame payload ++ later) :
    ∃ conn', receivePayloads none none (remaining + 1) res conn =
      receivePayloads none none remaining (res ++ [payload]) conn' ∧ conn'.rest = later := by
  have fits : payload.length < 2 ^ 32 := by
    rw [maxPayloadSizeBytes_toNat] at small
    omega
  have notBig : ¬payload.length.toUInt32 > maxPayloadSizeBytes := by
    rw [gt_iff_lt, UInt32.lt_iff_toNat_lt, toNat_toUInt32_of_lt fits]
    omega
  obtain ⟨sized, sizeRead, afterSize⟩ := readTotal_of_rest (s := writeUint32 payload.length.toUInt32)
    (by rw [stream, payloadFrame, List.append_assoc, List.append_assoc]) 4 (by simp)
  obtain ⟨read, payloadRead, afterPayload⟩ := readTotal_of_rest afterSize _ (toNat_toUInt32_of_lt fits).symm
  rw [receivePayloads, sizeRead]
  dsimp only
  rw [getUint32_writeUint32, if_neg notBig, payloadRead]
  dsimp only
  split_ifs with padded
  · obtain ⟨skipped, paddingRead, afterPadding⟩ := readTotal_of_rest afterPayload (calcPaddingSize payload.length.toUInt32) (by simp)
    rw [paddingRead]
    exact ⟨skipped, rfl, afterPadding⟩
  · have none : (calcPaddingSize payload.length.toUInt32).toNat = 0 := by
      simpa [UInt32.lt_iff_toNat_lt] using padded
    exact ⟨read, rfl, by rw [afterPayload, none, List.replicate_zero, List.nil_append]⟩

theorem receivePayloads_of_frames (payloads : List Bytes)
    (small : ∀ payload ∈ payloads, payload.length ≤ maxPayloadSizeBytes.toNat) (res : List Bytes) {conn : Connection}
    {later : Bytes} (stream : conn.rest = (payloads.map payloadFrame).flatten ++ later) :
    ∃ conn', receivePayloads none none payloads.length res conn = (.ok (res ++ payloads), conn') ∧ conn'.rest = later := by
  induction payloads generalizing res conn with
  | nil => exact ⟨conn, by simp [receivePayloads], stream⟩
  | cons payload payloads ih =>
    obtain ⟨conn', step, rest⟩ := receivePayloads_succ_of_frame (small payload List.mem_cons_self) payloads.length res
      (by rw [stream, List.map_cons, List.flatten_cons, List.append_assoc])
    obtain ⟨conn'', done, left⟩ := ih (fun other member => small other (List.mem_cons_of_mem _ member))
      (res ++ [payload]) rest
    exact ⟨conn'', by rw [List.length_cons, step, done, List.append_assoc, List.singleton_append], left⟩

/-- A message's frame at the front of the stream: one receive returns its payloads and leaves the
connection at what follows. -/
theorem receiveTransportData_of_frame {payloads : List Bytes} (few : payloads.length ≤ maxPayloadsInMessage.toNat)
    (small : ∀ payload ∈ payloads, payload.length ≤ maxPayloadSizeBytes.toNat) {conn : Connection} {later : Bytes}
    (stream : conn.rest = frame payloads ++ later) :
    ∃ conn', receiveTransportData none none conn = (.ok payloads, conn') ∧ conn'.rest = later := by
  have fits : payloads.length < 2 ^ 32 := by
    rw [maxPayloadsInMessage_toNat] at few
    omega
  have notMany : ¬payloads.length.toUInt32 > maxPayloadsInMessage := by
    rw [gt_iff_lt, UInt32.lt_iff_toNat_lt, toNat_toUInt32_of_lt fits]
    omega
  obtain ⟨counted, countRead, afterCount⟩ := readTotal_of_rest (s := writeUint32 payloads.length.toUInt32)
    (by rw [stream, frame, List.append_assoc]) 4 (by simp)
  rw [receiveTransportData, countRead]
  dsimp only
  rw [getUint32_writeUint32, if_neg notMany, toNat_toUInt32_of_lt fits]
  simpa using receivePayloads_of_frames payloads small [] afterCount

/-- At the end of the stream a receive fails. -/
theorem receiveTransportData_of_end {conn : Connection} (ended : conn.rest = []) :
    ∃ err conn', receiveTransportData none none conn = (.error err, conn') := by
  obtain ⟨err, conn', failed⟩ := readTotal_of_short conn 4 (by rw [ended]; decide)
  exact ⟨err, conn', by rw [receiveTransportData, failed]⟩

end Receiving

/-- A message of one to `MAX_PAYLOADS_IN_MESSAGE` payloads of at most `MAX_PAYLOAD_SIZE_BYTES`
bytes each. -/
structure TransportData.WellSized (data : TransportData) : Prop where
  nonempty : 0 < data.payloads.length
  few : data.payloads.length ≤ maxPayloadsInMessage.toNat
  small : ∀ payload ∈ data.payloads, payload.length ≤ maxPayloadSizeBytes.toNat

/-- `count` successive calls of `receiveTransportData` on one connection. -/
def receiveSuccessive (ctxErr setReadDeadline : Option String) : Nat → Connection → List (Except String (List Bytes))
  | 0, _ => []
  | count + 1, conn =>
    let (result, conn) := receiveTransportData ctxErr setReadDeadline conn
    result :: receiveSuccessive ctxErr setReadDeadline count conn

section Runs

variable {popped : List (Option TransportData)}

/-- The frame of a turn of the sender at the front of the stream: one receive returns its
payloads, none for a keep-alive. -/
theorem receiveTransportData_of_turn {turn : Option TransportData} (sized : ∀ data ∈ turn, data.WellSized)
    {conn : Connection} {later : Bytes} (stream : conn.rest = frame (payloadsOf turn) ++ later) :
    ∃ conn', receiveTransportData none none conn = (.ok (payloadsOf turn), conn') ∧ conn'.rest = later := by
  cases turn with
  | none => exact receiveTransportData_of_frame (by decide) (by simp [payloadsOf]) stream
  | some data =>
    have wellSized := sized data rfl
    exact receiveTransportData_of_frame wellSized.few wellSized.small stream

theorem receiveSuccessive_of_turns (sized : ∀ turn ∈ popped, ∀ data ∈ turn, data.WellSized) {conn : Connection}
    {later : Bytes} (stream : conn.rest = (popped.map fun turn => frame (payloadsOf turn)).flatten ++ later) :
    receiveSuccessive none none popped.length conn = popped.map fun turn => .ok (payloadsOf turn) := by
  induction popped generalizing conn with
  | nil => rfl
  | cons turn turns ih =>
    obtain ⟨conn', received, rest⟩ := receiveTransportData_of_turn (sized turn List.mem_cons_self)
      (by rw [stream, List.map_cons, List.flatten_cons, List.append_assoc])
    rw [List.length_cons, receiveSuccessive, received, List.map_cons]
    exact congrArg _ (ih (fun other member => sized other (List.mem_cons_of_mem _ member)) rest)

/-- Given as many turns of its loop as there were frames, the receiver hands on the payloads of
every message in order and skips the keep-alives; any turn after them meets the end of the
connection and disconnects. -/
theorem handleIncomingConnection_of_turns (sized : ∀ turn ∈ popped, ∀ data ∈ turn, data.WellSized)
    {conn : Connection} (stream : conn.rest = (popped.map fun turn => frame (payloadsOf turn)).flatten)
    (iterations : Nat) (enough : popped.length ≤ iterations) :
    handleIncomingConnection none none iterations conn = popped.filterMap (Option.map TransportData.payloads) := by
  induction popped generalizing conn iterations with
  | nil =>
    cases iterations with
    | zero => rfl
    | succ iterations =>
      obtain ⟨err, conn', failed⟩ := receiveTransportData_of_end stream
      rw [handleIncomingConnection, failed, List.filterMap_nil]
  | cons turn turns ih =>
    obtain ⟨iterations, rfl⟩ : ∃ rest, iterations = rest + 1 := ⟨iterations - 1, by simp at enough; omega⟩
    obtain ⟨conn', received, rest⟩ := receiveTransportData_of_turn (sized turn List.mem_cons_self)
      (by rw [stream, List.map_cons, List.flatten_cons])
    have later := ih (fun other member => sized other (List.mem_cons_of_mem _ member)) (by simpa using rest)
      iterations (by simpa using enough)
    rw [handleIncomingConnection, received]
    dsimp only
    cases turn with
    -- a keep-alive's empty list is not handed on
    | none => simpa [payloadsOf] using later
    | some data =>
      have nonempty := (sized (some data) List.mem_cons_self data rfl).nonempty
      simp [payloadsOf, nonempty, later]

/-- The TCP framing round trip. Whatever the sender's loop pops (messages and keep-alives in any
order), over a socket that takes every write whole, it writes the frames one after the other
and does not ask to reconnect; read back over a connection that hands the bytes over in any
chunks, ended by any error with or without the last bytes, successive receives return exactly
the sent payload lists in order (a keep-alive the empty list), the receiver's loop hands on the
messages' lists and not the keep-alives', and every frame, of a payload or of a whole message,
ends on a four-byte boundary. -/
theorem sendReceive_roundTrip (socket : OutgoingSocket) (accepts : Accepts socket)
    (popped : List (Option TransportData)) (sized : ∀ turn ∈ popped, ∀ data ∈ turn, data.WellSized)
    (conn : Connection) (chunked : conn.rest = (handleOutgoingConnection socket popped).1) :
    (handleOutgoingConnection socket popped).2 = false ∧
      (handleOutgoingConnection socket popped).1 = (popped.map fun turn => frame (payloadsOf turn)).flatten ∧
      receiveSuccessive none none popped.length conn = popped.map (fun turn => .ok (payloadsOf turn)) ∧
      (∀ iterations, popped.length ≤ iterations →
        handleIncomingConnection none none iterations conn = popped.filterMap (Option.map TransportData.payloads)) ∧
      ∀ turn ∈ popped, (frame (payloadsOf turn)).length % 4 = 0 ∧
        ∀ payload ∈ payloadsOf turn, (payloadFrame payload).length % 4 = 0 := by
  have sent := handleOutgoingConnection_of_accepts accepts popped
  have stream : conn.rest = (popped.map fun turn => frame (payloadsOf turn)).flatten := by rw [chunked, sent]
  refine ⟨by rw [sent], by rw [sent], ?_, ?_, ?_⟩
  · have framed : conn.rest = (popped.map fun turn => frame (payloadsOf turn)).flatten ++ [] := by
      rw [stream, List.append_nil]
    exact receiveSuccessive_of_turns sized framed
  · exact handleIncomingConnection_of_turns sized stream
  · exact fun turn _ => ⟨length_frame_mod _, fun payload _ => length_payloadFrame_mod payload⟩

theorem sendReceive_roundTrip_split :
    Accepts ⟨none, fun buffer => (buffer.length, none)⟩ ∧
      (∀ turn ∈ [some ⟨[[1, 2, 3]]⟩, none, some ⟨[[], [7]]⟩], ∀ data ∈ turn, TransportData.WellSized data) ∧
      (⟨[[1, 0], [0, 0, 3, 0], [], [0, 0], [1, 2, 3, 0, 0, 0], [0, 0, 2, 0, 0, 0, 0], [0, 0, 0, 1, 0, 0, 0, 7, 0, 0, 0]],
          "EOF", true⟩ : Connection).rest =
        (handleOutgoingConnection ⟨none, fun buffer => (buffer.length, none)⟩
          [some ⟨[[1, 2, 3]]⟩, none, some ⟨[[], [7]]⟩]).1 ∧
      let popped : List (Option TransportData) := [some ⟨[[1, 2, 3]]⟩, none, some ⟨[[], [7]]⟩]
      let socket : OutgoingSocket := ⟨none, fun buffer => (buffer.length, none)⟩
      let conn : Connection :=
        ⟨[[1, 0], [0, 0, 3, 0], [], [0, 0], [1, 2, 3, 0, 0, 0], [0, 0, 2, 0, 0, 0, 0], [0, 0, 0, 1, 0, 0, 0, 7, 0, 0, 0]],
          "EOF", true⟩
      (handleOutgoingConnection socket popped).2 = false ∧
        (handleOutgoingConnection socket popped).1 = (popped.map fun turn => frame (payloadsOf turn)).flatten ∧
        receiveSuccessive none none popped.length conn = popped.map (fun turn => .ok (payloadsOf turn)) ∧
        (∀ iterations, popped.length ≤ iterations →
          handleIncomingConnection none none iterations conn = popped.filterMap (Option.map TransportData.payloads)) ∧
        ∀ turn ∈ popped, (frame (payloadsOf turn)).length % 4 = 0 ∧
          ∀ payload ∈ payloadsOf turn, (payloadFrame payload).length % 4 = 0 := by
  have accepts : Accepts ⟨none, fun buffer => (buffer.length, none)⟩ := ⟨rfl, fun _ => rfl⟩
  have sized : ∀ turn ∈ ([some ⟨[[1, 2, 3]]⟩, none, some ⟨[[], [7]]⟩] : List (Option TransportData)),
      ∀ data ∈ turn, TransportData.WellSized data := by
    intro turn member data within
    simp only [List.mem_cons, List.not_mem_nil, or_false] at member
    rcases member with rfl | rfl | rfl <;> cases within <;> exact ⟨by decide, by decide, by decide⟩
  have chunked : (⟨[[1, 0], [0, 0, 3, 0], [], [0, 0], [1, 2, 3, 0, 0, 0], [0, 0, 2, 0, 0, 0, 0],
      [0, 0, 0, 1, 0, 0, 0, 7, 0, 0, 0]], "EOF", true⟩ : Connection).rest =
      (handleOutgoingConnection ⟨none, fun buffer => (buffer.length, none)⟩
        [some ⟨[[1, 2, 3]]⟩, none, some ⟨[[], [7]]⟩]).1 := by
    decide
  exact ⟨accepts, sized, chunked, sendReceive_roundTrip _ accepts _ sized _ chunked⟩

end Runs

end OrbsNetwork.Gossip
