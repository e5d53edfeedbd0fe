import OrbsNetwork.Gossip.TransportQueue
import Mathlib.Data.List.Infix
import Mathlib.Algebra.BigOperators.Group.List.Basic

namespace OrbsNetwork.Gossip

namespace TransportQueue

/-- The bytes of the messages in the channel. -/
def queuedBytes (q : TransportQueue) : Nat :=
  (q.channel.map TransportData.totalSize).sum

@[simp] theorem updateUsageMetric_eq_some {q : TransportQueue} :
    q.updateUsageMetric = some () ↔ q.maxBytes ≠ 0 := by
  unfold updateUsageMetric
  split_ifs with zero <;> simp [zero]

/-- The three ways a `consumeBytes` that does not panic ends. -/
theorem consumeBytes_cases {q q' : TransportQueue} {data : TransportData} {err : Option QueueError}
    (consumed : q.consumeBytes data = some (q', err)) :
    (q.disabled = true ∧ err = some .disabledQueue ∧ q' = q) ∨
    (q.disabled = false ∧ q.bytesLeft < data.totalSize ∧
      err = some (.queueFull data.totalSize (q.maxBytes - q.bytesLeft) q.maxBytes) ∧ q' = q) ∨
    (q.disabled = false ∧ data.totalSize ≤ q.bytesLeft ∧ q.maxBytes ≠ 0 ∧ err = none ∧
      q' = { q with bytesLeft := q.bytesLeft - data.totalSize }) := by
  dsimp only [consumeBytes, updateUsageMetric] at consumed
  split_ifs at consumed with disabled short zero
  · cases consumed
    exact Or.inl ⟨disabled, rfl, rfl⟩
  · cases consumed
    exact Or.inr (Or.inl ⟨by simpa using disabled, short, rfl, rfl⟩)
  · cases consumed
  · cases consumed
    exact Or.inr (Or.inr ⟨by simpa using disabled, by omega, zero, rfl, rfl⟩)

/-- The four ways a `Push` that does not panic ends: refused by a disabled queue or for want of
bytes, both without a change; queued; or refused by a full channel after the bytes were taken. -/
theorem push_cases {q q' : TransportQueue} {data : TransportData} {err : Option QueueError}
    (pushed : q.push data = some (q', err)) :
    (q.disabled = true ∧ err = some .disabledQueue ∧ q' = q) ∨
    (q.disabled = false ∧ q.bytesLeft < data.totalSize ∧
      err = some (.queueFull data.totalSize (q.maxBytes - q.bytesLeft) q.maxBytes) ∧ q' = q) ∨
    (data.totalSize ≤ q.bytesLeft ∧ q.maxBytes ≠ 0 ∧ q.channel.length < q.maxMessages ∧ err = none ∧
      q' = { q with channel := q.channel ++ [data], bytesLeft := q.bytesLeft - data.totalSize }) ∨
    (data.totalSize ≤ q.bytesLeft ∧ q.maxBytes ≠ 0 ∧ q.maxMessages ≤ q.channel.length ∧
      err = some (.channelFull q.maxMessages) ∧ q' = { q with bytesLeft := q.bytesLeft - data.totalSize }) := by
  unfold push at pushed
  obtain ⟨⟨reserved, reservedErr⟩, consumed, result⟩ := Option.map_eq_some_iff.mp pushed
  rcases consumeBytes_cases consumed with ⟨disabled, rfl, rfl⟩ | ⟨enabled, short, rfl, rfl⟩ |
    ⟨_, fits, nonzero, rfl, rfl⟩
  · simp only [Prod.mk.injEq] at result
    exact Or.inl ⟨disabled, result.2.symm, result.1.symm⟩
  · simp only [Prod.mk.injEq] at result
    exact Or.inr (Or.inl ⟨enabled, short, result.2.symm, result.1.symm⟩)
  · -- the bytes are taken; the channel decides
    dsimp only at result
    split_ifs at result with room
    · simp only [Prod.mk.injEq] at result
      exact Or.inr (Or.inr (Or.inl ⟨fits, nonzero, room, result.2.symm, result.1.symm⟩))
    · simp only [Prod.mk.injEq] at result
      exact Or.inr (Or.inr (Or.inr ⟨fits, nonzero, by omega, result.2.symm, result.1.symm⟩))

theorem releaseBytes_eq_some {q q' : TransportQueue} {data : TransportData} :
    q.releaseBytes data = some q' ↔
      q.maxBytes ≠ 0 ∧ q' = { q with bytesLeft := q.bytesLeft + data.totalSize } := by
  dsimp only [releaseBytes, updateUsageMetric]
  split_ifs with zero
  · simp [zero]
  · simp only [Option.map_some, Option.some.injEq]
    exact ⟨fun released => ⟨zero, released.symm⟩, fun ⟨_, released⟩ => released.symm⟩

/-- A `Pop` returns nil and changes nothing, or receives the oldest message and gives its bytes
back. -/
theorem pop_cases {q q' : TransportQueue} {takeMessage : Bool} {result : Option TransportData}
    (popped : q.pop takeMessage = some (q', result)) :
    (result = none ∧ q' = q) ∨
    (∃ data rest, q.channel = data :: rest ∧ q.maxBytes ≠ 0 ∧ result = some data ∧
      q' = { q with channel := rest, bytesLeft := q.bytesLeft + data.totalSize }) := by
  unfold pop at popped
  split at popped
  · rename_i data rest oldest
    obtain ⟨released, freed, received⟩ := Option.map_eq_some_iff.mp popped
    obtain ⟨nonzero, rfl⟩ := releaseBytes_eq_some.mp freed
    simp only [Prod.mk.injEq] at received
    obtain ⟨rfl, rfl⟩ := received
    exact Or.inr ⟨data, rest, oldest, nonzero, rfl, rfl⟩
  · cases popped
    exact Or.inl ⟨rfl, rfl⟩

/-- `Clear` receives the oldest `received` messages, or all of them, and gives their bytes back. -/
theorem clear_eq {q q' : TransportQueue} {received : Nat} (cleared : q.clear received = some q') :
    q' = { q with
      channel := q.channel.drop received
      bytesLeft := q.bytesLeft + ((q.channel.take received).map TransportData.totalSize).sum } := by
  induction received generalizing q with
  | zero =>
    cases cleared
    simp
  | succ received ih =>
    unfold clear at cleared
    split at cleared
    · rename_i empty
      cases cleared
      obtain ⟨channel, maxBytes, maxMessages, bytesLeft, disabled⟩ := q'
      dsimp only at empty
      subst empty
      simp
    · rename_i data rest oldest
      obtain ⟨released, freed, rest'⟩ := Option.bind_eq_some_iff.mp cleared
      obtain ⟨_, rfl⟩ := releaseBytes_eq_some.mp freed
      rw [ih rest', oldest]
      simp only [List.drop_succ_cons, List.take_succ_cons, List.map_cons, List.sum_cons, Int.natCast_add]
      congr 1
      omega

/-- The byte accounting of a queue made with limits `maxBytes` and `maxMessages`: the bytes left,
the bytes of the queued messages and the bytes `kept` by pushes that a full channel refused make up
the limit. -/
structure Accounted (maxBytes maxMessages : Nat) (q : TransportQueue) (kept : Nat) : Prop where
  limits : q.maxBytes = maxBytes ∧ q.maxMessages = maxMessages
  balance : q.bytesLeft + q.queuedBytes + kept = maxBytes
  nonneg : 0 ≤ q.bytesLeft
  capacity : q.channel.length ≤ maxMessages

theorem accounted_newTransportQueue (maxSizeBytes maxSizeMessages : Nat) :
    Accounted maxSizeBytes maxSizeMessages (newTransportQueue maxSizeBytes maxSizeMessages) 0 :=
  ⟨⟨rfl, rfl⟩, by simp [newTransportQueue, queuedBytes], by simp [newTransportQueue], by simp [newTransportQueue]⟩

/-- The bytes a call keeps: those of a push that a full channel refused. -/
def keptBy : QueueOp → QueueResult → Nat
  | .push data, .pushed (some (.channelFull _)) => data.totalSize
  | _, _ => 0

section Limits

variable {maxBytes maxMessages : Nat}

theorem Accounted.clear {q q' : TransportQueue} {kept received : Nat}
    (accounted : Accounted maxBytes maxMessages q kept) (cleared : q.clear received = some q') :
    Accounted maxBytes maxMessages q' kept := by
  have ⟨limits, balance, nonneg, capacity⟩ := accounted
  have split := List.sum_take_add_sum_drop (q.channel.map TransportData.totalSize) received
  rw [← List.map_take, ← List.map_drop] at split
  rw [clear_eq cleared]
  refine ⟨limits, ?_, ?_, ?_⟩
  · simp only [queuedBytes] at balance ⊢
    omega
  · dsimp only
    omega
  · simp only [List.length_drop]
    omega

/-- One call keeps the accounting, with the bytes a refused push keeps added. -/
theorem Accounted.step {q q' : TransportQueue} {kept : Nat} {op : QueueOp} {result : QueueResult}
    (accounted : Accounted maxBytes maxMessages q kept) (stepped : q.step op = some (q', result)) :
    Accounted maxBytes maxMessages q' (kept + keptBy op result) := by
  have ⟨limits, balance, nonneg, capacity⟩ := accounted
  cases op with
  | push data =>
    obtain ⟨⟨q₁, err⟩, pushed, answered⟩ := Option.map_eq_some_iff.mp stepped
    simp only [Prod.mk.injEq] at answered
    obtain ⟨rfl, rfl⟩ := answered
    rcases push_cases pushed with ⟨_, rfl, rfl⟩ | ⟨_, _, rfl, rfl⟩ | ⟨fits, _, room, rfl, rfl⟩ |
      ⟨fits, _, _, rfl, rfl⟩
    · exact accounted
    · exact accounted
    · -- queued: the bytes move from the bytes left to the channel
      refine ⟨limits, ?_, by dsimp only; omega, by simp only [List.length_append, List.length_singleton]; omega⟩
      simp only [queuedBytes, List.map_append, List.sum_append, List.map_cons, List.map_nil, List.sum_cons,
        List.sum_nil, keptBy, Int.natCast_add] at balance ⊢
      omega
    · -- refused by the full channel: the bytes stay taken
      refine ⟨limits, ?_, by dsimp only; omega, capacity⟩
      simp only [queuedBytes, keptBy, Int.natCast_add] at balance ⊢
      omega
  | pop takeMessage =>
    obtain ⟨⟨q₁, data⟩, popped, answered⟩ := Option.map_eq_some_iff.mp stepped
    simp only [Prod.mk.injEq] at answered
    obtain ⟨rfl, rfl⟩ := answered
    rcases pop_cases popped with ⟨_, rfl⟩ | ⟨data, rest, oldest, _, _, rfl⟩
    · exact accounted
    · refine ⟨limits, ?_, by dsimp only; omega,
        by simp only [oldest, List.length_cons] at capacity; dsimp only; omega⟩
      simp only [queuedBytes, oldest, List.map_cons, List.sum_cons, keptBy, Int.natCast_add] at balance ⊢
      omega
  | clear received =>
    obtain ⟨q₁, cleared, answered⟩ := Option.map_eq_some_iff.mp stepped
    cases answered
    exact accounted.clear cleared
  | disable =>
    cases stepped
    exact ⟨limits, balance, nonneg, capacity⟩
  | enable =>
    cases stepped
    exact ⟨limits, balance, nonneg, capacity⟩
  | onNewConnection received =>
    obtain ⟨q₁, connected, answered⟩ := Option.map_eq_some_iff.mp stepped
    cases answered
    obtain ⟨q₂, cleared, rfl⟩ := Option.map_eq_some_iff.mp connected
    have ⟨limits, balance, nonneg, capacity⟩ := accounted.clear cleared
    exact ⟨limits, balance, nonneg, capacity⟩

/-- The bytes kept by the calls of a run. -/
def keptIn : List QueueOp → List QueueResult → Nat
  | op :: ops, result :: results => keptBy op result + keptIn ops results
  | _, _ => 0

/-- A whole run keeps the accounting, with the bytes its refused pushes kept added. -/
theorem Accounted.run {q q' : TransportQueue} {kept : Nat} {ops : List QueueOp} {results : List QueueResult}
    (accounted : Accounted maxBytes maxMessages q kept) (ran : q.run ops = some (q', results)) :
    Accounted maxBytes maxMessages q' (kept + keptIn ops results) := by
  induction ops generalizing q kept results with
  | nil =>
    cases ran
    exact accounted
  | cons op ops ih =>
    obtain ⟨⟨q₁, result⟩, stepped, rest⟩ := Option.bind_eq_some_iff.mp ran
    obtain ⟨⟨q₂, later⟩, ran', answered⟩ := Option.map_eq_some_iff.mp rest
    cases answered
    have accountedAfter := ih (accounted.step stepped) ran'
    simp only [keptIn, ← Nat.add_assoc]
    exact accountedAfter

end Limits

/-- The messages of the pushes of a run that queued them. -/
def acceptedIn : List QueueOp → List QueueResult → List TransportData
  | .push data :: ops, .pushed none :: results => data :: acceptedIn ops results
  | _ :: ops, _ :: results => acceptedIn ops results
  | _, _ => []

/-- The messages the pops of a run returned. -/
def poppedIn : List QueueResult → List TransportData
  | .popped (some data) :: results => data :: poppedIn results
  | _ :: results => poppedIn results
  | [] => []

theorem acceptedIn_cons (op : QueueOp) (ops : List QueueOp) (result : QueueResult) (results : List QueueResult) :
    acceptedIn (op :: ops) (result :: results) = acceptedIn [op] [result] ++ acceptedIn ops results := by
  cases op <;> cases result <;> try rfl
  case push.pushed err => cases err <;> rfl

theorem poppedIn_cons (result : QueueResult) (results : List QueueResult) :
    poppedIn (result :: results) = poppedIn [result] ++ poppedIn results := by
  cases result <;> try rfl
  case popped data => cases data <;> rfl

/-- One call takes messages from the front of the channel, among them the one a pop returns, and
puts the message of a push that succeeds at its back. -/
theorem step_fifo {q q' : TransportQueue} {op : QueueOp} {result : QueueResult}
    (stepped : q.step op = some (q', result)) :
    ∃ removed, removed ++ q'.channel = q.channel ++ acceptedIn [op] [result] ∧ (poppedIn [result]).Sublist removed := by
  cases op with
  | push data =>
    obtain ⟨⟨q₁, err⟩, pushed, answered⟩ := Option.map_eq_some_iff.mp stepped
    simp only [Prod.mk.injEq] at answered
    obtain ⟨rfl, rfl⟩ := answered
    refine ⟨[], ?_, List.nil_sublist _⟩
    rcases push_cases pushed with ⟨_, rfl, rfl⟩ | ⟨_, _, rfl, rfl⟩ | ⟨_, _, _, rfl, rfl⟩ | ⟨_, _, _, rfl, rfl⟩ <;>
      simp [acceptedIn]
  | pop takeMessage =>
    obtain ⟨⟨q₁, data⟩, popped, answered⟩ := Option.map_eq_some_iff.mp stepped
    simp only [Prod.mk.injEq] at answered
    obtain ⟨rfl, rfl⟩ := answered
    rcases pop_cases popped with ⟨rfl, rfl⟩ | ⟨data, rest, oldest, _, rfl, rfl⟩
    · exact ⟨[], by simp [acceptedIn], List.nil_sublist _⟩
    · exact ⟨[data], by simp [acceptedIn, oldest], by simp [poppedIn]⟩
  | clear received =>
    obtain ⟨q₁, cleared, answered⟩ := Option.map_eq_some_iff.mp stepped
    cases answered
    rw [clear_eq cleared]
    exact ⟨q.channel.take received, by simp [acceptedIn], by simp [poppedIn]⟩
  | disable =>
    cases stepped
    exact ⟨[], by simp [acceptedIn, disable], List.nil_sublist _⟩
  | enable =>
    cases stepped
    exact ⟨[], by simp [acceptedIn, enable], List.nil_sublist _⟩
  | onNewConnection received =>
    obtain ⟨q₁, connected, answered⟩ := Option.map_eq_some_iff.mp stepped
    cases answered
    obtain ⟨q₂, cleared, rfl⟩ := Option.map_eq_some_iff.mp connected
    rw [enable, clear_eq cleared]
    exact ⟨q.channel.take received, by simp [acceptedIn], by simp [poppedIn]⟩

/-- Over a run the channel is a first-in first-out queue: the messages taken out and those left
are the messages there at the start and those pushed after, in order. -/
theorem run_fifo {q q' : TransportQueue} {ops : List QueueOp} {results : List QueueResult}
    (ran : q.run ops = some (q', results)) :
    ∃ removed, removed ++ q'.channel = q.channel ++ acceptedIn ops results ∧ (poppedIn results).Sublist removed := by
  induction ops generalizing q results with
  | nil =>
    cases ran
    exact ⟨[], by simp [acceptedIn], List.nil_sublist _⟩
  | cons op ops ih =>
    obtain ⟨⟨q₁, result⟩, stepped, rest⟩ := Option.bind_eq_some_iff.mp ran
    obtain ⟨⟨q₂, later⟩, ran', answered⟩ := Option.map_eq_some_iff.mp rest
    cases answered
    obtain ⟨first, firstFifo, firstPopped⟩ := step_fifo stepped
    obtain ⟨after, afterFifo, afterPopped⟩ := ih ran'
    refine ⟨first ++ after, ?_, ?_⟩
    · rw [acceptedIn_cons, List.append_assoc, afterFifo, ← List.append_assoc, firstFifo, List.append_assoc]
    · rw [poppedIn_cons]
      exact firstPopped.append afterPopped

/-- Any run of calls on a new queue: the bytes left stay between zero and the limit and make it up
with the queued bytes and the bytes kept by pushes a full channel refused; the channel holds at most
`maxMessages` messages; and pops return pushed messages in the order of their pushes. -/
theorem newTransportQueue_run (maxBytes maxMessages : Nat) (ops : List QueueOp) {q : TransportQueue}
    {results : List QueueResult} (ran : (newTransportQueue maxBytes maxMessages).run ops = some (q, results)) :
    0 ≤ q.bytesLeft ∧ q.bytesLeft ≤ maxBytes ∧ q.bytesLeft + q.queuedBytes + keptIn ops results = maxBytes ∧
      q.channel.length ≤ maxMessages ∧ (poppedIn results).Sublist (acceptedIn ops results) := by
  have ⟨_, balance, nonneg, capacity⟩ := (accounted_newTransportQueue maxBytes maxMessages).run ran
  obtain ⟨removed, fifo, popped⟩ := run_fifo ran
  rw [Nat.zero_add] at balance
  refine ⟨nonneg, by omega, balance, capacity, ?_⟩
  simp only [newTransportQueue, List.nil_append] at fifo
  exact popped.trans (fifo ▸ List.sublist_append_left removed q.channel)

end TransportQueue

/-- Two one-byte messages pushed on a queue of ten bytes and one message: the second push fails
on the full channel and keeps its byte. After `OnNewConnection` has received the first, the queue
is empty but has nine bytes left, and refuses a message of ten bytes as "full with 1 bytes out of 10
bytes". -/
theorem full_channel_push_keeps_bytes :
    (newTransportQueue 10 1).run
        [.push ⟨[[1]]⟩, .push ⟨[[2]]⟩, .onNewConnection 1, .push ⟨[List.replicate 10 0]⟩] =
      some (⟨[], 10, 1, 9, false⟩,
        [.pushed none, .pushed (some (.channelFull 1)), .done, .pushed (some (.queueFull 10 1 10))]) := by
  decide

end OrbsNetwork.Gossip
