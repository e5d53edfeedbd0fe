import OrbsNetwork.Gossip.Codec

namespace OrbsNetwork.Gossip

open BlockStorage (BlockPairContainer)

/-- The counts the headers of a block pair give are the lengths of its lists. -/
structure CountsMatch (counts : HeaderCounts) (blockPair : BlockPairContainer) : Prop where
  txs : (counts.numSignedTransactions blockPair.transactionsBlock.header).toNat =
    blockPair.transactionsBlock.signedTransactions.length
  receipts : (counts.numTransactionReceipts blockPair.resultsBlock.header).toNat =
    blockPair.resultsBlock.transactionReceipts.length
  diffs : (counts.numContractStateDiffs blockPair.resultsBlock.header).toNat =
    blockPair.resultsBlock.contractStateDiffs.length

theorem length_encodeBlockPair (blockPair : BlockPairContainer) :
    (encodeBlockPair blockPair).length = 5 + blockPair.transactionsBlock.signedTransactions.length +
      blockPair.resultsBlock.transactionReceipts.length + blockPair.resultsBlock.contractStateDiffs.length := by
  simp [encodeBlockPair]
  omega

/-- Every block pair takes at least one payload. -/
theorem length_le_length_encodeBlockPairs (blockPairs : List BlockPairContainer) :
    blockPairs.length ≤ (encodeBlockPairs blockPairs).length := by
  induction blockPairs with
  | nil => simp
  | cons blockPair blockPairs ih =>
    simp only [encodeBlockPairs, List.flatMap_cons, List.length_append, List.length_cons, length_encodeBlockPair]
      at ih ⊢
    omega

theorem five_le_length_encodeBlockPairs {blockPairs : List BlockPairContainer} (nonempty : blockPairs ≠ []) :
    5 ≤ (encodeBlockPairs blockPairs).length := by
  obtain ⟨blockPair, rest, rfl⟩ := List.exists_cons_of_ne_nil nonempty
  simp only [encodeBlockPairs, List.flatMap_cons, List.length_append, length_encodeBlockPair]
  omega

section Read

variable (pre post : List Bytes)

theorem toNat_toUInt32_of_lt {n : Nat} (short : n < 2 ^ 32) : n.toUInt32.toNat = n := by
  simp only [Nat.toUInt32, UInt32.toNat_ofNat_of_lt' short]

/-- A payload read at the index that the payloads before it give. -/
theorem payloadAt_append (mid : List Bytes) {k : Nat} (within : k < mid.length)
    (short : (pre ++ mid ++ post).length < 2 ^ 32) :
    payloadAt (pre ++ mid ++ post) (pre.length.toUInt32 + k.toUInt32) = some mid[k] := by
  have exact : (pre.length.toUInt32 + k.toUInt32).toNat = pre.length + k := by
    rw [UInt32.toNat_add, toNat_toUInt32_of_lt (by simp at short; omega), toNat_toUInt32_of_lt (by simp at short; omega)]
    exact Nat.mod_eq_of_lt (by simp at short; omega)
  rw [payloadAt, exact, List.append_assoc, List.getElem?_append_right (by omega), Nat.add_sub_cancel_left,
    List.getElem?_append_left within, List.getElem?_eq_getElem within]

/-- An inner loop reads the payloads that follow its start. The induction is on the payloads read,
the start moving past each. -/
theorem readPayloads_append (mid : List Bytes) (short : (pre ++ mid ++ post).length < 2 ^ 32) :
    readPayloads (pre ++ mid ++ post) pre.length.toUInt32 mid.length = some mid := by
  induction mid generalizing pre with
  | nil => rfl
  | cons payload mid ih =>
    have first : payloadAt (pre ++ payload :: mid ++ post) pre.length.toUInt32 = some payload := by
      have read := payloadAt_append pre post (payload :: mid) (show 0 < (payload :: mid).length by simp) short
      rwa [show (0 : Nat).toUInt32 = 0 from rfl, UInt32.add_zero] at read
    have next : pre.length.toUInt32 + 1 = (pre ++ [payload]).length.toUInt32 := by
      simp only [List.length_append, List.length_singleton, Nat.toUInt32, UInt32.ofNat_add]
      rfl
    have rest := ih (pre ++ [payload]) (by simpa using short)
    simp only [List.append_assoc, List.cons_append, List.nil_append] at rest
    rw [List.length_cons, readPayloads, first]
    simp only [Option.bind_eq_bind, Option.bind_some, next, List.append_assoc, List.cons_append, rest]
    rfl

end Read

section Loop

variable (counts : HeaderCounts)

/-- One turn of the decoding loop over an encoded block pair decodes that block pair and moves the
index past it. -/
theorem decodeBlockPairsLoop_step {blockPair : BlockPairContainer} (matching : CountsMatch counts blockPair)
    (pre post : List Bytes) (short : (pre ++ encodeBlockPair blockPair ++ post).length < 2 ^ 32) (fuel : Nat)
    (results : List BlockPairContainer) :
    decodeBlockPairsLoop counts (pre ++ encodeBlockPair blockPair ++ post) (fuel + 1) pre.length.toUInt32 results =
      decodeBlockPairsLoop counts (pre ++ encodeBlockPair blockPair ++ post) fuel
        (pre ++ encodeBlockPair blockPair).length.toUInt32 (results ++ [blockPair]) := by
  obtain ⟨⟨header, metadata, txs, proof⟩, ⟨rxHeader, receipts, diffs, rxProof⟩⟩ := blockPair
  obtain ⟨matchTxs, matchReceipts, matchDiffs⟩ := matching
  dsimp only at matchTxs matchReceipts matchDiffs
  set payloads := pre ++ encodeBlockPair ⟨⟨header, metadata, txs, proof⟩, ⟨rxHeader, receipts, diffs, rxProof⟩⟩ ++ post
    with payloadsEq
  have lengths : payloads.length = pre.length + 5 + txs.length + receipts.length + diffs.length + post.length := by
    simp [payloads, encodeBlockPair]
    omega
  have toNatOf {n : Nat} (below : n ≤ payloads.length) : n.toUInt32.toNat = n :=
    toNat_toUInt32_of_lt (by omega)
  have indexOf {a : UInt32} {n : Nat} (exact : a.toNat = n) (below : n ≤ payloads.length) : a = n.toUInt32 :=
    UInt32.toNat_inj.mp (by rw [exact, toNatOf below])
  have index : pre.length.toUInt32.toNat = pre.length := toNatOf (by omega)
  have within : pre.length.toUInt32 < payloads.length.toUInt32 := by
    rw [UInt32.lt_iff_toNat_lt, index, toNatOf le_rfl]
    omega
  have room : ¬ payloads.length.toUInt32 < pre.length.toUInt32 + numHardcodedPayloadsForBlockPair := by
    rw [UInt32.lt_iff_toNat_lt, UInt32.toNat_add, index, toNatOf le_rfl]
    simp only [numHardcodedPayloadsForBlockPair, UInt32.reduceToNat]
    omega
  have fixedSplit : payloads = pre ++ [header, metadata, proof, rxHeader, rxProof] ++ (txs ++ receipts ++ diffs ++ post) := by
    simp [payloads, encodeBlockPair]
  have fixedShort : (pre ++ [header, metadata, proof, rxHeader, rxProof] ++ (txs ++ receipts ++ diffs ++ post)).length < 2 ^ 32 := by
    rw [← fixedSplit]
    omega
  have read0 := payloadAt_append pre _ [header, metadata, proof, rxHeader, rxProof] (show 0 < 5 by omega) fixedShort
  have read1 := payloadAt_append pre _ [header, metadata, proof, rxHeader, rxProof] (show 1 < 5 by omega) fixedShort
  have read2 := payloadAt_append pre _ [header, metadata, proof, rxHeader, rxProof] (show 2 < 5 by omega) fixedShort
  have read3 := payloadAt_append pre _ [header, metadata, proof, rxHeader, rxProof] (show 3 < 5 by omega) fixedShort
  have read4 := payloadAt_append pre _ [header, metadata, proof, rxHeader, rxProof] (show 4 < 5 by omega) fixedShort
  rw [← fixedSplit] at read0 read1 read2 read3 read4
  simp only [List.getElem_cons_zero, List.getElem_cons_succ, show Nat.toUInt32 0 = 0 from rfl, UInt32.add_zero,
    show Nat.toUInt32 1 = 1 from rfl, show Nat.toUInt32 2 = 2 from rfl, show Nat.toUInt32 3 = 3 from rfl,
    show Nat.toUInt32 4 = 4 from rfl] at read0 read1 read2 read3 read4
  have fixedEnd : pre.length.toUInt32 + numHardcodedPayloadsForBlockPair =
      (pre ++ [header, metadata, proof, rxHeader, rxProof]).length.toUInt32 :=
    indexOf (by rw [UInt32.toNat_add, index]; simp [numHardcodedPayloadsForBlockPair]; omega) (by simp; omega)
  have txsEnd : pre.length.toUInt32 + numHardcodedPayloadsForBlockPair + counts.numSignedTransactions header =
      (pre ++ [header, metadata, proof, rxHeader, rxProof] ++ txs).length.toUInt32 :=
    indexOf (by rw [UInt32.toNat_add, fixedEnd, toNatOf (by simp; omega), matchTxs]; simp; omega) (by simp; omega)
  have receiptsEnd : pre.length.toUInt32 + numHardcodedPayloadsForBlockPair + counts.numSignedTransactions header +
      counts.numTransactionReceipts rxHeader =
      (pre ++ [header, metadata, proof, rxHeader, rxProof] ++ txs ++ receipts).length.toUInt32 :=
    indexOf (by rw [UInt32.toNat_add, txsEnd, toNatOf (by simp; omega), matchReceipts]; simp; omega) (by simp; omega)
  have diffsEnd : pre.length.toUInt32 + numHardcodedPayloadsForBlockPair + counts.numSignedTransactions header +
      counts.numTransactionReceipts rxHeader + counts.numContractStateDiffs rxHeader =
      (pre ++ encodeBlockPair ⟨⟨header, metadata, txs, proof⟩, ⟨rxHeader, receipts, diffs, rxProof⟩⟩).length.toUInt32 :=
    indexOf (by rw [UInt32.toNat_add, receiptsEnd, toNatOf (by simp; omega), matchDiffs]; simp [encodeBlockPair]; omega)
      (by simp [encodeBlockPair]; omega)
  -- the bounds check passes: the counts and the index add up without wrapping
  have expected : ¬ payloads.length.toUInt32 < pre.length.toUInt32 + numHardcodedPayloadsForBlockPair +
      (counts.numSignedTransactions header + counts.numTransactionReceipts rxHeader +
        counts.numContractStateDiffs rxHeader) := by
    rw [← UInt32.add_assoc, ← UInt32.add_assoc, diffsEnd, UInt32.lt_iff_toNat_lt, toNatOf le_rfl,
      toNatOf (by simp [encodeBlockPair]; omega)]
    simp [encodeBlockPair]
    omega
  have readTxs : readPayloads payloads (pre.length.toUInt32 + numHardcodedPayloadsForBlockPair)
      (counts.numSignedTransactions header).toNat = some txs := by
    have split : payloads = pre ++ [header, metadata, proof, rxHeader, rxProof] ++ txs ++ (receipts ++ diffs ++ post) := by
      simp [payloads, encodeBlockPair]
    rw [matchTxs, fixedEnd, split]
    exact readPayloads_append _ _ txs (by rw [← split]; omega)
  have readReceipts : readPayloads payloads
      (pre.length.toUInt32 + numHardcodedPayloadsForBlockPair + counts.numSignedTransactions header)
      (counts.numTransactionReceipts rxHeader).toNat = some receipts := by
    have split : payloads = pre ++ [header, metadata, proof, rxHeader, rxProof] ++ txs ++ receipts ++ (diffs ++ post) := by
      simp [payloads, encodeBlockPair]
    rw [matchReceipts, txsEnd, split]
    exact readPayloads_append _ _ receipts (by rw [← split]; omega)
  have readDiffs : readPayloads payloads
      (pre.length.toUInt32 + numHardcodedPayloadsForBlockPair + counts.numSignedTransactions header +
        counts.numTransactionReceipts rxHeader)
      (counts.numContractStateDiffs rxHeader).toNat = some diffs := by
    have split : payloads = pre ++ [header, metadata, proof, rxHeader, rxProof] ++ txs ++ receipts ++ diffs ++ post := by
      simp [payloads, encodeBlockPair]
    rw [matchDiffs, receiptsEnd, split]
    exact readPayloads_append _ _ diffs (by rw [← split]; omega)
  rw [decodeBlockPairsLoop]
  simp only [if_pos within, if_neg room, read0, read1, read2, read3, read4, Option.bind_eq_bind, Option.bind_some,
    if_neg expected, readTxs, readReceipts, readDiffs, diffsEnd]

/-- The decoding loop over encoded block pairs decodes them all, one a turn. -/
theorem decodeBlockPairsLoop_encoded {blockPairs : List BlockPairContainer}
    (matching : ∀ blockPair ∈ blockPairs, CountsMatch counts blockPair) (pre : List Bytes)
    (short : (pre ++ encodeBlockPairs blockPairs).length < 2 ^ 32) {fuel : Nat} (enough : blockPairs.length < fuel)
    (results : List BlockPairContainer) :
    decodeBlockPairsLoop counts (pre ++ encodeBlockPairs blockPairs) fuel pre.length.toUInt32 results =
      some (.ok (results ++ blockPairs)) := by
  induction blockPairs generalizing pre fuel results with
  | nil =>
    obtain ⟨fuel, rfl⟩ : ∃ rest, fuel = rest + 1 := ⟨fuel - 1, by simp at enough; omega⟩
    simp [decodeBlockPairsLoop, encodeBlockPairs]
  | cons blockPair blockPairs ih =>
    obtain ⟨fuel, rfl⟩ : ∃ rest, fuel = rest + 1 := ⟨fuel - 1, by simp at enough; omega⟩
    have split : pre ++ encodeBlockPairs (blockPair :: blockPairs) =
        pre ++ encodeBlockPair blockPair ++ encodeBlockPairs blockPairs := by
      simp [encodeBlockPairs]
    rw [split] at short ⊢
    rw [decodeBlockPairsLoop_step counts (matching blockPair List.mem_cons_self) pre _ short,
      ih (fun b member => matching b (List.mem_cons_of_mem _ member)) (pre ++ encodeBlockPair blockPair) short
        (by simp at enough; omega)]
    simp

/-- `DecodeBlockPairs` inverts `EncodeBlockPairs` on block pairs whose header counts match their
lists, as long as the payloads can be counted in a `uint32`. -/
theorem decodeBlockPairs_encodeBlockPairs {blockPairs : List BlockPairContainer}
    (matching : ∀ blockPair ∈ blockPairs, CountsMatch counts blockPair)
    (short : (encodeBlockPairs blockPairs).length < 2 ^ 32) :
    decodeBlockPairs counts (encodeBlockPairs blockPairs) = some (.ok blockPairs) := by
  have atLeast := length_le_length_encodeBlockPairs blockPairs
  have run := decodeBlockPairsLoop_encoded counts matching [] short
    (show blockPairs.length < 2 ^ 32 + 1 by omega) []
  rw [decodeBlockPairs]
  simpa using run

end Loop

section Accepted

variable {payloads : List Bytes}

theorem payloadAt_some {i : UInt32} {x : Bytes} (read : payloadAt payloads i = some x) :
    i.toNat < payloads.length ∧ payloads.drop i.toNat = x :: payloads.drop (i.toNat + 1) := by
  rw [payloadAt, List.getElem?_eq_some_iff] at read
  obtain ⟨within, rfl⟩ := read
  exact ⟨within, List.drop_eq_getElem_cons within⟩

/-- A read at an index of a list shorter than `2^32` leaves room for the next index. -/
theorem toNat_add_one_of_read (short : payloads.length < 2 ^ 32) {i : UInt32} {x : Bytes}
    (read : payloadAt payloads i = some x) : (i + 1).toNat = i.toNat + 1 := by
  have within := (payloadAt_some read).1
  rw [UInt32.toNat_add, UInt32.toNat_one]
  exact Nat.mod_eq_of_lt (by omega)

/-- An inner loop that reads every payload asked for reads the payloads from its start on. The
induction is on the number read. -/
theorem readPayloads_some (short : payloads.length < 2 ^ 32) :
    ∀ {count : Nat} {start : UInt32} {xs : List Bytes}, start.toNat ≤ payloads.length →
      readPayloads payloads start count = some xs →
      start.toNat + count ≤ payloads.length ∧ xs = (payloads.drop start.toNat).take count
  | 0, start, xs, _, read => by
    simp only [readPayloads, Option.some.injEq] at read
    subst read
    simp only [List.take_zero, and_true]
    omega
  | count + 1, start, xs, _, read => by
    simp only [readPayloads, Option.bind_eq_bind, Option.bind_eq_some_iff, Option.pure_def,
      Option.some.injEq] at read
    obtain ⟨x, readX, rest, readRest, rfl⟩ := read
    have ⟨within, atStart⟩ := payloadAt_some readX
    have next := toNat_add_one_of_read short readX
    obtain ⟨room, restEq⟩ := readPayloads_some short (by omega) readRest
    rw [next] at room restEq
    refine ⟨by omega, ?_⟩
    rw [atStart, List.take_succ_cons, restEq]

/-- The five fixed reads of a turn, when all in range, read the five payloads from the index on:
the indices cannot wrap past `2^32 - 1`, which is out of range. -/
theorem fixedReads_some (short : payloads.length < 2 ^ 32) {i : UInt32} {a b c d e : Bytes}
    (read0 : payloadAt payloads i = some a) (read1 : payloadAt payloads (i + 1) = some b)
    (read2 : payloadAt payloads (i + 2) = some c) (read3 : payloadAt payloads (i + 3) = some d)
    (read4 : payloadAt payloads (i + 4) = some e) :
    i.toNat + 5 ≤ payloads.length ∧ (i + 5).toNat = i.toNat + 5 ∧
      payloads.drop i.toNat = a :: b :: c :: d :: e :: payloads.drop (i.toNat + 5) := by
  obtain ⟨within0, drop0⟩ := payloadAt_some read0
  obtain ⟨within1, drop1⟩ := payloadAt_some read1
  obtain ⟨within2, drop2⟩ := payloadAt_some read2
  obtain ⟨within3, drop3⟩ := payloadAt_some read3
  obtain ⟨within4, drop4⟩ := payloadAt_some read4
  simp only [UInt32.toNat_add, UInt32.reduceToNat] at within1 within2 within3 within4 drop1 drop2 drop3 drop4
  have room : i.toNat + 5 ≤ payloads.length := by omega
  have exact (k : Nat) (small : k ≤ 4) : (i.toNat + k) % 4294967296 = i.toNat + k := Nat.mod_eq_of_lt (by omega)
  rw [exact 1 (by omega)] at drop1
  rw [exact 2 (by omega)] at drop2
  rw [exact 3 (by omega)] at drop3
  rw [exact 4 (by omega)] at drop4
  refine ⟨room, ?_, ?_⟩
  · rw [UInt32.toNat_add]
    exact Nat.mod_eq_of_lt (by simp; omega)
  · rw [drop0, drop1, drop2, drop3, drop4]

/-- What the decoding loop accepts from any payloads that can be counted in a `uint32`: the block
pairs it returns, with those decoded before, re-encode to all the payloads, and each holds the
numbers of elements its headers declare. The induction is on the fuel; the invariant is that the
block pairs so far re-encode to the payloads before the index. -/
theorem decodeBlockPairsLoop_accepted (counts : HeaderCounts) (short : payloads.length < 2 ^ 32) :
    ∀ {fuel : Nat} {payloadIndex : UInt32} {results decoded : List BlockPairContainer},
      encodeBlockPairs results = payloads.take payloadIndex.toNat → payloadIndex.toNat ≤ payloads.length →
      (∀ blockPair ∈ results, CountsMatch counts blockPair) →
      decodeBlockPairsLoop counts payloads fuel payloadIndex results = some (.ok decoded) →
      encodeBlockPairs decoded = payloads ∧ ∀ blockPair ∈ decoded, CountsMatch counts blockPair
  | 0, _, _, _, _, _, _, run => by simp [decodeBlockPairsLoop] at run
  | fuel + 1, payloadIndex, results, decoded, encoded, within, matching, run => by
    have numPayloads : payloads.length.toUInt32.toNat = payloads.length := toNat_toUInt32_of_lt short
    rw [decodeBlockPairsLoop] at run
    dsimp only at run
    split at run
    · split at run
      · simp at run
      simp only [Option.bind_eq_bind, Option.bind_eq_some_iff] at run
      obtain ⟨header, read0, metadata, read1, proof, read2, rxHeader, read3, rxProof, read4, run⟩ := run
      obtain ⟨fixedRoom, fixedIndex, fixedDrop⟩ := fixedReads_some short read0 read1 read2 read3 read4
      by_cases check : payloads.length.toUInt32 < payloadIndex + numHardcodedPayloadsForBlockPair +
          (counts.numSignedTransactions header + counts.numTransactionReceipts rxHeader +
            counts.numContractStateDiffs rxHeader)
      · rw [if_pos check] at run
        simp at run
      rw [if_neg check] at run
      simp only [Option.bind_eq_some_iff] at run
      obtain ⟨txs, readTxs, receipts, readReceipts, diffs, readDiffs, run⟩ := run
      -- each list is read from where the one before ended, without wrapping
      have advance {start : UInt32} {count : UInt32} (room : start.toNat + count.toNat ≤ payloads.length) :
          (start + count).toNat = start.toNat + count.toNat := by
        rw [UInt32.toNat_add]
        exact Nat.mod_eq_of_lt (by omega)
      rw [show numHardcodedPayloadsForBlockPair = 5 from rfl] at readTxs readReceipts readDiffs run
      obtain ⟨roomTxs, txsEq⟩ := readPayloads_some short (by omega) readTxs
      rw [fixedIndex] at roomTxs txsEq
      obtain ⟨roomReceipts, receiptsEq⟩ := readPayloads_some short (by rw [advance (by omega)]; omega) readReceipts
      rw [advance (by omega), fixedIndex] at roomReceipts receiptsEq
      obtain ⟨roomDiffs, diffsEq⟩ := readPayloads_some short
        (by rw [advance (by rw [advance (by omega)]; omega), advance (by omega)]; omega) readDiffs
      rw [advance (by rw [advance (by omega)]; omega), advance (by omega), fixedIndex] at roomDiffs diffsEq
      have nextIndex : (payloadIndex + 5 + counts.numSignedTransactions header + counts.numTransactionReceipts rxHeader +
          counts.numContractStateDiffs rxHeader).toNat =
          payloadIndex.toNat + 5 + (counts.numSignedTransactions header).toNat +
            (counts.numTransactionReceipts rxHeader).toNat + (counts.numContractStateDiffs rxHeader).toNat := by
        rw [advance (by rw [advance (by rw [advance (by omega)]; omega), advance (by omega)]; omega),
          advance (by rw [advance (by omega)]; omega), advance (by omega), fixedIndex]
      have counted : CountsMatch counts
          ⟨⟨header, metadata, txs, proof⟩, ⟨rxHeader, receipts, diffs, rxProof⟩⟩ := by
        refine ⟨?_, ?_, ?_⟩ <;> simp only [txsEq, receiptsEq, diffsEq, List.length_take, List.length_drop] <;> omega
      refine decodeBlockPairsLoop_accepted counts short ?_ (by rw [nextIndex]; omega) ?_ run
      · rw [nextIndex, encodeBlockPairs, List.flatMap_append, ← encodeBlockPairs, encoded, List.flatMap_singleton]
        have split : payloadIndex.toNat + 5 + (counts.numSignedTransactions header).toNat +
            (counts.numTransactionReceipts rxHeader).toNat + (counts.numContractStateDiffs rxHeader).toNat =
            payloadIndex.toNat + ((counts.numSignedTransactions header).toNat +
              (counts.numTransactionReceipts rxHeader).toNat + (counts.numContractStateDiffs rxHeader).toNat + 1 + 1 +
                1 + 1 + 1) := by
          omega
        rw [split, List.take_add, fixedDrop]
        simp only [List.take_succ_cons, List.take_add, List.drop_drop, encodeBlockPair, txsEq, receiptsEq, diffsEq]
        simp only [List.cons_append, List.nil_append, List.append_assoc, Nat.add_assoc]
      · intro blockPair member
        rcases List.mem_append.mp member with old | new
        · exact matching blockPair old
        · rw [List.mem_singleton.mp new]
          exact counted
    · simp only [Option.some.injEq, Except.ok.injEq] at run
      subst run
      rw [UInt32.lt_iff_toNat_lt, numPayloads] at *
      refine ⟨?_, matching⟩
      rw [encoded, List.take_of_length_le (by omega)]

/-- Whatever payloads a peer sends, when `DecodeBlockPairs` returns block pairs, they re-encode to
exactly those payloads, and each holds the numbers of elements its headers declare. -/
theorem decodeBlockPairs_accepted (counts : HeaderCounts) (short : payloads.length < 2 ^ 32)
    {decoded : List BlockPairContainer} (run : decodeBlockPairs counts payloads = some (.ok decoded)) :
    encodeBlockPairs decoded = payloads ∧ ∀ blockPair ∈ decoded, CountsMatch counts blockPair :=
  decodeBlockPairsLoop_accepted counts short (by simp [encodeBlockPairs]) (by simp)
    (fun _ member => absurd member List.not_mem_nil) run

end Accepted

/-- Header counts a peer can send: the transactions header `[1]` declares `2^32 - 1` transactions
and the results header `[2]` one receipt, which add up to 0 in `uint32`. -/
def wrappingCounts : HeaderCounts :=
  ⟨fun header => if header = [1] then 0xFFFFFFFF else 0, fun header => if header = [2] then 1 else 0, fun _ => 0⟩

/-- With those headers and no other payload, the bounds check sees 0 expected payloads and passes,
and the loop over the transactions reads past the last payload: `DecodeBlockPairs` panics. -/
theorem decode_block_pairs_wrapping_counts_panic :
    decodeBlockPairs wrappingCounts [[1], [], [], [2], []] = none := by
  rfl

section Messages

variable (counts : HeaderCounts)

/-- `DecodeBlockSyncResponse` inverts `EncodeBlockSyncResponse` once the transport has stripped the
gossip header, for a message with block pairs whose header counts match their lists, a chunk range
and a sender signature that their readers accept, and payloads that can be counted in a `uint32`. -/
theorem decodeBlockSyncResponse_encode (readers : ResponseReaders) (header : Bytes)
    (message : BlockSyncResponseMessage) (nonempty : message.blockPairs ≠ [])
    (validRange : readers.blockSyncRangeIsValid message.signedChunkRange = true)
    (validSender : readers.senderSignatureIsValid message.sender = true)
    (matching : ∀ blockPair ∈ message.blockPairs, CountsMatch counts blockPair)
    (short : (encodeBlockPairs message.blockPairs).length < 2 ^ 32) :
    ∃ payloads, encodeBlockSyncResponse header message = .ok (header :: payloads) ∧
      decodeBlockSyncResponse counts readers payloads = some (.ok message) := by
  have atLeast := five_le_length_encodeBlockPairs nonempty
  refine ⟨message.signedChunkRange :: message.sender :: encodeBlockPairs message.blockPairs, ?_, ?_⟩
  · rw [encodeBlockSyncResponse, if_neg (by simpa using nonempty)]
    rfl
  · have enough : ¬ (message.signedChunkRange :: message.sender :: encodeBlockPairs message.blockPairs).length <
        2 + numHardcodedPayloadsForBlockPair.toNat := by
      simp [numHardcodedPayloadsForBlockPair]
      omega
    rw [decodeBlockSyncResponse, if_neg enough, if_neg (by simp [validRange]), if_neg (by simp [validSender]),
      decodeBlockPairs_encodeBlockPairs counts matching short]
    rfl

/-- `DecodeLeanHelixMessage` inverts `EncodeLeanHelixMessage` once the gossip header is stripped,
with or without a block pair. -/
theorem decodeLeanHelixMessage_encode (header : Bytes) (message : LeanHelixMessage)
    (matching : ∀ blockPair, message.blockPair = some blockPair → CountsMatch counts blockPair)
    (short : ∀ blockPair, message.blockPair = some blockPair → (encodeBlockPair blockPair).length < 2 ^ 32) :
    decodeLeanHelixMessage counts (encodeLeanHelixMessage header message).tail = some (.ok message) := by
  obtain ⟨content, blockPair⟩ := message
  cases blockPair with
  | none => rfl
  | some blockPair =>
    have decoded : decodeBlockPairs counts (encodeBlockPairs [blockPair]) = some (.ok [blockPair]) :=
      decodeBlockPairs_encodeBlockPairs counts (fun b member => by simp at member; subst member; exact matching b rfl)
        (by simpa [encodeBlockPairs] using short blockPair rfl)
    simp only [encodeBlockPairs, List.flatMap_cons, List.flatMap_nil, List.append_nil] at decoded
    simp only [encodeLeanHelixMessage, Option.map_some, Option.getD_some, List.cons_append, List.tail_cons,
      List.nil_append]
    -- the payloads of a block pair are never empty, so the decoder reads a block pair
    obtain ⟨first, rest, split⟩ : ∃ first rest, encodeBlockPair blockPair = first :: rest := ⟨_, _, rfl⟩
    rw [split, decodeLeanHelixMessage, decodeBlockPair, ← split, decoded]
    · rfl
    · exact List.cons_ne_nil first rest

end Messages

end OrbsNetwork.Gossip
