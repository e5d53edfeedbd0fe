import OrbsNetwork.StateStorage.Service
import OrbsNetwork.StateStorage.RevisionsSpec

namespace OrbsNetwork.StateStorage

open Merkle

/-- The `addRevision` call `CommitStateDiff` makes for an input. -/
def CommitStateDiffInput.block (input : CommitStateDiffInput) : BlockDiff :=
  ⟨input.blockHeight, input.timestamp, input.blockProposerAddress, inflateChainState input.contractStateDiffs⟩

section Runs

variable (calcSha256 : Bytes → Bytes)

/-- `s` is reached from `init` by `CommitStateDiff` calls with `inputs` that the service
accepted: each at the next height, answered with the height after it. Calls at other heights
change nothing (`Service.commitStateDiff_other_height`). -/
inductive Committed (init : Service) : List CommitStateDiffInput → Service → Prop
  | start : Committed init [] init
  | next {inputs : List CommitStateDiffInput} {s s' : Service} {input : CommitStateDiffInput} :
      Committed init inputs s → input.blockHeight = s.revisions.currentHeight + 1 →
      s.commitStateDiff calcSha256 input = some (s', .ok (input.blockHeight + 1)) →
      Committed init (inputs ++ [input]) s'

end Runs

section BlockTracker

variable {t t' : BlockTracker}

theorem BlockTracker.incrementTo_some {height : Nat} (moved : t.incrementTo height = some t') :
    height = t.currentHeight + 1 ∧ t'.currentHeight = t.currentHeight + 1 := by
  unfold BlockTracker.incrementTo at moved
  by_cases next : height = t.currentHeight + 1
  · rw [if_neg (not_not_intro next)] at moved
    cases moved
    exact ⟨next, rfl⟩
  · rw [if_pos next] at moved
    cases moved

theorem BlockTracker.waitForBlock_of_le {requestedHeight : Nat} (committed : requestedHeight ≤ t.currentHeight) :
    t.waitForBlock requestedHeight = .ok () :=
  if_pos committed

theorem BlockTracker.waitForBlock_of_lt {requestedHeight : Nat} (future : t.currentHeight < requestedHeight) :
    ∃ err, t.waitForBlock requestedHeight = .error err := by
  unfold BlockTracker.waitForBlock
  rw [if_neg (Nat.not_le.mpr future)]
  split
  · exact ⟨_, rfl⟩
  · exact ⟨_, rfl⟩

end BlockTracker

section Service

variable {calcSha256 : Bytes → Bytes}

/-- A commit at another height than the next one is answered with the next height and changes
nothing. -/
theorem Service.commitStateDiff_other_height {s : Service} {input : CommitStateDiffInput}
    (other : s.revisions.currentHeight + 1 ≠ input.blockHeight) :
    s.commitStateDiff calcSha256 input = some (s, .ok (s.revisions.currentHeight + 1)) :=
  if_pos other

/-- An accepted commit added the revision and moved the block tracker to its height. -/
theorem Service.commitStateDiff_accepted {s s' : Service} {input : CommitStateDiffInput} {next : Nat}
    (commit : s.commitStateDiff calcSha256 input = some (s', .ok next))
    (atNext : input.blockHeight = s.revisions.currentHeight + 1) :
    s.revisions.addRevision calcSha256 input.block.height input.block.ts input.block.proposer input.block.diff =
        (s'.revisions, .ok ()) ∧
      s.blockTracker.incrementTo input.blockHeight = some s'.blockTracker ∧ s'.config = s.config := by
  unfold Service.commitStateDiff at commit
  rw [if_neg (not_not_intro atNext.symm)] at commit
  cases added : s.revisions.addRevision calcSha256 input.blockHeight input.timestamp input.blockProposerAddress
      (inflateChainState input.contractStateDiffs) with
  | mk revisions result =>
    rw [added] at commit
    cases result with
    | error err => cases commit
    | ok u =>
      cases tracker : s.blockTracker.incrementTo input.blockHeight with
      | none =>
        rw [tracker] at commit
        cases commit
      | some blockTracker =>
        rw [tracker] at commit
        cases commit
        cases u
        exact ⟨added, rfl, rfl⟩

/-- Every run of accepted commits is a run of `addRevision` calls at consecutive heights, and
moves the block tracker along with the current height. -/
theorem Committed.added {init s : Service} {inputs : List CommitStateDiffInput}
    (tracked : init.blockTracker.currentHeight = init.revisions.currentHeight)
    (committed : Committed calcSha256 init inputs s) :
    Added calcSha256 init.revisions (inputs.map CommitStateDiffInput.block) s.revisions ∧
      s.blockTracker.currentHeight = s.revisions.currentHeight ∧ s.config = init.config := by
  induction committed with
  | start => exact ⟨.start, tracked, rfl⟩
  | @next inputs s s' input _ atNext commit ih =>
    obtain ⟨added, tracked, config⟩ := ih
    obtain ⟨revision, tracker, config'⟩ := s.commitStateDiff_accepted commit atNext
    obtain ⟨-, moved⟩ := BlockTracker.incrementTo_some tracker
    refine ⟨?_, ?_, config'.trans config⟩
    · rw [List.map_append, List.map_singleton]
      exact .next added atNext revision
    · have current : s'.revisions.currentHeight = input.blockHeight :=
        (addRevision_spec (fun ls => ls.currentHeight = input.blockHeight) (fun _ _ _ => rfl)
          (fun _ _ _ _ held _ _ _ => held) revision).1
      rw [moved, tracked, current, atNext]

end Service

section ReadKeys

variable {s : Service}

/-- Heights the service admits are not below the persisted height: before the window is full
nothing was evicted, after it the persisted height trails the current one by the window. -/
theorem Rolled.persistedHeight_le {init ls : RollingRevisions} {blocks evicted : List BlockDiff}
    (rolled : Rolled init blocks evicted ls) (window : ls.revisions.length = min blocks.length ls.transientRevisions)
    {h : Nat} (recent : ls.currentHeight < h + ls.transientRevisions) (fromStart : init.persistedHeight ≤ h) :
    ls.persistedHeight ≤ h := by
  have lengths := rolled.length
  have current := rolled.currentHeight
  have persisted := rolled.persistedHeight
  omega

theorem Service.readKey_of_record {h : Nat} {contractName key : Bytes} {value : Option Bytes}
    (read : s.revisions.getRevisionRecord h contractName key = .ok (snapshotRecord value)) :
    s.readKey h contractName key = .ok ⟨key, value.getD []⟩ := by
  unfold Service.readKey
  rw [read]
  cases value <;> rfl

theorem Service.admitBlockHeight_ok {caller : String} {h : Nat} (committed : h ≤ s.blockTracker.currentHeight)
    (recent : s.revisions.currentHeight < h + s.config.stateStorageHistorySnapshotNum.toNat) :
    s.admitBlockHeight caller h = .ok () := by
  unfold Service.admitBlockHeight
  rw [BlockTracker.waitForBlock_of_le committed]
  exact if_neg (Nat.not_le.mpr recent)

theorem Service.admitBlockHeight_future (caller : String) {h : Nat} (future : s.blockTracker.currentHeight < h) :
    ∃ err, s.admitBlockHeight caller h = .error err := by
  obtain ⟨err, wait⟩ := BlockTracker.waitForBlock_of_lt future
  unfold Service.admitBlockHeight
  rw [wait]
  exact ⟨_, rfl⟩

/-- `ReadKeys` at a committed height of the snapshot window answers every key with its value in
the state at that height, the zero value for a missing key. -/
theorem Service.readKeys_committed {init : RollingRevisions} {blocks evicted : List BlockDiff}
    (rolled : Rolled init blocks evicted s.revisions)
    (window : s.revisions.revisions.length = min blocks.length s.revisions.transientRevisions)
    (tracked : s.blockTracker.currentHeight = s.revisions.currentHeight)
    (snapshots : s.revisions.transientRevisions = s.config.stateStorageHistorySnapshotNum.toNat)
    {input : ReadKeysInput} (named : input.contractName ≠ []) (fromStart : init.persistedHeight ≤ input.blockHeight)
    (committed : input.blockHeight ≤ s.revisions.currentHeight)
    (recent : s.revisions.currentHeight < input.blockHeight + s.config.stateStorageHistorySnapshotNum.toNat) :
    s.readKeys input = if input.keys = [] then .error "no value found for input key(s)"
      else .ok (input.keys.map fun key =>
        ⟨key, (stateAt init.persist.fullState blocks input.blockHeight input.contractName key).getD []⟩) := by
  have lower := rolled.persistedHeight_le window (snapshots ▸ recent) fromStart
  have each : s.readKey input.blockHeight input.contractName = fun key =>
      pure ⟨key, (stateAt init.persist.fullState blocks input.blockHeight input.contractName key).getD []⟩ :=
    funext fun key => Service.readKey_of_record (rolled.getRevisionRecord lower committed _ key)
  unfold Service.readKeys
  rw [if_neg named, s.admitBlockHeight_ok (tracked ▸ committed) recent]
  simp only [each, List.mapM_pure]
  cases input.keys with
  | nil => rfl
  | cons key keys => rfl

end ReadKeys

section Snapshots

variable {calcSha256 : Bytes → Bytes}

theorem state_reads_snapshot_correct :
    (∀ {persist : InMemoryStatePersistence} {transientRevisions : Nat} {merkle : Forest} {blocks : List BlockDiff}
        {ls : RollingRevisions},
      Added calcSha256 (newRollingRevisions persist transientRevisions merkle) blocks ls →
      ∀ (h : Nat) (contract key : Bytes),
        (ls.persistedHeight ≤ h → h ≤ ls.currentHeight →
          ls.getRevisionRecord h contract key = .ok (snapshotRecord (stateAt persist.fullState blocks h contract key))) ∧
        (ls.currentHeight < h → ∃ err, ls.getRevisionRecord h contract key = .error err) ∧
        (h < ls.persistedHeight → ∃ err, ls.getRevisionRecord h contract key = .error err)) ∧
    (∀ {config : StateStorageConfig} {inputs : List CommitStateDiffInput} {s : Service},
      Committed calcSha256 (newStateStorage calcSha256 config (newStatePersistence calcSha256)) inputs s →
      ∀ input : ReadKeysInput, s.revisions.currentHeight < input.blockHeight + config.stateStorageHistorySnapshotNum.toNat →
        (input.contractName = [] → s.readKeys input = .error "missing contract name") ∧
        (input.contractName ≠ [] → s.revisions.currentHeight < input.blockHeight → ∃ err, s.readKeys input = .error err) ∧
        (input.contractName ≠ [] → input.blockHeight ≤ s.revisions.currentHeight →
          s.readKeys input = if input.keys = [] then .error "no value found for input key(s)"
            else .ok (input.keys.map fun key =>
              ⟨key, (stateAt (newStatePersistence calcSha256).fullState (inputs.map CommitStateDiffInput.block)
                input.blockHeight input.contractName key).getD []⟩))) := by
  refine ⟨fun added h contract key => ?_, @fun config inputs s committed input recent => ?_⟩
  · obtain ⟨evicted, rolled, -⟩ := Added.rolled rfl rfl added
    exact ⟨fun lower upper => rolled.getRevisionRecord lower upper contract key,
      fun above => getRevisionRecord_too_new above contract key,
      fun below => rolled.getRevisionRecord_too_old below contract key⟩
  · obtain ⟨added, tracked, sameConfig⟩ := Committed.added rfl committed
    obtain ⟨evicted, rolled, window⟩ := Added.rolled rfl rfl added
    have snapshots : s.revisions.transientRevisions = s.config.stateStorageHistorySnapshotNum.toNat := by
      rw [rolled.transientRevisions, sameConfig]
      rfl
    rw [← show s.config = config from sameConfig] at recent
    refine ⟨fun unnamed => if_pos unnamed, fun named future => ?_, fun named committed =>
      s.readKeys_committed rolled window tracked snapshots named (Nat.zero_le _) committed recent⟩
    obtain ⟨err, refused⟩ := s.admitBlockHeight_future "" (tracked ▸ future)
    unfold Service.readKeys
    rw [if_neg named, refused]
    exact ⟨_, rfl⟩

/-- Block 1 writes a record and block 2 deletes it, with one revision kept: block 1 is then
persisted, and the reads at heights 1 and 2 see the record and its deletion. The service,
keeping two snapshots, reads a key at height 1 before block 2 wrote it. -/
theorem state_reads_snapshot_correct_after_delete :
    (∃ ls, Added (fun bytes => bytes) (newRollingRevisions (newStatePersistence fun bytes => bytes) 1
          ⟨[createEmptyTrieNode fun bytes => bytes]⟩)
          [⟨1, 0, [], ChainState.empty.set [1] [2] [5]⟩, ⟨2, 0, [], ChainState.empty.set [1] [2] []⟩] ls ∧
        ls.getRevisionRecord 1 [1] [2] = .ok ([5], true) ∧ ls.getRevisionRecord 2 [1] [2] = .ok ([], false) ∧
        ∃ err, ls.getRevisionRecord 0 [1] [2] = .error err) ∧
    (∃ s, Committed (fun bytes => bytes) (newStateStorage (fun bytes => bytes) ⟨2, 0⟩ (newStatePersistence fun bytes => bytes))
          [⟨1, 0, [], [⟨[1], [⟨[2], [5]⟩]⟩]⟩, ⟨2, 0, [], [⟨[1], [⟨[3], [7]⟩]⟩]⟩] s ∧
        s.readKeys ⟨1, [1], [[2], [3]]⟩ = .ok [⟨[2], [5]⟩, ⟨[3], []⟩]) := by
  have run := @Added.next (fun bytes => bytes) (newRollingRevisions (newStatePersistence fun bytes => bytes) 1
      ⟨[createEmptyTrieNode fun bytes => bytes]⟩) [⟨1, 0, [], ChainState.empty.set [1] [2] [5]⟩] _ _
    ⟨2, 0, [], ChainState.empty.set [1] [2] []⟩
    (@Added.next _ _ [] _ _ ⟨1, 0, [], ChainState.empty.set [1] [2] [5]⟩ .start rfl rfl) rfl rfl
  have commits := @Committed.next (fun bytes => bytes)
    (newStateStorage (fun bytes => bytes) ⟨2, 0⟩ (newStatePersistence fun bytes => bytes))
    [⟨1, 0, [], [⟨[1], [⟨[2], [5]⟩]⟩]⟩] _ _ ⟨2, 0, [], [⟨[1], [⟨[3], [7]⟩]⟩]⟩
    (@Committed.next _ _ [] _ _ ⟨1, 0, [], [⟨[1], [⟨[2], [5]⟩]⟩]⟩ .start rfl rfl) rfl rfl
  have reads := state_reads_snapshot_correct.1 run
  have readKeys := (state_reads_snapshot_correct.2 commits ⟨1, [1], [[2], [3]]⟩ (by decide)).2.2 (by decide) (by decide)
  refine ⟨⟨_, run, ?_, ?_, (reads 0 [1] [2]).2.2 (by decide)⟩, ⟨_, commits, ?_⟩⟩
  · rw [(reads 1 [1] [2]).1 (by decide) (by decide)]
    decide
  · rw [(reads 2 [1] [2]).1 (by decide) (by decide)]
    decide
  · rw [readKeys]
    decide

/-- Over a persistence already at height 1 the block tracker still starts at 0, so `ReadKeys`
at height 1, inside the snapshot window, refuses the height the revisions answer. An empty
contract name and an empty key list are refused as well. -/
theorem readKeys_refuses_admitted_reads :
    (newStateStorage (fun bytes => bytes) ⟨1, 0⟩ { newStatePersistence (fun bytes => bytes) with height := 1 }).revisions.getRevisionRecord
        1 [1] [2] = .ok ([], false) ∧
      (newStateStorage (fun bytes => bytes) ⟨1, 0⟩ { newStatePersistence (fun bytes => bytes) with height := 1 }).readKeys
        ⟨1, [1], [[2]]⟩ =
          .error "unsupported block height: block 1 is not yet committed: requested future block outside of grace range" ∧
      (newStateStorage (fun bytes => bytes) ⟨1, 0⟩ (newStatePersistence fun bytes => bytes)).revisions.getRevisionRecord
        0 [] [2] = .ok ([], false) ∧
      (newStateStorage (fun bytes => bytes) ⟨1, 0⟩ (newStatePersistence fun bytes => bytes)).readKeys ⟨0, [], [[2]]⟩ =
        .error "missing contract name" ∧
      (newStateStorage (fun bytes => bytes) ⟨1, 0⟩ (newStatePersistence fun bytes => bytes)).readKeys ⟨0, [1], []⟩ =
        .error "no value found for input key(s)" := by
  refine ⟨rfl, ?_, rfl, rfl, rfl⟩
  decide

end Snapshots

end OrbsNetwork.StateStorage
