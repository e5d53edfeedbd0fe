import OrbsNetwork.Elections.Rewards
import OrbsNetwork.Elections.VoteCount

namespace OrbsNetwork.Elections

open CheckedArith

namespace State

variable (s : State)

/-- The divisor of `_annualFactorize`: the number of elections in a year. -/
def annualFactor : UInt64 :=
  if s.timeBased then ANNUAL_TO_ELECTION_FACTOR_TIMEBASED else ANNUAL_TO_ELECTION_FACTOR_BLOCKBASED

section Arithmetic

theorem annualFactorize_eq (input : UInt64) : s.annualFactorize input = some (input / s.annualFactor) := by
  unfold annualFactorize annualFactor
  split_ifs <;> rfl

/-- `_maxRewardForGroup` when the percentage of the votes fits in 64 bits. -/
theorem maxRewardForGroup_eq {upperMaximum totalVotes percent : UInt64}
    (upperFits : upperMaximum.toNat * (100 : UInt64).toNat < 2 ^ 64) (votesFit : totalVotes.toNat * percent.toNat < 2 ^ 64) :
    s.maxRewardForGroup upperMaximum totalVotes percent =
      some (if totalVotes * percent / s.annualFactor < upperMaximum * 100 / s.annualFactor
        then totalVotes * percent / s.annualFactor else upperMaximum * 100 / s.annualFactor) := by
  have upper : mul upperMaximum 100 = some (upperMaximum * 100) := if_pos upperFits
  have votes : mul totalVotes percent = some (totalVotes * percent) := if_pos votesFit
  simp only [maxRewardForGroup, upper, votes, annualFactorize_eq, Option.bind_eq_bind, Option.bind_some,
    Option.pure_def]

/-- With no votes, the participants' reward is zero. -/
theorem maxRewardForGroup_participation_zero :
    s.maxRewardForGroup ELECTION_PARTICIPATION_MAX_REWARD 0 ELECTION_PARTICIPATION_MAX_STAKE_REWARD_PERCENT = some 0 := by
  rw [maxRewardForGroup_eq s (by decide) (by decide), annualFactor]
  cases s.timeBased <;> decide

end Arithmetic

section ZeroTotal

/-- With no votes, the first participant's share divides by zero: `_processRewardsParticipants`
panics as soon as there is a participant. -/
theorem processRewardsParticipants_zero_total {participants : List Address} (someone : participants ≠ [])
    (participantStakes : Address → Option UInt64) :
    s.processRewardsParticipants 0 participants participantStakes = none := by
  obtain ⟨first, later, rfl⟩ := List.exists_cons_of_ne_nil someone
  have share : s.rewardParticipant 0 0 participantStakes first = none := by
    have product : mul ((participantStakes first).getD 0) 0 = some 0 := by
      rw [mul_eq_some_iff, UInt64.toNat_zero, Nat.mul_zero]
      exact ⟨by decide, rfl⟩
    simp only [rewardParticipant, product, Option.bind_eq_bind, Option.bind_some, div_zero, Option.bind_none]
  simp only [processRewardsParticipants, maxRewardForGroup_participation_zero, Option.bind_eq_bind, Option.bind_some,
    List.foldlM_cons, share, Option.bind_none]

theorem processRewards_zero_total (elected : List Address) {participants : List Address} (someone : participants ≠ [])
    (participantStakes : Address → Option UInt64) (guardiansAccumulatedStake : OrderedMap Address UInt64) :
    s.processRewards 0 elected participants participantStakes guardiansAccumulatedStake = none := by
  simp only [processRewards, processRewardsParticipants_zero_total s someone, Option.bind_eq_bind, Option.bind_none]

variable {s}

theorem candidateVote_eq_zero (zero : s.totalVote = 0) (c : Address) : s.candidateVote c = 0 := by
  refine List.sum_eq_zero fun n member => ?_
  obtain ⟨g, voting, rfl⟩ := List.mem_map.mp member
  have none := voteOf_le_totalVote voting
  rw [zero, Nat.le_zero] at none
  rw [none, Nat.mul_zero]

/-- When some guardian votes and every stake that counts is zero, `_calculateVotes` returns no
votes and at least one participant. -/
theorem calculateVotes_zero_tally (voting : s.votingGuardians ≠ []) (zero : s.totalVote = 0) :
    ∃ s', calculateVotes s = some (s.tallied, s') ∧ s.tallied.totalVotes = 0 ∧ s.tallied.participants ≠ [] := by
  have fits : s.totalVote < 2 ^ 64 ∧ ∀ c, s.candidateVote c < 2 ^ 64 :=
    ⟨by rw [zero]; decide, fun c => by rw [candidateVote_eq_zero zero c]; decide⟩
  obtain ⟨g, member⟩ := List.exists_mem_of_ne_nil _ voting
  have total : s.tallied.totalVotes = 0 := by
    show UInt64.ofNat _ = 0
    rw [sum_accumulated_votingGuardians, zero]
    rfl
  have someone : s.tallied.participants ≠ [] := List.ne_nil_of_mem (mem_tallied_participants.mpr (.inl member))
  exact ⟨_, calculateVotes_eq (tallyFits_votingGuardians fits), total, someone⟩

/-- When some guardian votes and every stake that counts is zero, `_calculateVotes` returns no
votes and at least one participant, and `_processRewards` then divides by zero. -/
theorem processRewards_panics_after_zero_tally (voting : s.votingGuardians ≠ []) (zero : s.totalVote = 0)
    (elected : List Address) :
    ∃ votes s', calculateVotes s = some (votes, s') ∧ votes.totalVotes = 0 ∧ votes.participants ≠ [] ∧
      s'.processRewards votes.totalVotes elected votes.participants votes.participantStakes
        votes.guardiansAccumulatedStakes = none := by
  obtain ⟨s', tallied, total, someone⟩ := calculateVotes_zero_tally voting zero
  refine ⟨s.tallied, s', tallied, total, someone, ?_⟩
  rw [total]
  exact processRewards_zero_total _ elected someone _ _

theorem processRewards_panics_after_zero_tally_soleGuardian :
    (soleGuardian (Vector.replicate 20 1) 0 []).votingGuardians ≠ [] ∧ (soleGuardian (Vector.replicate 20 1) 0 []).totalVote = 0 ∧
      ∃ votes s', calculateVotes (soleGuardian (Vector.replicate 20 1) 0 []) = some (votes, s') ∧ votes.totalVotes = 0 ∧
        votes.participants ≠ [] ∧
        s'.processRewards votes.totalVotes [] votes.participants votes.participantStakes votes.guardiansAccumulatedStakes =
          none := by
  have voting : (soleGuardian (Vector.replicate 20 1) 0 []).votingGuardians ≠ [] := by decide
  have zero : (soleGuardian (Vector.replicate 20 1) 0 []).totalVote = 0 := by
    simp [totalVote, votingGuardians, voteOf, delegatorList, getNumberOfDelegators, soleGuardian, initial, guardianList,
      getNumberOfGuardians]
  exact ⟨voting, zero, processRewards_panics_after_zero_tally voting zero []⟩

end ZeroTotal

end State

end OrbsNetwork.Elections
