import OrbsNetwork.Management.Service
import OrbsNetwork.Library.FunctionUpdate
import Mathlib.Data.List.Induction

namespace OrbsNetwork.Management

section Lookup

variable {α : Type} (asOfReference : α → UInt64) (reference : UInt64)

/-- The term in force at `reference`: the last that starts at or before it, or the first when
`reference` precedes them all. -/
def inForce (terms : List α) : Option α :=
  match (terms.filter fun term => asOfReference term ≤ reference).getLast? with
  | some term => some term
  | none => terms.head?

theorem scanBack_le (f : Nat → UInt64) (i : Nat) : scanBack f reference i ≤ i := by
  induction i with
  | zero => rfl
  | succ i ih =>
    rw [scanBack]
    split_ifs <;> omega

theorem scanBack_congr {f g : Nat → UInt64} {i : Nat} (agree : ∀ k ≤ i, f k = g k) :
    scanBack f reference i = scanBack g reference i := by
  induction i with
  | zero => rfl
  | succ i ih =>
    rw [scanBack, scanBack, agree (i + 1) (Nat.le_refl _), ih fun k below => agree k (by omega)]

/-- A term put after the others is the one found when it is in force or the only one; otherwise
the lookup goes on among the others. -/
theorem termAt_append_singleton (terms : List α) (x : α) :
    termAt asOfReference (terms ++ [x]) reference =
      if asOfReference x ≤ reference ∨ terms = [] then some x else termAt asOfReference terms reference := by
  unfold termAt
  rw [List.length_append, List.length_singleton]
  dsimp only
  cases length : terms.length with
  | zero =>
    rw [List.eq_nil_of_length_eq_zero length]
    simp [scanBack]
  | succ m =>
    have nonempty : terms ≠ [] := List.ne_nil_of_length_pos (by omega)
    have atLast : ((terms ++ [x])[m + 1]?.map asOfReference).getD 0 = asOfReference x := by
      rw [List.getElem?_append_right (by omega), length, Nat.sub_self]
      rfl
    rw [scanBack, atLast]
    split_ifs with later inForce inForce
    · exact absurd (UInt64.not_lt.mpr (inForce.resolve_right nonempty)) (not_not.mpr later)
    · have agree : ∀ k ≤ m, ((terms ++ [x])[k]?.map asOfReference).getD 0 = (terms[k]?.map asOfReference).getD 0 :=
        fun k below => by rw [List.getElem?_append_left (by omega)]
      have within := scanBack_le reference (fun k => (terms[k]?.map asOfReference).getD 0) m
      rw [scanBack_congr reference agree, List.getElem?_append_left (by omega)]
    · rw [List.getElem?_append_right (by omega), length, Nat.sub_self]
      rfl
    · exact absurd (.inl (UInt64.not_lt.mp later)) inForce

theorem inForce_append_singleton (terms : List α) (x : α) :
    inForce asOfReference reference (terms ++ [x]) =
      if asOfReference x ≤ reference ∨ terms = [] then some x else inForce asOfReference reference terms := by
  unfold inForce
  rw [List.filter_append]
  by_cases later : asOfReference x ≤ reference
  · simp [later]
  · by_cases empty : terms = []
    · simp [later, empty]
    · obtain ⟨first, others, rfl⟩ := List.exists_cons_of_ne_nil empty
      simp [later]

/-- The getters' backward scan finds the term in force, whatever the order of the terms. -/
theorem termAt_eq_inForce (terms : List α) :
    termAt asOfReference terms reference = inForce asOfReference reference terms := by
  induction terms using List.reverseRecOn with
  | nil => rfl
  | append_singleton terms x ih =>
    rw [termAt_append_singleton, inForce_append_singleton, ih]

theorem inForce_ne_none_iff (terms : List α) :
    inForce asOfReference reference terms ≠ none ↔ terms ≠ [] := by
  unfold inForce
  split
  · rename_i found
    have nonempty : terms.filter (fun term => asOfReference term ≤ reference) ≠ [] := by
      intro empty
      rw [empty] at found
      cases found
    exact ⟨fun _ empty => nonempty (by rw [empty]; rfl), fun _ => Option.some_ne_none _⟩
  · cases terms with
    | nil => simp
    | cons first others => simp

end Lookup

section Sorting

variable {α : Type}

/-- A stable sort by a key's `<` leaves the key non-decreasing. -/
theorem sliceStable_sorted (key : α → UInt64) (xs : List α) :
    (sliceStable (fun a b => decide (key a < key b)) xs).Pairwise fun a b => key a ≤ key b := by
  have total : Std.Total fun a b : α => decide (key b < key a) = false :=
    ⟨fun a b => by simpa only [decide_eq_false_iff_not, UInt64.not_lt] using UInt64.le_total (key a) (key b)⟩
  have trans : IsTrans α fun a b => decide (key b < key a) = false :=
    ⟨fun a b c first second => by
      simp only [decide_eq_false_iff_not, UInt64.not_lt] at first second ⊢
      exact UInt64.le_trans first second⟩
  have sorted := List.pairwise_insertionSort (fun a b : α => decide (key b < key a) = false) xs
  exact sorted.imp fun ordered => by simpa only [decide_eq_false_iff_not, UInt64.not_lt] using ordered

theorem length_sliceStable (less : α → α → Bool) (xs : List α) : (sliceStable less xs).length = xs.length :=
  List.length_insertionSort _ xs

end Sorting

section Topology

variable (decodeString : String → Bytes × Option String) (parseIP : String → Option Bytes)

/-- A node `parseTopology` takes: its address decodes, its IP parses and its port is in range. -/
structure NodeValid (node : TopologyNode) : Prop where
  hex : (decodeString node.address).2 = none
  ip : parseIP node.ip ≠ none
  port : 1024 ≤ node.port ∧ node.port ≤ 65535

/-- The peer a valid node adds, at its decoded address. -/
def addPeer (topology : GossipPeers) (node : TopologyNode) : GossipPeers :=
  Function.update topology (decodeString node.address).1 (some (newGossipPeer node.port node.ip node.address))

variable {decodeString parseIP}

theorem parseTopology_cons_of_valid {node : TopologyNode} (valid : NodeValid decodeString parseIP node)
    (later : List TopologyNode) (topology : GossipPeers) :
    parseTopology decodeString parseIP (node :: later) topology =
      parseTopology decodeString parseIP later (addPeer decodeString topology node) := by
  have inRange : ¬(node.port < 1024 ∨ node.port > 65535) := by
    have := valid.port
    omega
  rw [parseTopology]
  simp only [valid.hex, Option.isSome_none, Bool.false_eq_true, if_false, if_neg valid.ip, if_neg inRange]
  rfl

/-- A node whose address does not decode ends the parse with the wrapped error. -/
theorem parseTopology_cons_of_hex {node : TopologyNode} {err : String} (bad : (decodeString node.address).2 = some err)
    (later : List TopologyNode) (topology : GossipPeers) :
    parseTopology decodeString parseIP (node :: later) topology =
      (fun _ => none, some s!"cannot translate topology node address from hex {node.address}: {err}") := by
  rw [parseTopology]
  simp only [bad, Option.isSome_some, if_true]
  rfl

/-- A node whose address decodes but whose IP or port is refused ends the parse with no error:
`errors.Wrapf` of the `nil` error of the address is `nil`. -/
theorem parseTopology_cons_of_ip_or_port {node : TopologyNode} (hex : (decodeString node.address).2 = none)
    (refused : parseIP node.ip = none ∨ node.port < 1024 ∨ node.port > 65535) (later : List TopologyNode)
    (topology : GossipPeers) :
    parseTopology decodeString parseIP (node :: later) topology = (fun _ => none, none) := by
  rw [parseTopology]
  simp only [hex, Option.isSome_none, Bool.false_eq_true, if_false]
  by_cases noIp : parseIP node.ip = none
  · rw [if_pos noIp]
    rfl
  · rw [if_neg noIp, if_pos (refused.resolve_left noIp)]
    rfl

/-- Over valid nodes the parse adds each node's peer in order and reports no error. -/
theorem parseTopology_of_valid {nodes : List TopologyNode} (valid : ∀ node ∈ nodes, NodeValid decodeString parseIP node)
    (topology : GossipPeers) :
    parseTopology decodeString parseIP nodes topology = (nodes.foldl (addPeer decodeString) topology, none) := by
  induction nodes generalizing topology with
  | nil => rfl
  | cons node later ih =>
    rw [parseTopology_cons_of_valid (valid node List.mem_cons_self), ih fun other member =>
      valid other (List.mem_cons_of_mem _ member), List.foldl_cons]

/-- Over valid nodes every node has a peer at its address. -/
theorem parseTopology_peer {nodes : List TopologyNode} (valid : ∀ node ∈ nodes, NodeValid decodeString parseIP node)
    {node : TopologyNode} (member : node ∈ nodes) :
    (parseTopology decodeString parseIP nodes fun _ => none).1 (decodeString node.address).1 ≠ none := by
  rw [parseTopology_of_valid valid]
  exact Function.foldl_update_some_ne_none (fun node => (decodeString node.address).1)
    (fun node => newGossipPeer node.port node.ip node.address) _ member

end Topology

section Terms

variable (decodeString : String → Bytes × Option String)

theorem parseCommittees_sorted {committeeEvents : List CommitteeEvent} {terms : List CommitteeTerm}
    (parsed : parseCommittees decodeString committeeEvents = .ok terms) :
    terms.Pairwise fun a b => a.asOfReference ≤ b.asOfReference := by
  unfold parseCommittees at parsed
  dsimp only at parsed
  cases decoded : committeeEvents.mapM fun event =>
      (parseCommitteeMembers decodeString event.committee).map fun committee =>
        (⟨event.refTime, sliceStable (fun a b => bytesCompare a b == .gt) committee⟩ : CommitteeTerm) with
  | error err =>
    rw [decoded] at parsed
    cases parsed
  | ok unsorted =>
    rw [decoded] at parsed
    rw [← Except.ok.inj parsed]
    exact sliceStable_sorted CommitteeTerm.asOfReference unsorted

/-- A committee address that does not decode makes the event's parse fail. -/
theorem parseCommitteeMembers_error {members : List CommitteeMember} {member : CommitteeMember}
    (within : member ∈ members) {err : String} (bad : (decodeString member.orbsAddress).2 = some err) :
    ∃ message, parseCommitteeMembers decodeString members = .error message := by
  induction members with
  | nil => exact absurd within List.not_mem_nil
  | cons first later ih =>
    rw [parseCommitteeMembers]
    cases decoded : decodeString first.orbsAddress with
    | mk address result =>
      cases result with
      | some err' => exact ⟨_, rfl⟩
      | none =>
        have other : member ∈ later := by
          rcases List.mem_cons.mp within with same | other
          · rw [same, decoded] at bad
            cases bad
          · exact other
        obtain ⟨message, failed⟩ := ih other
        exact ⟨message, by rw [failed]⟩

/-- A committee address that does not decode, in any event, makes the whole parse fail. -/
theorem parseCommittees_error {committeeEvents : List CommitteeEvent} {event : CommitteeEvent}
    (within : event ∈ committeeEvents) {member : CommitteeMember} (inEvent : member ∈ event.committee) {err : String}
    (bad : (decodeString member.orbsAddress).2 = some err) :
    ∃ message, parseCommittees decodeString committeeEvents = .error message := by
  unfold parseCommittees
  dsimp only
  suffices failed : ∃ message, (committeeEvents.mapM fun event =>
      (parseCommitteeMembers decodeString event.committee).map fun committee =>
        (⟨event.refTime, sliceStable (fun a b => bytesCompare a b == .gt) committee⟩ : CommitteeTerm)) =
      .error message by
    obtain ⟨message, failed⟩ := failed
    exact ⟨message, by rw [failed]; rfl⟩
  induction committeeEvents with
  | nil => exact absurd within List.not_mem_nil
  | cons first later ih =>
    rw [List.mapM_cons]
    by_cases here : event = first
    · subst here
      obtain ⟨message, refused⟩ := parseCommitteeMembers_error decodeString inEvent bad
      exact ⟨message, by rw [refused]; rfl⟩
    · cases parsedFirst : parseCommitteeMembers decodeString first.committee with
      | error message => exact ⟨message, rfl⟩
      | ok committee =>
        obtain ⟨message, refused⟩ := ih ((List.mem_cons.mp within).resolve_left here)
        exact ⟨message, by rw [refused]; rfl⟩

theorem parseSubscription_accepted {subscriptionEvents : List SubscriptionEvent} {terms : List SubscriptionTerm}
    (parsed : parseSubscription subscriptionEvents = .ok terms) :
    terms ≠ [] ∧ terms.Pairwise fun a b => a.asOfReference ≤ b.asOfReference := by
  unfold parseSubscription at parsed
  split_ifs at parsed with empty
  simp only [Except.ok.injEq] at parsed
  rw [← parsed]
  refine ⟨fun none => empty ?_, sliceStable_sorted SubscriptionTerm.asOfReference _⟩
  have := congrArg List.length none
  rw [length_sliceStable, List.length_map] at this
  exact this

theorem parseProtocolVersion_accepted (protocolVersionEvents : List ProtocolVersionEvent) :
    parseProtocolVersion protocolVersionEvents ≠ [] ∧
      (parseProtocolVersion protocolVersionEvents).Pairwise fun a b => a.asOfReference ≤ b.asOfReference := by
  unfold parseProtocolVersion
  dsimp only
  split_ifs with empty
  · exact ⟨List.cons_ne_nil _ _, List.pairwise_singleton _ _⟩
  · exact ⟨fun none => empty (by rw [none]; rfl), sliceStable_sorted ProtocolVersionTerm.asOfReference _⟩

end Terms

section Data

variable (decodeString : String → Bytes × Option String) (parseIP : String → Option Bytes)

/-- What every document `parseData` accepts leaves in the data: the terms in reference order, and
at least one term of subscription and of protocol version. -/
structure Accepted (data : VirtualChainManagementData) : Prop where
  committeesSorted : data.committees.Pairwise fun a b => a.asOfReference ≤ b.asOfReference
  subscriptionsSorted : data.subscriptions.Pairwise fun a b => a.asOfReference ≤ b.asOfReference
  subscriptionsNonempty : data.subscriptions ≠ []
  protocolVersionsSorted : data.protocolVersions.Pairwise fun a b => a.asOfReference ≤ b.asOfReference
  protocolVersionsNonempty : data.protocolVersions ≠ []

variable {decodeString parseIP}

theorem parseData_of_missing {virtualChainId : Nat} {doc : Mgmt}
    (missing : doc.virtualChains (toString virtualChainId) = none) :
    parseData decodeString parseIP virtualChainId doc = .error "could not find current vc in data" := by
  rw [parseData, missing]

theorem parseData_accepted {virtualChainId : Nat} {doc : Mgmt} {data : VirtualChainManagementData}
    (parsed : parseData decodeString parseIP virtualChainId doc = .ok data) : Accepted data := by
  unfold parseData at parsed
  split at parsed
  · cases parsed
  split at parsed
  · cases parsed
  split at parsed
  · cases parsed
  rename_i committees
  split at parsed
  · cases parsed
  rename_i subscriptionsParsed
  cases parsed
  obtain ⟨nonempty, sorted⟩ := parseSubscription_accepted subscriptionsParsed
  obtain ⟨versionsNonempty, versionsSorted⟩ := parseProtocolVersion_accepted _
  exact ⟨parseCommittees_sorted decodeString committees, sorted, nonempty, versionsSorted, versionsNonempty⟩

/-- A document whose chain has a first node with an address that decodes and an IP or port that
is refused is accepted, with whatever its later nodes hold and with an empty topology, as long as
its committees and subscriptions parse. -/
theorem parseData_of_ip_or_port {virtualChainId : Nat} {doc : Mgmt} {vcData : Vc} {node : TopologyNode}
    {later : List TopologyNode} (found : doc.virtualChains (toString virtualChainId) = some vcData)
    (first : vcData.currentTopology = node :: later) (hex : (decodeString node.address).2 = none)
    (refused : parseIP node.ip = none ∨ node.port < 1024 ∨ node.port > 65535) {committeeTerms : List CommitteeTerm}
    (committees : parseCommittees decodeString vcData.committeeEvents = .ok committeeTerms)
    {subscriptions : List SubscriptionTerm} (subscribed : parseSubscription vcData.subscriptionEvents = .ok subscriptions) :
    parseData decodeString parseIP virtualChainId doc =
      .ok ⟨doc.currentRefTime, fun _ => none, committeeTerms, subscriptions,
        parseProtocolVersion vcData.protocolVersionEvents⟩ := by
  rw [parseData, found]
  dsimp only
  rw [first, parseTopology_cons_of_ip_or_port hex refused]
  dsimp only
  rw [committees]
  dsimp only
  rw [subscribed]

end Data

section Runs

variable (decodeString : String → Bytes × Option String) (parseIP : String → Option Bytes) (virtualChainId : Nat)

/-- The services `NewManagement` and its polling loop reach when every answer of the provider is
`parseData` of some document. -/
inductive Reachable : Service → Prop
  | new {doc : Mgmt} {data : VirtualChainManagementData} :
      parseData decodeString parseIP virtualChainId doc = .ok data → Reachable ⟨data⟩
  | update {s : Service} (doc : Mgmt) :
      Reachable s → Reachable (s.update (parseData decodeString parseIP virtualChainId doc)).1

variable {decodeString parseIP virtualChainId}

theorem newManagement_reachable {doc : Mgmt} {s : Service}
    (started : newManagement (parseData decodeString parseIP virtualChainId doc) = some s) :
    Reachable decodeString parseIP virtualChainId s := by
  unfold newManagement at started
  split at started
  · cases started
  · rename_i parsed
    cases started
    exact .new parsed

theorem afterUpdates_reachable {s : Service} (reach : Reachable decodeString parseIP virtualChainId s)
    (docs : List Mgmt) :
    Reachable decodeString parseIP virtualChainId (s.afterUpdates (docs.map (parseData decodeString parseIP virtualChainId))) := by
  induction docs generalizing s with
  | nil => exact reach
  | cons doc docs ih => exact ih (.update doc reach)

/-- Every service the loop reaches holds accepted data: a refused answer leaves the data alone. -/
theorem Reachable.accepted {s : Service} (reach : Reachable decodeString parseIP virtualChainId s) :
    Accepted s.data := by
  induction reach with
  | new parsed => exact parseData_accepted parsed
  | @update s doc _ ih =>
    cases parsed : parseData decodeString parseIP virtualChainId doc with
    | error err => simpa [Service.update, parsed] using ih
    | ok data => simpa [Service.update, parsed] using parseData_accepted parsed

/-- From every reachable service the subscription and protocol-version lookups find the term in
force and never index out of range; the committee lookup finds the term in force, and panics
exactly when the document had no committee events. -/
theorem Reachable.lookups {s : Service} (reach : Reachable decodeString parseIP virtualChainId s) (reference : UInt64) :
    s.getCommittee reference = (inForce CommitteeTerm.asOfReference reference s.data.committees).map CommitteeTerm.committee ∧
      (s.getCommittee reference = none ↔ s.data.committees = []) ∧
      s.getSubscriptionStatus reference =
        (inForce SubscriptionTerm.asOfReference reference s.data.subscriptions).map SubscriptionTerm.isActive ∧
      s.getSubscriptionStatus reference ≠ none ∧
      s.getProtocolVersion reference =
        (inForce ProtocolVersionTerm.asOfReference reference s.data.protocolVersions).map ProtocolVersionTerm.version ∧
      s.getProtocolVersion reference ≠ none := by
  have accepted := reach.accepted
  have committee : s.getCommittee reference =
      (inForce CommitteeTerm.asOfReference reference s.data.committees).map CommitteeTerm.committee := by
    rw [Service.getCommittee, termAt_eq_inForce]
  have subscription : s.getSubscriptionStatus reference =
      (inForce SubscriptionTerm.asOfReference reference s.data.subscriptions).map SubscriptionTerm.isActive := by
    rw [Service.getSubscriptionStatus, termAt_eq_inForce]
  have version : s.getProtocolVersion reference =
      (inForce ProtocolVersionTerm.asOfReference reference s.data.protocolVersions).map ProtocolVersionTerm.version := by
    rw [Service.getProtocolVersion, termAt_eq_inForce]
  refine ⟨committee, ?_, subscription, ?_, version, ?_⟩
  · rw [committee, Option.map_eq_none_iff]
    exact not_iff_not.mp (inForce_ne_none_iff _ _ _)
  · rw [subscription, ne_eq, Option.map_eq_none_iff]
    exact (inForce_ne_none_iff _ _ _).mpr accepted.subscriptionsNonempty
  · rw [version, ne_eq, Option.map_eq_none_iff]
    exact (inForce_ne_none_iff _ _ _).mpr accepted.protocolVersionsNonempty

/-- A document that should be refused is accepted, and its service panics. Its chain `42` lists
one node whose address `a1` decodes and whose IP `not-an-ip` `net.ParseIP` refuses, has no
committee events and one active subscription. `parseData` returns data with no error, with no
peer at the node's address, and the service built from it panics in `GetCommittee` at every
reference. The decoder and the IP parser here answer on these inputs as `hex.DecodeString` and
`net.ParseIP` do. -/
theorem parseData_accepts_refused_ip :
    ∃ data, parseData (fun text => if text = "a1" then ([0xa1], none) else ([], some "encoding/hex: invalid byte"))
        (fun text => if text = "10.0.0.1" then some [10, 0, 0, 1] else none) 42
        ⟨7, fun id => if id = "42" then some ⟨[⟨"a1", "not-an-ip", 4400⟩], [], [⟨0, "active"⟩], []⟩ else none⟩ =
        .ok data ∧
      data.topology [0xa1] = none ∧ ∀ reference, (⟨data⟩ : Service).getCommittee reference = none :=
  ⟨⟨7, fun _ => none, [], [⟨0, true⟩], [⟨0, 1⟩]⟩, rfl, rfl, fun _ => rfl⟩

end Runs

end OrbsNetwork.Management
