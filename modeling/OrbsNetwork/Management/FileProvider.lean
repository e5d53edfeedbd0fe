import OrbsNetwork.Merkle.Node
import Mathlib.Data.List.Sort
import Mathlib.Logic.Function.Basic

namespace OrbsNetwork.Management

/-- `topologyNode` of the management document. -/
structure TopologyNode where
  address : String
  ip : String
  port : Int
  deriving DecidableEq, Repr

/-- `committee` of the management document: the one field the parser reads. -/
structure CommitteeMember where
  orbsAddress : String
  deriving DecidableEq, Repr

/-- `committeeEvent`. -/
structure CommitteeEvent where
  refTime : UInt64
  committee : List CommitteeMember
  deriving DecidableEq, Repr

/-- `subscriptionEvent`, with the `Status` of its `Data`. -/
structure SubscriptionEvent where
  refTime : UInt64
  status : String
  deriving DecidableEq, Repr

/-- `protocolVersionEvent`, with the `Version` of its `Data`. -/
structure ProtocolVersionEvent where
  refTime : UInt64
  version : UInt64
  deriving DecidableEq, Repr

/-- `vc`: one virtual chain of the document. -/
structure Vc where
  currentTopology : List TopologyNode
  committeeEvents : List CommitteeEvent
  subscriptionEvents : List SubscriptionEvent
  protocolVersionEvents : List ProtocolVersionEvent
  deriving DecidableEq, Repr

/-- `mgmt`: the document as `json.Unmarshal` leaves it, its map of chains by their decimal id. -/
structure Mgmt where
  currentRefTime : UInt64
  virtualChains : String → Option Vc

/-- `gossipPeer`. -/
structure GossipPeer where
  gossipPort : Int
  gossipEndpoint : String
  hexOrbsAddress : String
  deriving DecidableEq, Repr

/-- `NewGossipPeer`. -/
def newGossipPeer (gossipPort : Int) (gossipEndpoint hexAddress : String) : GossipPeer :=
  ⟨gossipPort, gossipEndpoint, hexAddress⟩

/-- `GossipPeers`, keyed by the node address: a nil map reads as the empty one. -/
abbrev GossipPeers := Bytes → Option GossipPeer

/-- `CommitteeTerm`. -/
structure CommitteeTerm where
  asOfReference : UInt64
  committee : List Bytes
  deriving DecidableEq, Repr

/-- `SubscriptionTerm`. -/
structure SubscriptionTerm where
  asOfReference : UInt64
  isActive : Bool
  deriving DecidableEq, Repr

/-- `ProtocolVersionTerm`. -/
structure ProtocolVersionTerm where
  asOfReference : UInt64
  version : UInt64
  deriving DecidableEq, Repr

/-- `VirtualChainManagementData`. -/
structure VirtualChainManagementData where
  currentReference : UInt64
  topology : GossipPeers
  committees : List CommitteeTerm
  subscriptions : List SubscriptionTerm
  protocolVersions : List ProtocolVersionTerm

/-- `errors.Wrapf`: `nil` stays `nil`, an error gets the message in front of its own. -/
def wrapf (err : Option String) (message : String) : Option String :=
  err.map fun err => s!"{message}: {err}"

/-- `sort.SliceStable` with the order `less`, as a stable sort: an element goes before the first
one it is not after. -/
def sliceStable {α : Type} (less : α → α → Bool) (xs : List α) : List α :=
  xs.insertionSort fun a b => less b a = false

/-- `bytes.Compare`. -/
def bytesCompare : Bytes → Bytes → Ordering
  | [], [] => .eq
  | [], _ :: _ => .lt
  | _ :: _, [] => .gt
  | a :: as, b :: bs => if a < b then .lt else if b < a then .gt else bytesCompare as bs

/-- `%s` of a byte slice: its bytes as text. A Lean string holds only UTF-8, so bytes that are not
UTF-8 text stand each as the character of its value. -/
def bytesString (bytes : Bytes) : String :=
  match String.fromUTF8? ⟨bytes.toArray⟩ with
  | some text => text
  | none => String.ofList (bytes.map fun byte => Char.ofNat byte.toNat)

section Parsing

-- `hex.DecodeString`, with the bytes it decoded and its error, and `net.ParseIP`, whose `nil` is
-- `none`
variable (decodeString : String → Bytes × Option String) (parseIP : String → Option Bytes)

/-- `parseTopology`: each node's address decoded, its IP and port checked. The two later checks
wrap the `err` of the first branch, which is `nil` there. -/
def parseTopology : List TopologyNode → GossipPeers → GossipPeers × Option String
  | [], topology => (topology, none)
  | item :: later, topology =>
    let hexAddress := item.address
    let (nodeAddress, err) := decodeString hexAddress
    if err.isSome then (fun _ => none, wrapf err s!"cannot translate topology node address from hex {hexAddress}")
    else if parseIP item.ip = none then
      (fun _ => none, wrapf err s!"topology node ip {item.ip} is not valid")
    else if item.port < 1024 ∨ item.port > 65535 then
      (fun _ => none, wrapf err s!"topology node port {item.port} needs to be 1024-65535 range")
    else parseTopology later (Function.update topology nodeAddress (some (newGossipPeer item.port item.ip hexAddress)))

/-- The addresses of one committee event, decoded in order. The error prints the bytes the decoding
returned, not the text it decoded, as the source does. -/
def parseCommitteeMembers : List CommitteeMember → Except String (List Bytes)
  | [] => .ok []
  | nodeAddress :: later =>
    match decodeString nodeAddress.orbsAddress with
    | (address, some err) => .error s!"cannot decode committee node address hex {bytesString address}: {err}"
    | (address, none) =>
      match parseCommitteeMembers later with
      | .error err => .error err
      | .ok committee => .ok (address :: committee)

/-- `parseCommittees`: each event's committee sorted by descending address, then the terms
sorted by reference. -/
def parseCommittees (committeeEvents : List CommitteeEvent) : Except String (List CommitteeTerm) :=
  let terms := committeeEvents.mapM fun event =>
    (parseCommitteeMembers decodeString event.committee).map fun committee =>
      (⟨event.refTime, sliceStable (fun a b => bytesCompare a b == .gt) committee⟩ : CommitteeTerm)
  terms.map (sliceStable fun a b => decide (a.asOfReference < b.asOfReference))

end Parsing

/-- `parseSubscription`: refused when there are no events. -/
def parseSubscription (subscriptionEvents : List SubscriptionEvent) : Except String (List SubscriptionTerm) :=
  if subscriptionEvents.length = 0 then .error "cannot start virtual chain with no subscription data."
  else
    let subscriptionPeriods := subscriptionEvents.map fun event =>
      (⟨event.refTime, event.status = "active"⟩ : SubscriptionTerm)
    .ok (sliceStable (fun a b => decide (a.asOfReference < b.asOfReference)) subscriptionPeriods)

/-- `parseProtocolVersion`: version 1 from reference 0 when there are no events. -/
def parseProtocolVersion (protocolVersionEvents : List ProtocolVersionEvent) : List ProtocolVersionTerm :=
  let protocolVersionPeriods := sliceStable (fun a b => decide (a.asOfReference < b.asOfReference))
    (protocolVersionEvents.map fun event => (⟨event.refTime, event.version⟩ : ProtocolVersionTerm))
  if protocolVersionPeriods.length = 0 then [⟨0, 1⟩] else protocolVersionPeriods

section Parsing

variable (decodeString : String → Bytes × Option String) (parseIP : String → Option Bytes)

/-- `parseData` of the unmarshalled document, for the configured virtual chain. -/
def parseData (virtualChainId : Nat) (data : Mgmt) : Except String VirtualChainManagementData :=
  match data.virtualChains (toString virtualChainId) with
  | none => .error "could not find current vc in data"
  | some vcData =>
    match parseTopology decodeString parseIP vcData.currentTopology (fun _ => none) with
    | (_, some err) => .error err
    | (topology, none) =>
      match parseCommittees decodeString vcData.committeeEvents with
      | .error err => .error err
      | .ok committeeTerms =>
        match parseSubscription vcData.subscriptionEvents with
        | .error err => .error err
        | .ok subscriptions =>
          .ok ⟨data.currentRefTime, topology, committeeTerms, subscriptions,
            parseProtocolVersion vcData.protocolVersionEvents⟩

end Parsing

end OrbsNetwork.Management
