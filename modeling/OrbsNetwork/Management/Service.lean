import OrbsNetwork.Management.FileProvider

namespace OrbsNetwork.Management

/-- The loop `for ; i > 0 && reference < terms[i].AsOfReference; i-- {}` of the getters, from `i`. -/
def scanBack (asOfReference : Nat → UInt64) (reference : UInt64) : Nat → Nat
  | 0 => 0
  | i + 1 => if reference < asOfReference (i + 1) then scanBack asOfReference reference i else i + 1

/-- The getters' lookup: the term the scan from the last index stops at. With no terms the index
is `-1` and the lookup panics, which is `none`. -/
def termAt {α : Type} (asOfReference : α → UInt64) (terms : List α) (reference : UInt64) : Option α :=
  match terms.length with
  | 0 => none
  | last + 1 => terms[scanBack (fun i => (terms[i]?.map asOfReference).getD 0) reference last]?

/-- `Service` with the data it last took from its provider. -/
structure Service where
  data : VirtualChainManagementData

namespace Service

def getCurrentReference (s : Service) : UInt64 :=
  s.data.currentReference

def getTopology (s : Service) : GossipPeers :=
  s.data.topology

def getCommittee (s : Service) (reference : UInt64) : Option (List Bytes) :=
  (termAt CommitteeTerm.asOfReference s.data.committees reference).map CommitteeTerm.committee

def getSubscriptionStatus (s : Service) (reference : UInt64) : Option Bool :=
  (termAt SubscriptionTerm.asOfReference s.data.subscriptions reference).map SubscriptionTerm.isActive

def getProtocolVersion (s : Service) (reference : UInt64) : Option UInt64 :=
  (termAt ProtocolVersionTerm.asOfReference s.data.protocolVersions reference).map ProtocolVersionTerm.version

/-- `update` with the provider's answer: new data replaces the old and its topology goes to the
consumer; an error leaves the service as it was. The service, the result, and what the consumer
was given. -/
def update (s : Service) (got : Except String VirtualChainManagementData) :
    Service × Except String Unit × Option GossipPeers :=
  match got with
  | .error err => (s, .error err, none)
  | .ok data => (⟨data⟩, .ok (), some data.topology)

/-- The polling loop over the provider's answers. -/
def afterUpdates (s : Service) (answers : List (Except String VirtualChainManagementData)) : Service :=
  answers.foldl (fun s got => (s.update got).1) s

end Service

/-- `NewManagement` with the provider's first answer: it panics, `none`, when that fails. -/
def newManagement (got : Except String VirtualChainManagementData) : Option Service :=
  match got with
  | .error _ => none
  | .ok data => some ⟨data⟩

end OrbsNetwork.Management
