import OrbsNetwork.Merkle.ProofSpec
import OrbsNetwork.Merkle.OrderedTree
import OrbsNetwork.Library.PairTree
import OrbsNetwork.Merkle.OrderedRootSpec
import OrbsNetwork.Merkle.HasherSpec
import OrbsNetwork.Merkle.OrderedTreeSpec
import OrbsNetwork.Library.LastWrite
import OrbsNetwork.StateStorage.ServiceSpec
import OrbsNetwork.BlockStorage.CodecSpec
import OrbsNetwork.BlockStorage.FileSystem
import OrbsNetwork.BlockStorage.Memory
import OrbsNetwork.Library.Paging
import OrbsNetwork.Library.FirstHit
import OrbsNetwork.BlockStorage.FileSystemSpec
import OrbsNetwork.BlockStorage.ScanSpec
import OrbsNetwork.BlockStorage.AdapterSpec
import OrbsNetwork.Library.LinkedList
import OrbsNetwork.TransactionPool.Types
import OrbsNetwork.TransactionPool.PendingPool
import OrbsNetwork.Library.KeyedList
import OrbsNetwork.TransactionPool.PendingPoolSpec
import OrbsNetwork.TransactionPool.Validation
import OrbsNetwork.TransactionPool.CommittedPool
import OrbsNetwork.TransactionPool.Service
import OrbsNetwork.TransactionPool.ServiceSpec
import OrbsNetwork.TransactionPool.OrderingSpec
import OrbsNetwork.ConsensusContext.Block
import OrbsNetwork.ConsensusContext.BlockSpec
import OrbsNetwork.Gossip.TransportQueue
import OrbsNetwork.Gossip.TransportQueueSpec
import OrbsNetwork.Library.WeightedDraw
import OrbsNetwork.Committee.Order
import OrbsNetwork.Committee.OrderSpec
import OrbsNetwork.BlockStorage.BlockSync
import OrbsNetwork.BlockStorage.BlockSyncSpec
import OrbsNetwork.Gossip.Codec
import OrbsNetwork.Gossip.CodecSpec
import OrbsNetwork.Library.Bracket
import OrbsNetwork.Ethereum.TimestampFinder
import OrbsNetwork.Ethereum.TimestampFinderSpec
import OrbsNetwork.Library.ChunkedStream
import OrbsNetwork.Gossip.Tcp
import OrbsNetwork.Gossip.TcpSpec
import OrbsNetwork.Management.FileProvider
import OrbsNetwork.Management.Service
import OrbsNetwork.Management.ServiceSpec
import OrbsNetwork.Processor.Sanitizer
import OrbsNetwork.Processor.SanitizerSpec
import OrbsNetwork.Library.CheckedArith
import OrbsNetwork.Library.InTree
import OrbsNetwork.Library.OrderedMap
import OrbsNetwork.Elections.State
import OrbsNetwork.Elections.Tally
import OrbsNetwork.Elections.TallySpec
import OrbsNetwork.Elections.VoteCount
import OrbsNetwork.Elections.Rewards
import OrbsNetwork.Elections.RewardsSpec
import OrbsNetwork.Library.Transaction
import OrbsNetwork.Elections.Election
import OrbsNetwork.Elections.Mirror
import OrbsNetwork.Elections.Processing
import OrbsNetwork.Elections.ProcessingSpec
import OrbsNetwork.Library.FirstSeen
import OrbsNetwork.VirtualMachine.TransientState
import OrbsNetwork.VirtualMachine.Execution
import OrbsNetwork.VirtualMachine.Sequential
import OrbsNetwork.VirtualMachine.ExecutionSpec
import OrbsNetwork.BlockStorage.Commit
import OrbsNetwork.BlockStorage.NodeSync
import OrbsNetwork.BlockStorage.NodeSyncSpec
import OrbsNetwork.Library.Binary64
import OrbsNetwork.ConsensusAlgo.Benchmark
import OrbsNetwork.ConsensusAlgo.BenchmarkSpec
import OrbsNetwork.BlockStorage.ServiceSync
import OrbsNetwork.BlockStorage.ServiceSyncSpec
import OrbsNetwork.ConsensusAlgo.NonLeader
import OrbsNetwork.ConsensusAlgo.NonLeaderSpec
import OrbsNetwork.BlockStorage.ReceiptProof
