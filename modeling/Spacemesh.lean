import Spacemesh.GoMap
import Spacemesh.RangeSync.Store
import Spacemesh.RangeSync.Reconciler
import Spacemesh.RangeSync.Run
import Spacemesh.RangeSync.Segments
import Spacemesh.RangeSync.Convergence
import Spacemesh.RangeSync.Probe
import Spacemesh.Txs.AccountCache
import Spacemesh.Txs.Cache
import Spacemesh.Txs.Invariant
import Spacemesh.Txs.Mempool
import Spacemesh.Dbsync.Prefix
import Spacemesh.Dbsync.FPTree
import Spacemesh.Dbsync.TreeShape
import Spacemesh.Dbsync.RcPool
import Spacemesh.Eligibility.Oracle
import Spacemesh.Eligibility.Actives
import Spacemesh.Scale.Codec
import Spacemesh.Scale.Types
import Spacemesh.Server.Response
import Spacemesh.Server.Exchange
import Spacemesh.Server.Admission
import Spacemesh.Hare.Config
import Spacemesh.Hare.Proposals
import Spacemesh.Hare.Session
import Spacemesh.Hare.Registry
import Spacemesh.Sql.Schema
import Spacemesh.Sql.Apply
import Spacemesh.Activation.IdentityStates
import Spacemesh.Api.PoetServices
