import HoloCompute.Go.Basic
import HoloCompute.Go.Bytes
import HoloCompute.Go.Float32
import HoloCompute.Dsm.Storage
import HoloCompute.Dsm.Page
import HoloCompute.Dsm.Array
import HoloCompute.Dsm.Lease
import HoloCompute.Dsm.LeaseRuns
import HoloCompute.Dsm.LeaseGrants
import HoloCompute.Dsm.Cache
import HoloCompute.Dsm.TwoQueue
import HoloCompute.Dsm.CacheRefinement
import HoloCompute.Dsm.Memory
import HoloCompute.Dsm.Manager
import HoloCompute.Hyperbus.Protocol
import HoloCompute.Hyperbus.Stream
import HoloCompute.Hyperbus.Connect
import HoloCompute.Scheduler.Group
import HoloCompute.Scheduler.Parallel
import HoloCompute.Scheduler.Tasks
import HoloCompute.Cluster.Membership
