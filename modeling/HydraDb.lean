import HydraDb.System.Reachability
import HydraDb.Index.Transpose
import HydraDb.System.Representation
import HydraDb.Query.Merging
import HydraDb.Query.RelationshipIdentity
import HydraDb.Cluster.BookmarkCausal
import HydraDb.Cluster.ProcessWriterHandle
import HydraDb.Cluster.ProcessWriterReads
import HydraDb.Access.Admission
import HydraDb.Access.PackStream
import HydraDb.Import.Scheduling
import HydraDb.Import.Recency
import HydraDb.Cluster.WriterLeaseFence
import HydraDb.Cluster.Placement
import HydraDb.Dump.Lzf
import HydraDb.Query.Hydration
import HydraDb.Query.OrderedWindow
import HydraDb.Procedure.PageCursor
import HydraDb.System.VertexIndex
