import BlazingSql.Table
import BlazingSql.Aggregate
import BlazingSql.Operators
import BlazingSql.Kernels
import BlazingSql.Pipeline
import BlazingSql.Properties.Partition
import BlazingSql.Properties.GroupBy
import BlazingSql.Properties.Routing
import BlazingSql.Properties.DistributedAggregation
import BlazingSql.Properties.EmptyMerge
import BlazingSql.Properties.ScalarAggregation
import BlazingSql.Catalog
import BlazingSql.Properties.Catalog
import BlazingSql.Executor
import BlazingSql.Properties.Barrier
import BlazingSql.Properties.KernelRun
import BlazingSql.Tasks
import BlazingSql.Double
import BlazingSql.Estimate
import BlazingSql.Properties.Estimate
import BlazingSql.Cluster
import BlazingSql.Properties.PartitionCounts
import BlazingSql.Properties.Completion
import BlazingSql.Properties.CacheContents
import BlazingSql.Properties.ClusterRefinement
import BlazingSql.Properties.TableInvariant
import BlazingSql.Properties.ScalarCluster
import BlazingSql.Properties.ScalarRelease
import BlazingSql.Properties.Composition
