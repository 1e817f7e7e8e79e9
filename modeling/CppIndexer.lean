import CppIndexer.Analysis.Runner
import CppIndexer.Ast.FactBufferRuns
import CppIndexer.Ast.MacroUses
import CppIndexer.Ast.OwnedHeaderPlan
import CppIndexer.Ast.RecorderRuns
import CppIndexer.Cache.HeaderReplay
import CppIndexer.CompileDb.AliasRoundTrip
import CppIndexer.CompileDb.GreatestVersions
import CppIndexer.Diff.EditScripts
import CppIndexer.Diff.Equivalence
import CppIndexer.Diff.MirroredComparison
import CppIndexer.Extract.MatcherCalls
import CppIndexer.Extract.NodeIdentity
import CppIndexer.Graph.OrderedIdsPages
import CppIndexer.Graph.Walks
import CppIndexer.Hygiene.CutRanges
import CppIndexer.Hygiene.DuplicateRemoval
import CppIndexer.Hygiene.ReviewedBytes
import CppIndexer.Index.HeaderClaimOrder
import CppIndexer.Index.ParallelIndex
import CppIndexer.Index.PublicationReports
import CppIndexer.Protocol.BehaviorFailures
import CppIndexer.Protocol.ConformanceHistories
import CppIndexer.Protocol.SidecarProvenance
import CppIndexer.Query.CxqPlain
import CppIndexer.Query.CxqRoundTrip
import CppIndexer.Query.JsonRoundTrip
import CppIndexer.Query.PathWitnesses
import CppIndexer.Query.PlanIdentity
import CppIndexer.Query.PlanTwins
import CppIndexer.Query.TypeClimbs
import CppIndexer.Query.TypedFilters
import CppIndexer.Query.TypedInverses
import CppIndexer.Query.ValidatorSound
import CppIndexer.Storage.Containment
import CppIndexer.Storage.FileOwnership
import CppIndexer.Storage.IdentityTransactions
import CppIndexer.Storage.OccurrenceHistory
import CppIndexer.Storage.OccurrenceUpgrade
import CppIndexer.Storage.SymbolMerge
import CppIndexer.Ui.ServeLive
import CppIndexer.Util.PathArithmetic
