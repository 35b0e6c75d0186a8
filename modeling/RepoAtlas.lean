import RepoAtlas.Main
import RepoAtlas.Prose.Skill
import RepoAtlas.Proofs.DecimalText
import RepoAtlas.Proofs.OrderedMapLaws
import RepoAtlas.Proofs.Utf8RoundTrip
import RepoAtlas.Proofs.JsonNumbers
import RepoAtlas.Proofs.JsonStrings
import RepoAtlas.Proofs.JsonRoundTrip
import RepoAtlas.Proofs.SnapshotRecord
import RepoAtlas.Proofs.DocumentStore
import RepoAtlas.Proofs.StoreAgreement
import RepoAtlas.Proofs.DoubleRange
import RepoAtlas.Proofs.JsonErrors
import RepoAtlas.Proofs.DocumentFlaws
import RepoAtlas.Proofs.AnalysisOutcome
import RepoAtlas.Proofs.RunHistory
import RepoAtlas.Proofs.ContentForms
import RepoAtlas.Proofs.ImportGraph
import RepoAtlas.Proofs.ImportStatements
import RepoAtlas.Proofs.RelativeImports
import RepoAtlas.Proofs.DiskEdits
import RepoAtlas.Proofs.RepeatedRuns
import RepoAtlas.Proofs.CommandOutcome
import RepoAtlas.Proofs.ContentDifferences
import RepoAtlas.Proofs.DirectoryRoutes
import RepoAtlas.Proofs.HubViews
import RepoAtlas.Proofs.ToonDecoding
import RepoAtlas.Proofs.JsonPrefixes
import RepoAtlas.Proofs.TornDocuments
import RepoAtlas.Proofs.ArchitectureGraph
import RepoAtlas.Proofs.FileConservation
import RepoAtlas.Proofs.StraySurrogates
import RepoAtlas.Proofs.DiscoveredFiles
import RepoAtlas.Proofs.ProseJudgement
import RepoAtlas.Proofs.DiscoveryOrder
import RepoAtlas.Proofs.AddedFile
import RepoAtlas.Proofs.GatheredFiles
import RepoAtlas.Proofs.ManifestEdits
import RepoAtlas.Proofs.RoundedRatios
import RepoAtlas.Proofs.FullAnalysisShare
import RepoAtlas.Proofs.StatementPositions
import RepoAtlas.Proofs.SourceOutline
import RepoAtlas.Proofs.StatementEdges
import RepoAtlas.Proofs.SubmoduleImports
import RepoAtlas.Proofs.DirectoryWalk
import RepoAtlas.Proofs.FileRanking
import RepoAtlas.Proofs.FlowchartLines
import RepoAtlas.Proofs.NodeIdentifiers
import RepoAtlas.Proofs.EntityGroups
import RepoAtlas.Proofs.NameSelection
import RepoAtlas.Proofs.DirectoryGrowth
import RepoAtlas.Proofs.SiblingOrder
import RepoAtlas.Proofs.TreeDrawing
import RepoAtlas.Proofs.FindingRows
import RepoAtlas.Proofs.TrimmedText
import RepoAtlas.Proofs.DocumentNames
