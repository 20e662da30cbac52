import EntityDiagram.Main
import EntityDiagram.Session
import EntityDiagram.Sink
import EntityDiagram.Proofs.MutualReference
import EntityDiagram.Proofs.Scan
import EntityDiagram.Proofs.HeaderGrammar
import EntityDiagram.Proofs.KeptLines
import EntityDiagram.Proofs.WellFormed
import EntityDiagram.Proofs.CanonicalSource
import EntityDiagram.Proofs.DiagramReader
import EntityDiagram.Proofs.LegibleDiagram
import EntityDiagram.Proofs.DeclarationOrder
import EntityDiagram.Proofs.DrawingAccount
import EntityDiagram.Proofs.ResolvedUrl
import EntityDiagram.Proofs.SecretPreview
import EntityDiagram.Proofs.SeedingHistory
import EntityDiagram.Proofs.FileWrite
import EntityDiagram.Proofs.SessionRun
import EntityDiagram.Proofs.SingleOutput
import EntityDiagram.Proofs.FirstFailure
import EntityDiagram.Proofs.LaunchedRun
import EntityDiagram.Proofs.CatalogRun
import EntityDiagram.Proofs.InsertionRun
import EntityDiagram.Proofs.BlockScan
import EntityDiagram.Proofs.SoundLinks
import EntityDiagram.Proofs.UnambiguousSchema
import EntityDiagram.Proofs.FragmentWriting
import EntityDiagram.Proofs.FirstSetting
import EntityDiagram.Proofs.VisibleParts
import EntityDiagram.Proofs.SeedingRun
import EntityDiagram.Proofs.SourceLayout
import EntityDiagram.Proofs.WrittenHeader
import EntityDiagram.Proofs.ConfigurationSearch
import EntityDiagram.Proofs.WrittenArguments
import EntityDiagram.Proofs.TypeMarkers
