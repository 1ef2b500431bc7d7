import ShaderForge.Main
import ShaderForge.Proofs.LocalRuns
import ShaderForge.Proofs.PlanClashes
import ShaderForge.Proofs.RemoteRun
import ShaderForge.Proofs.CanceledExtraction
import ShaderForge.Proofs.ForgottenLog
import ShaderForge.Proofs.LocatedItems
import ShaderForge.Proofs.ShippedConfig
import ShaderForge.Proofs.EscapingReferences
import ShaderForge.Proofs.OwningDirectories
import ShaderForge.Proofs.DirectoryRoundTrip
import ShaderForge.Proofs.Heeding
import ShaderForge.Proofs.Stages
import ShaderForge.Proofs.JobEnds
import ShaderForge.Proofs.NestedReports
import ShaderForge.Proofs.PublishedFindings
import ShaderForge.Proofs.LocatedFindings
import ShaderForge.Proofs.Listings
import ShaderForge.Proofs.FoundAgain
import ShaderForge.Proofs.AcceptedInputs
import ShaderForge.Proofs.PrimaryConfigs
import ShaderForge.Proofs.TagOccurrences
import ShaderForge.Proofs.DiagnosedFailures
import ShaderForge.Proofs.OwnerSearch
import ShaderForge.Proofs.ProgressSums
import ShaderForge.Proofs.FindingsByFile
import ShaderForge.Proofs.ShippedShader
import ShaderForge.Proofs.DecodedNames
import ShaderForge.Proofs.RefusedArchives
import ShaderForge.Proofs.ArchiveReadback
import ShaderForge.Proofs.WrittenArchives
import ShaderForge.Proofs.OutputLines
import ShaderForge.Proofs.PrintedColumns
import ShaderForge.Proofs.SettledFormats
import ShaderForge.Proofs.Races
import ShaderForge.Proofs.WrittenPaths
import ShaderForge.Proofs.HomePaths
import ShaderForge.Proofs.MemberNames
import ShaderForge.Proofs.SettingsReadback
import ShaderForge.Proofs.NewShaders
