import Placeholders.Batch
import Placeholders.Main
import Placeholders.Resolver.Scripted
import Placeholders.Proofs.ScannedTokens
import Placeholders.Proofs.PassContribution
import Placeholders.Proofs.StandardPass
import Placeholders.Proofs.PassSequence
import Placeholders.Proofs.PassStarts
import Placeholders.Proofs.CircularDetection
import Placeholders.Proofs.FailingLookups
import Placeholders.Proofs.FixpointLeftovers
import Placeholders.Proofs.Templates
import Placeholders.Proofs.TemplatePass
import Placeholders.Proofs.EscapeRoundTrip
import Placeholders.Proofs.Unfolding
import Placeholders.Proofs.TemplateExpansion
import Placeholders.Proofs.FixpointIdempotence
import Placeholders.Proofs.ProblemTrace
import Placeholders.Proofs.OutcomeInvariants
import Placeholders.Proofs.SurroundingText
import Placeholders.Proofs.ResolverOrder
import Placeholders.Proofs.CommandCalls
import Placeholders.Proofs.ReferenceCycles
import Placeholders.Proofs.PairedRuns
import Placeholders.Proofs.BatchEntryPoints
import Placeholders.Proofs.DisabledCommands
import Placeholders.Proofs.EnvironmentOverride
import Placeholders.Proofs.UnreadableVariables
import Placeholders.Proofs.PassCap
import Placeholders.Proofs.ChangeFlag
import Placeholders.Proofs.PrintedJson
import Placeholders.Proofs.JsonRecords
import Placeholders.Proofs.StableFormats
import Placeholders.Proofs.CommandLineReport
import Placeholders.Proofs.EnvironmentSpellings
import Placeholders.Proofs.RedundantEntries
import Placeholders.Proofs.VariableConstruction
import Placeholders.Proofs.LeftmostLongest
import Placeholders.Proofs.ListingOrder
import Placeholders.Proofs.LeftmostSpans
import Placeholders.Proofs.ScannedSpans
import Placeholders.Proofs.ClosingBraces
import Placeholders.Proofs.DrivePaths
import Placeholders.Proofs.RepeatedNormalization
import Placeholders.Proofs.WrittenLiterals
