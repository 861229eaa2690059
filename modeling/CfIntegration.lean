import CfIntegration.Foundation.OrderedSet
import CfIntegration.Foundation.DirectoryTree
import CfIntegration.Foundation.Fallible
import CfIntegration.Foundation.ResourceTrace
import CfIntegration.Foundation.Action
import CfIntegration.Foundation.Registry
import CfIntegration.Foundation.Text
import CfIntegration.Foundation.Url
import CfIntegration.Foundation.Interleaving
import CfIntegration.Foundation.FileSystem
import CfIntegration.Foundation.FileName
import CfIntegration.Foundation.DirectoryWalk
import CfIntegration.Foundation.Overlap
import CfIntegration.Foundation.Pagination
import CfIntegration.Foundation.Redaction
import CfIntegration.Foundation.Hiding
import CfIntegration.Foundation.Utf8
import CfIntegration.Foundation.Markdown
import CfIntegration.Foundation.MarkdownLinks
import CfIntegration.Foundation.ExtendedRegex
import CfIntegration.Foundation.Marked
import CfIntegration.Infrastructure.Assets
import CfIntegration.Infrastructure.Secrets
import CfIntegration.Infrastructure.ProcessLog
import CfIntegration.Infrastructure.Config
import CfIntegration.Infrastructure.Checkout
import CfIntegration.Infrastructure.CheckoutReplacement
import CfIntegration.Infrastructure.CheckoutContainment
import CfIntegration.Infrastructure.PathNormalization
import CfIntegration.Infrastructure.OriginPattern
import CfIntegration.Infrastructure.Stack
import CfIntegration.Conformance.Results
import CfIntegration.Conformance.Outcome
import CfIntegration.Conformance.ResultLoading
import CfIntegration.Conformance.ResultCompleteness
import CfIntegration.Conformance.Comparison
import CfIntegration.Conformance.ComparisonLinks
import CfIntegration.Conformance.CellReading
import CfIntegration.Conformance.ResultNames
import CfIntegration.Conformance.ResultSets
import CfIntegration.Conformance.Baseline
import CfIntegration.Conformance.BaselineTransaction
import CfIntegration.Conformance.BaselineRecovery
import CfIntegration.Runtime.Failure
import CfIntegration.Runtime.Artifacts
import CfIntegration.Runtime.ManagedSession
import CfIntegration.Runtime.OfficialRun
import CfIntegration.Runtime.Entry
import CfIntegration.Runtime.EntryResources
import CfIntegration.Runtime.Run
import CfIntegration.Runtime.EntryRecords
import CfIntegration.Runtime.Undisturbed
import CfIntegration.Runtime.Passing
import CfIntegration.Runtime.Gate
import CfIntegration.Runtime.BlessFrame
import CfIntegration.Runtime.Interrupt
import CfIntegration.Runtime.Display
import CfIntegration.Runtime.StackCleanup
import CfIntegration.Runtime.StackUp
import CfIntegration.Runtime.CommandResolution
import CfIntegration.Runtime.ToolContainer
import CfIntegration.Runtime.Release
import CfIntegration.Runtime.ReleaseSafety
import CfIntegration.Runtime.ReportEvidence
import CfIntegration.Runtime.ReportRegeneration
import CfIntegration.Fixture.ControlPlane
import CfIntegration.Fixture.Client
import CfIntegration.Fixture.Provision
import CfIntegration.Fixture.Residue
import CfIntegration.Fixture.Registration
import CfIntegration.Fixture.Ownership
import CfIntegration.Fixture.ErrorDetail
import CfIntegration.Fyre.Config
import CfIntegration.Fyre.Quota
import CfIntegration.Fyre.Matrix
import CfIntegration.Fyre.MatrixRecords
import CfIntegration.Fyre.Lifecycle
import CfIntegration.Fyre.Cleanup
import CfIntegration.Fyre.CapacitySearch
import CfIntegration.Fyre.CapacityBracket
import CfIntegration.Fyre.CapacitySoundness
import CfIntegration.Fyre.Report
import CfIntegration.Fyre.LoadCluster
import CfIntegration.Fyre.FixedComparison
import CfIntegration.Fyre.ComparisonCommands
import CfIntegration.Fyre.ComparisonPhases
import CfIntegration.Fyre.ComparisonRuns
import CfIntegration.Fyre.LoadPhase
import CfIntegration.Fyre.CapacityNoise
import CfIntegration.Fyre.CapacityTermination
import CfIntegration.Fyre.CapacityDivision
import CfIntegration.Mcp.Json
import CfIntegration.Mcp.EventStream
import CfIntegration.Mcp.EventGrammar
import CfIntegration.Mcp.Endpoint
import CfIntegration.Mcp.Protocol
import CfIntegration.Mcp.Probe
import CfIntegration.Mcp.ProbeConversation
import CfIntegration.Mcp.Gateway
import CfIntegration.Mcp.GatewayRedaction
import CfIntegration.Mcp.GatewaySession
import CfIntegration.Mcp.AuthProxy
import CfIntegration.Mcp.FixtureCatalog
import CfIntegration.Mcp.FixtureSession
import CfIntegration.Mcp.RouteConfig
import CfIntegration.Conformance.ClientDriver
import CfIntegration.Fyre.HelperBounds
import CfIntegration.Performance.ReportAudit
import CfIntegration.Performance.LoadUser
import CfIntegration.Performance.RunTime
