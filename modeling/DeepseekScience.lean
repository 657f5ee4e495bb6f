import DeepseekScience.Dsml.Guard
import DeepseekScience.Dsml.RoundTrip
import DeepseekScience.Compact.Chain
import DeepseekScience.Agent.PlanExecution
import DeepseekScience.Llm.Decoder
import DeepseekScience.Db.JobOrder
import DeepseekScience.Db.Recovery
import DeepseekScience.Db.Resequence
import DeepseekScience.Memory.TrustGates
import DeepseekScience.Memory.Lifecycle
import DeepseekScience.Api.Evidence
import DeepseekScience.Mcp.Mount
import DeepseekScience.Net.PublicOnly
import DeepseekScience.Core.HotApply
import DeepseekScience.Compact.Picking
import DeepseekScience.Core.Encode
import DeepseekScience.A2a.Types
import DeepseekScience.Agent.Assembly
import DeepseekScience.Api.RunRegistry
import DeepseekScience.Verify.Verdict
import DeepseekScience.Dsml.Shortcut
import DeepseekScience.Agent.Repair
import DeepseekScience.Compact.Reduction
import DeepseekScience.Api.PlanRequest
import DeepseekScience.Agent.Metering
import DeepseekScience.Tools.HtmlText
import DeepseekScience.Mcp.Response
import DeepseekScience.A2a.RegistryCard
import DeepseekScience.Verify.Review
import DeepseekScience.Llm.Secrets
import DeepseekScience.Mcp.Narrowing
import DeepseekScience.Frontend.OwnResults
import DeepseekScience.Tools.Openalex
import DeepseekScience.Tools.ReadFile
import DeepseekScience.Tools.EditOnce
import DeepseekScience.Skills.SearchOrder
import DeepseekScience.Skills.LineEndings
import DeepseekScience.Tools.DdgScan
import DeepseekScience.Tools.OneEffect
import DeepseekScience.Llm.RetryDelay
import DeepseekScience.A2a.Identity
import DeepseekScience.Frontend.StreamEvents
import DeepseekScience.Api.ActiveSessions
import DeepseekScience.Api.StopAgreement
import DeepseekScience.Tools.FailedWrite
import DeepseekScience.Api.CredentialsKept
import DeepseekScience.Frontend.QueueLedger
import DeepseekScience.Frontend.RunStarts
import DeepseekScience.Llm.Delivery
import DeepseekScience.Llm.RequestBody
import DeepseekScience.A2a.Redaction
import DeepseekScience.Mcp.Listing
import DeepseekScience.Mcp.Connections
import DeepseekScience.Db.LastSession
import DeepseekScience.Db.BotEdits
import DeepseekScience.Db.Agreement
