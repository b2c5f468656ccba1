import Alera.Relay.RelayHandshake
import Alera.Terminal.ClientOrdering
import Alera.Diagnostics.BearerRedaction
import Alera.Shell.ShellCommand
import Alera.Cloud.SessionRotation
import Alera.Cloud.McpRevocation
import Alera.Cloud.DeviceRedemption
import Alera.Cloud.EventDelivery
import Alera.Orchestration.ControlSequence
import Alera.Orchestration.Integrations
import Alera.Automation.AutomationRuns
import Alera.Automation.PromptTemplates
import Alera.Terminal.FrameCodec
import Alera.Relay.Fragments
import Alera.Terminal.PagedReads
import Alera.Orchestration.ExecutionStep
import Alera.Orchestration.RecipeExport
import Alera.Automation.Schedules
import Alera.Orchestration.StaffedTasks
import Alera.ReadingDiff.PlanProjection
import Alera.Terminal.HistoryPersistence
import Alera.Terminal.CommandInbox
import Alera.Terminal.OutputDelivery
import Alera.Edge.ReadyMobiles
import Alera.Cloud.ConfigurationRevisions
import Alera.Files.EditorText
import Alera.Git.HistoryGraph
import Alera.Workbench.Navigation
