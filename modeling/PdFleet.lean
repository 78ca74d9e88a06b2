import PdFleet.Fencing
import PdFleet.Events
import PdFleet.Faults
import PdFleet.Expiry
import PdFleet.Ownership
import PdFleet.SerialCalls
import PdFleet.Governance
import PdFleet.Runtime
import PdFleet.Agreement
import PdFleet.Delivery
import PdFleet.Ingestion
import PdFleet.Loadable
import PdFleet.LogBudget
import PdFleet.ActivationRuns
import PdFleet.Cockpit
import PdFleet.ActivityBus
import PdFleet.GatewaySound
import PdFleet.EnvelopeAgreement
import PdFleet.EventRoundTrip
import PdFleet.PlanText
import PdFleet.BridgeJournal
import PdFleet.FleetGatewayBridge
import PdFleet.BridgeGaps
import PdFleet.BridgeRuns
import PdFleet.Reconciliation
import PdFleet.Diagnostics
import PdFleet.Sandbox
import PdFleet.CreateLoad
import PdFleet.ReportReparse
import PdFleet.HandoffStore
import PdFleet.CheckpointProjection
import PdFleet.ParallelRun
import PdFleet.SerialBudget
import PdFleet.GatewayIsolation
import PdFleet.GatewayActivation
import PdFleet.IntegrationRuns
import PdFleet.AdapterReplay
