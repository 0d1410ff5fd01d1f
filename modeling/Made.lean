import Made.Events.Reader
import Made.Properties.Endings
import Made.Properties.Approvals
import Made.Properties.Panics
import Made.Properties.Reconciliation
import Made.Properties.EventStores
import Made.Properties.SessionStreams
import Made.Properties.AuditChains
import Made.Properties.PolicyDecisions
import Made.Properties.Projections
import Made.Properties.Measurements
import Made.Properties.Bindings
import Made.Properties.Replacements
import Made.Properties.Histories
import Made.Properties.Cycles
import Made.Properties.Components
import Made.Journal.EventCursor
import Made.Properties.Succession
import Made.Properties.Offers
import Made.Properties.Revisions
