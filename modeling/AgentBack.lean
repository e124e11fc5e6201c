import AgentBack.Laws.Outlook.NearestSlot
import AgentBack.Laws.Outlook.Quorum
import AgentBack.Laws.Outlook.Hints
import AgentBack.Laws.Procurement.PaddedSupplier
import AgentBack.Laws.Procurement.Agreement
import AgentBack.Laws.Supply.Picker
import AgentBack.Laws.Supply.Dispatcher
import AgentBack.Laws.Mail.Recipients
import AgentBack.Laws.Mail.Delivery
import AgentBack.Laws.Mail.Filters
import AgentBack.Laws.Mail.Documents
import AgentBack.Laws.Mail.SpamLearning
import AgentBack.Laws.Mail.Leadership
import AgentBack.Laws.Mail.Volume
import AgentBack.Laws.Mail.Routing.Containment
import AgentBack.Laws.Mail.Routing.AcceptGate
import AgentBack.Laws.Procurement.Evidence
import AgentBack.Laws.Orchestrator.Confirmations
import AgentBack.Laws.Orchestrator.Quality
import AgentBack.Laws.Orchestrator.Fresh
import AgentBack.Laws.Orchestrator.TaskLog
import AgentBack.Laws.Quality.Progress
import AgentBack.Laws.KT1.Recovery
import AgentBack.Laws.Meetings.OutlookSeries
import AgentBack.Laws.Otk.Lossless
import AgentBack.Laws.Meetings.SeriesPeople
import AgentBack.Laws.Meetings.Resync
import AgentBack.Laws.Knowledge.Access
import AgentBack.Laws.NdChange.Approval
import AgentBack.Laws.Eskd.Jobs
import AgentBack.Laws.Knowledge.Excluded
import AgentBack.Laws.Knowledge.Agreement
import AgentBack.Laws.Procurement.Totals
import AgentBack.Laws.Meetings.Pending
import AgentBack.Laws.Meetings.SeriesCache
import AgentBack.Laws.Meetings.OneProtocol
import AgentBack.Laws.Procurement.Claimed
import AgentBack.Laws.Meetings.Pattern
import AgentBack.Laws.Mail.Routing.Scoring
import AgentBack.Laws.Supply.Urgency
import AgentBack.Laws.Mail.Routing.Direction
import AgentBack.Laws.Mail.Sync
import AgentBack.Laws.Mail.Routing.Theme
import AgentBack.Laws.Mail.PgJson
import AgentBack.Laws.Procurement.Maximal
import AgentBack.Laws.Quality.Kpi
import AgentBack.Laws.Meetings.Funnel
import AgentBack.Laws.Knowledge.Departments
import AgentBack.Laws.Knowledge.SyncSchedule
import AgentBack.Laws.Procurement.NeedLines
