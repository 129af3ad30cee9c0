import Aftercare.System.Pinning
import Aftercare.System.Retries
import Aftercare.System.Ambiguity
import Aftercare.System.Delegation
import Aftercare.Ops.Holes
import Aftercare.System.Reservations
import Aftercare.System.Admissions
import Aftercare.System.Dispatching
import Aftercare.Investigation.Replays
import Aftercare.Investigation.Additions
import Aftercare.System.Confluence
import Aftercare.System.Delivering
import Aftercare.System.Administration
import Aftercare.System.Resolution
import Aftercare.System.Capacity
import Aftercare.System.Fairness
import Aftercare.System.Budgets
import Aftercare.System.Overriding
import Aftercare.System.Migrating
import Aftercare.Persistence.RetryBudgets
import Aftercare.System.Gates
import Aftercare.Runtime.Proposals
import Aftercare.Runtime.SandboxExecutor
import Aftercare.Investigation.SourceEvents
import Aftercare.Web.Timeline
import Aftercare.Web.Sse
import Aftercare.Api.WorkQueue
import Aftercare.Auth.Introspection
import Aftercare.Api.EventTail
import Aftercare.Web.CaseEvents
