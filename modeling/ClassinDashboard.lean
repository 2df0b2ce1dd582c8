import ClassinDashboard.AccountLifetime
import ClassinDashboard.Accounts
import ClassinDashboard.AdminEscalation
import ClassinDashboard.AiParse
import ClassinDashboard.App
import ClassinDashboard.AppPages
import ClassinDashboard.BranchReferences
import ClassinDashboard.CallAccounts
import ClassinDashboard.ClassinClient
import ClassinDashboard.ClockMarkers
import ClassinDashboard.ClockTexts
import ClassinDashboard.CommitLedger
import ClassinDashboard.CourseAmbiguity
import ClassinDashboard.CourseReuse
import ClassinDashboard.CreateCalls
import ClassinDashboard.CreateEffects
import ClassinDashboard.CreatePlan
import ClassinDashboard.CreateReadback
import ClassinDashboard.CreateReport
import ClassinDashboard.CreateRetry
import ClassinDashboard.CreateReturns
import ClassinDashboard.CreateTrace
import ClassinDashboard.DatedSlots
import ClassinDashboard.DeliveryOrder
import ClassinDashboard.EntityResolution
import ClassinDashboard.EventReads
import ClassinDashboard.Flushing
import ClassinDashboard.InFlight
import ClassinDashboard.Ingest
import ClassinDashboard.IngestAtomicity
import ClassinDashboard.IngestBinding
import ClassinDashboard.IngestConvergence
import ClassinDashboard.IngestOnce
import ClassinDashboard.IngestPatches
import ClassinDashboard.IngestRecords
import ClassinDashboard.IngestRun
import ClassinDashboard.LessonDates
import ClassinDashboard.LessonDay
import ClassinDashboard.LessonDuration
import ClassinDashboard.LineLessons
import ClassinDashboard.LinePrefix
import ClassinDashboard.LineTimes
import ClassinDashboard.LoginBrake
import ClassinDashboard.MasterReferences
import ClassinDashboard.MasterRows
import ClassinDashboard.MemberFaults
import ClassinDashboard.MemberOrder
import ClassinDashboard.MergeHistory
import ClassinDashboard.Metrics
import ClassinDashboard.MissingCounts
import ClassinDashboard.MissingHomework
import ClassinDashboard.NameExchange
import ClassinDashboard.NameSimilarity
import ClassinDashboard.NotifyCopy
import ClassinDashboard.NotifyCoverage
import ClassinDashboard.NotifyScope
import ClassinDashboard.OwnerBoundary
import ClassinDashboard.Pages
import ClassinDashboard.PagesAgree
import ClassinDashboard.PagesReturn
import ClassinDashboard.PlanInstants
import ClassinDashboard.Provisions
import ClassinDashboard.PyArith
import ClassinDashboard.PyCalendar
import ClassinDashboard.PyCsv
import ClassinDashboard.PyDateTime
import ClassinDashboard.PyDifflib
import ClassinDashboard.PyGroups
import ClassinDashboard.PyIsoRead
import ClassinDashboard.PyIsoTime
import ClassinDashboard.PyLockout
import ClassinDashboard.PyPlatform
import ClassinDashboard.PyReads
import ClassinDashboard.PyRegex
import ClassinDashboard.PyScript
import ClassinDashboard.PyText
import ClassinDashboard.PyTokens
import ClassinDashboard.PyValue
import ClassinDashboard.ReadNoninterference
import ClassinDashboard.Reads
import ClassinDashboard.RecordOrigins
import ClassinDashboard.RecordRetention
import ClassinDashboard.Registry
import ClassinDashboard.RiskMonotone
import ClassinDashboard.RoutesAdmin
import ClassinDashboard.RoutesBranches
import ClassinDashboard.RoutesCreate
import ClassinDashboard.RoutesNotify
import ClassinDashboard.RoutesWebhook
import ClassinDashboard.Runs
import ClassinDashboard.ScheduleBlocks
import ClassinDashboard.ScheduleHeuristic
import ClassinDashboard.ScheduleResolve
import ClassinDashboard.ScheduleTable
import ClassinDashboard.ScheduleText
import ClassinDashboard.School
import ClassinDashboard.Scope
import ClassinDashboard.ScopeAlgebra
import ClassinDashboard.ScopeVisibility
import ClassinDashboard.ScopedHomework
import ClassinDashboard.ScopedReads
import ClassinDashboard.Session
import ClassinDashboard.SessionAccounts
import ClassinDashboard.SessionIds
import ClassinDashboard.SessionLifetime
import ClassinDashboard.SessionRevocation
import ClassinDashboard.Sessions
import ClassinDashboard.SlotTexts
import ClassinDashboard.SmartParse
import ClassinDashboard.SqlFilter
import ClassinDashboard.SqlTable
import ClassinDashboard.StartWeek
import ClassinDashboard.Store
import ClassinDashboard.StudentList
import ClassinDashboard.SyncBranch
import ClassinDashboard.TableIsolation
import ClassinDashboard.TableLayouts
import ClassinDashboard.TableRows
import ClassinDashboard.TeacherMinutes
import ClassinDashboard.WebhookSchemas
import ClassinDashboard.WeekPhrases
import ClassinDashboard.WeekdayDates
