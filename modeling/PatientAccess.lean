import PatientAccess.Theory.Mapping
import PatientAccess.Theory.Machine
import PatientAccess.Theory.Promise
import PatientAccess.Theory.Tickets
import PatientAccess.Theory.InOrder
import PatientAccess.Theory.Loops
import PatientAccess.Theory.Rewrites
import PatientAccess.Theory.Text
import PatientAccess.Theory.Utf16
import PatientAccess.Theory.Json
import PatientAccess.Theory.JsonRoundTrip
import PatientAccess.Contract.Storage
import PatientAccess.Contract.Messages
import PatientAccess.Contract.Permissions
import PatientAccess.Contract.Registry
import PatientAccess.Contract.Registration
import PatientAccess.Contract.Roles
import PatientAccess.Contract.Journal
import PatientAccess.Contract.Spec
import PatientAccess.Contract.Distinct
import PatientAccess.Server.Transactions
import PatientAccess.Server.Routes
import PatientAccess.Server.EventLoop
import PatientAccess.Server.Nonce
import PatientAccess.Server.Answers
import PatientAccess.Server.Accounts
import PatientAccess.Server.Counters
import PatientAccess.Server.Reports
import PatientAccess.Server.Router
import PatientAccess.Chain.Node
import PatientAccess.Chain.Order
import PatientAccess.Chain.Registry
import PatientAccess.Chain.Answers
import PatientAccess.Log.Entry
import PatientAccess.Log.TextLog
import PatientAccess.Log.JsonLog
import PatientAccess.Log.OneRecord
import PatientAccess.Stress.Accounts
import PatientAccess.Stress.Modes
import PatientAccess.Stress.Registrations
import PatientAccess.Stress.Batches
import PatientAccess.Chain.ReadBack
import PatientAccess.Chain.AccountsFile
import PatientAccess.Theory.Numbers
import PatientAccess.Theory.Doubles
import PatientAccess.Theory.Statistics
import PatientAccess.Graphs.Values
import PatientAccess.Graphs.ParseData
import PatientAccess.Graphs.Pipeline
import PatientAccess.Graphs.Table
import PatientAccess.Stress.Session
import PatientAccess.Graphs.Session
