import Crinha.Pipeline.Program
import Crinha.Pipeline.System
import Crinha.Pipeline.Draining
import Crinha.Pipeline.Accounting
import Crinha.Pipeline.Commits
import Crinha.Pipeline.Snapshot
import Crinha.Pipeline.Schedule
import Crinha.Pipeline.Sync
import Crinha.Pipeline.Outcomes
import Crinha.Pipeline.Faults
import Crinha.Pipeline.Agreement
import Crinha.Pipeline.Progress
import Crinha.Memory.Heap
import Crinha.Memory.Refine
import Crinha.Memory.Pointers
import Crinha.Memory.Reads
import Crinha.Memory.Processes
import Crinha.Slots.Table
import Crinha.Slots.Scan
import Crinha.Bytes.CString
import Crinha.Bytes.Stores
import Crinha.Bytes.Chunks
import Crinha.Bytes.Decimal
import Crinha.Bytes.Utf8
import Crinha.Bytes.SqlLex
import Crinha.Bytes.Regex
import Crinha.Calendar.Civil
import Crinha.Entity
import Crinha.Jansson
import Crinha.JsonText
import Crinha.CurrentTime
import Crinha.Schema
import Crinha.Repository
import Crinha.Controller
import Crinha.Api
import Crinha.Body
import Crinha.Failures
import Crinha.Ledger
import Crinha.Postgres
import Crinha.Acknowledgement
import Crinha.ReportedBalance
import Crinha.ReadYourWrites
import Crinha.Extrato
import Crinha.AsyncInvisible
import Crinha.ConnectionFaults
import Crinha.NoDeadlock
import Crinha.Accounts.Bank
import Crinha.Pipeline.Refinement
import Crinha.Contas
import Crinha.BankAnswers
import Crinha.SingleProcess
import Crinha.Validation
import Crinha.Amounts
import Crinha.Listing
import Crinha.Response
import Crinha.SqlText
import Crinha.SyncInsert
import Crinha.HttpParser
import Crinha.RequestMemory
import Crinha.Reassembly
import Crinha.Server
import Crinha.ReadBuffer
import Crinha.Isolation
import Crinha.Recovery
import Crinha.Segmentation
import Crinha.KeepAlive
import Crinha.PollTable
import Crinha.UrlParam
import Crinha.Router
import Crinha.ArrayList
import Crinha.ResultSet
import Crinha.RepositoryMemory
import Crinha.HandlerMemory
import Crinha.ProcessMemory
import Crinha.EventLoop
import Crinha.TimelyAnswers
import Crinha.Servers
import Crinha.Availability
import Crinha.ServerBank
