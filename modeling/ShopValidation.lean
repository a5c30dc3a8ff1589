import ShopValidation.Config.Environment
import ShopValidation.Config.LogFormat
import ShopValidation.Config.Server
import ShopValidation.Config.Setting
import ShopValidation.Config.Validation
import ShopValidation.Database.Program
import ShopValidation.Database.Row
import ShopValidation.Database.Scripted
import ShopValidation.Database.Server
import ShopValidation.Database.Statement
import ShopValidation.DomainError
import ShopValidation.Geodata.Answer
import ShopValidation.Geodata.Query
import ShopValidation.Geodata.Request
import ShopValidation.Geodata.Response
import ShopValidation.Geodata.Source
import ShopValidation.Identifier
import ShopValidation.Json.Number
import ShopValidation.Json.Record
import ShopValidation.Json.Token
import ShopValidation.Json.Value
import ShopValidation.Location
import ShopValidation.Proofs.Config.Accepted
import ShopValidation.Proofs.Config.DelayList
import ShopValidation.Proofs.Config.Keywise
import ShopValidation.Proofs.Database.Agreement
import ShopValidation.Proofs.Database.Dialogue
import ShopValidation.Proofs.Database.Lockstep
import ShopValidation.Proofs.Database.Reading
import ShopValidation.Proofs.Database.Renaming
import ShopValidation.Proofs.Database.Rows
import ShopValidation.Proofs.Database.Transaction
import ShopValidation.Proofs.Geodata.Answers
import ShopValidation.Proofs.Geodata.Elements
import ShopValidation.Proofs.Geodata.Matching
import ShopValidation.Proofs.Geodata.QueryReading
import ShopValidation.Proofs.Json.FloatValue
import ShopValidation.Proofs.Json.Keeping
import ShopValidation.Proofs.Json.Numeral
import ShopValidation.Proofs.Json.Overflow
import ShopValidation.Proofs.Location.UidText
import ShopValidation.Proofs.Scheduler.BatchEffect
import ShopValidation.Proofs.Scheduler.BatchStep
import ShopValidation.Proofs.Scheduler.Books
import ShopValidation.Proofs.Scheduler.Configured
import ShopValidation.Proofs.Scheduler.Conservation
import ShopValidation.Proofs.Scheduler.Course
import ShopValidation.Proofs.Scheduler.Draining
import ShopValidation.Proofs.Scheduler.Exclusion
import ShopValidation.Proofs.Scheduler.FailedBatch
import ShopValidation.Proofs.Scheduler.InProgress
import ShopValidation.Proofs.Scheduler.Looping
import ShopValidation.Proofs.Scheduler.Pacing
import ShopValidation.Proofs.Scheduler.Pending
import ShopValidation.Proofs.Scheduler.Picking
import ShopValidation.Proofs.Scheduler.Probing
import ShopValidation.Proofs.Scheduler.Question
import ShopValidation.Proofs.Scheduler.Queueing
import ShopValidation.Proofs.Scheduler.Resolution
import ShopValidation.Proofs.Scheduler.Selection
import ShopValidation.Proofs.Scheduler.Service
import ShopValidation.Proofs.Scheduler.Settling
import ShopValidation.Proofs.Scheduler.Start
import ShopValidation.Proofs.Scheduler.WakeUp
import ShopValidation.Proofs.Scheduler.WholeCalls
import ShopValidation.Proofs.Store.Forgotten
import ShopValidation.Proofs.Store.History
import ShopValidation.Proofs.Store.Maps
import ShopValidation.Proofs.Store.Tables
import ShopValidation.Proofs.Store.Writing
import ShopValidation.Proofs.Text.IntegerValue
import ShopValidation.Proofs.Text.Trimming
import ShopValidation.Proofs.Text.WrittenNumber
import ShopValidation.Proofs.Time.Saturation
import ShopValidation.Proofs.Worker.CallbackOrder
import ShopValidation.Proofs.Worker.Causes
import ShopValidation.Proofs.Worker.IdleCallback
import ShopValidation.Proofs.Worker.Joining
import ShopValidation.Proofs.Worker.LeftBehind
import ShopValidation.Proofs.Worker.Lifecycle
import ShopValidation.Proofs.Worker.LoopStep
import ShopValidation.Proofs.Worker.Pauses
import ShopValidation.Proofs.Worker.Stopping
import ShopValidation.Reason
import ShopValidation.Record
import ShopValidation.Scheduler.Batch
import ShopValidation.Scheduler.Error
import ShopValidation.Scheduler.Rehearsal
import ShopValidation.Scheduler.State
import ShopValidation.Shop
import ShopValidation.Store.Error
import ShopValidation.Store.Operation
import ShopValidation.Store.Reconcile
import ShopValidation.Store.Tables
import ShopValidation.Task
import ShopValidation.Text.Blank
import ShopValidation.Text.Hex
import ShopValidation.Text.Hidden
import ShopValidation.Text.IntegerLiteral
import ShopValidation.Text.Quoted
import ShopValidation.Text.Utf8
import ShopValidation.Time.Calendar
import ShopValidation.Time.Clock
import ShopValidation.Time.Duration
import ShopValidation.Time.Instant
import ShopValidation.Time.Rfc3339
import ShopValidation.UserId
import ShopValidation.Worker.Backoff
import ShopValidation.Worker.Callback
import ShopValidation.Worker.Error
import ShopValidation.Worker.Host
import ShopValidation.Worker.Rehearsal
import ShopValidation.Worker.State
import ShopValidation.Worker.Step
