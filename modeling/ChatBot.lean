import ChatBot.Changelog
import ChatBot.CommandLine
import ChatBot.Commands.Book
import ChatBot.Commands.Responder
import ChatBot.Commands.Words
import ChatBot.Console
import ChatBot.Dispatch.Dispatcher
import ChatBot.Dispatch.Invocation
import ChatBot.Dispatch.Registry
import ChatBot.Dispatch.Rollback
import ChatBot.Dispatch.State
import ChatBot.Http.Client
import ChatBot.Http.Fetching
import ChatBot.Json.Basic
import ChatBot.Json.Decode
import ChatBot.Json.Parser
import ChatBot.Json.Printer
import ChatBot.Locale
import ChatBot.Main
import ChatBot.Math.Arithmetic
import ChatBot.Math.Expression
import ChatBot.Messaging
import ChatBot.Metrics
import ChatBot.Moderation
import ChatBot.NameMap
import ChatBot.Number.Binary
import ChatBot.Number.Fixed
import ChatBot.Number.Plain
import ChatBot.Number.Reader
import ChatBot.Number.Shortest
import ChatBot.Permission
import ChatBot.PermissionCache
import ChatBot.Points.Account
import ChatBot.Points.Ledger
import ChatBot.Points.PriceGate
import ChatBot.Points.Prices
import ChatBot.Proofs.Changelog.Held
import ChatBot.Proofs.Changelog.Recent
import ChatBot.Proofs.Changelog.Standing
import ChatBot.Proofs.Commands.Keeping
import ChatBot.Proofs.Commands.Matchers
import ChatBot.Proofs.Commands.Responding
import ChatBot.Proofs.Commands.Words
import ChatBot.Proofs.Console.Answers
import ChatBot.Proofs.Console.Books
import ChatBot.Proofs.Console.Sales
import ChatBot.Proofs.Console.Serving
import ChatBot.Proofs.Console.Session
import ChatBot.Proofs.Dispatch.Bench
import ChatBot.Proofs.Dispatch.Bookkeeping
import ChatBot.Proofs.Dispatch.Compensation
import ChatBot.Proofs.Dispatch.Course
import ChatBot.Proofs.Dispatch.Habits
import ChatBot.Proofs.Dispatch.Jobs
import ChatBot.Proofs.Dispatch.Planning
import ChatBot.Proofs.Dispatch.Reference
import ChatBot.Proofs.Dispatch.Registering
import ChatBot.Proofs.Dispatch.Scene
import ChatBot.Proofs.Dispatch.Seclusion
import ChatBot.Proofs.Dispatch.Tiers
import ChatBot.Proofs.Dispatch.Totals
import ChatBot.Proofs.Interleaving
import ChatBot.Proofs.Json.Quoting
import ChatBot.Proofs.Json.Reading
import ChatBot.Proofs.Json.RoundTrip
import ChatBot.Proofs.Locale.Filling
import ChatBot.Proofs.Math.Counting
import ChatBot.Proofs.Math.Evaluation
import ChatBot.Proofs.Math.Grammar
import ChatBot.Proofs.Math.Reading
import ChatBot.Proofs.Moderation.Phrases
import ChatBot.Proofs.NameMap
import ChatBot.Proofs.Number.Decimals
import ChatBot.Proofs.Number.Nearest
import ChatBot.Proofs.Number.Neighbours
import ChatBot.Proofs.Number.Packing
import ChatBot.Proofs.Number.Places
import ChatBot.Proofs.Number.Reading
import ChatBot.Proofs.Number.ReadingBack
import ChatBot.Proofs.Number.Rounding
import ChatBot.Proofs.Number.Scaling
import ChatBot.Proofs.Number.Settling
import ChatBot.Proofs.Number.Whole
import ChatBot.Proofs.Number.Writing
import ChatBot.Proofs.Permission.Asking
import ChatBot.Proofs.Permission.Snapshots
import ChatBot.Proofs.Phases
import ChatBot.Proofs.Points.Accounts
import ChatBot.Proofs.Points.Calls
import ChatBot.Proofs.Points.Dispatch
import ChatBot.Proofs.Points.Prices
import ChatBot.Proofs.Points.Tally
import ChatBot.Proofs.Points.Undoing
import ChatBot.Proofs.Stepwise
import ChatBot.Proofs.Template.Addressing
import ChatBot.Proofs.Template.Bounds
import ChatBot.Proofs.Template.ByProducts
import ChatBot.Proofs.Template.Choice
import ChatBot.Proofs.Template.Comparison
import ChatBot.Proofs.Template.Concatenation
import ChatBot.Proofs.Template.Drawing
import ChatBot.Proofs.Template.Filters
import ChatBot.Proofs.Template.GivingUp
import ChatBot.Proofs.Template.Grammar
import ChatBot.Proofs.Template.Lexing
import ChatBot.Proofs.Template.Lookup
import ChatBot.Proofs.Template.Nesting
import ChatBot.Proofs.Template.Numbering
import ChatBot.Proofs.Template.RawBodies
import ChatBot.Proofs.Template.Registrations
import ChatBot.Proofs.Template.Rereading
import ChatBot.Proofs.Template.Scanner
import ChatBot.Proofs.Template.Scanning
import ChatBot.Proofs.Template.Script
import ChatBot.Proofs.Template.Seam
import ChatBot.Proofs.Template.Sources
import ChatBot.Proofs.Template.Stage
import ChatBot.Proofs.Template.Unseen
import ChatBot.Proofs.Template.Verbatim
import ChatBot.Proofs.Template.WellFormed
import ChatBot.Proofs.Template.Writes
import ChatBot.Proofs.Text.Bytes
import ChatBot.Proofs.Text.FinalSigma
import ChatBot.Proofs.Text.LowerCase
import ChatBot.Proofs.Text.Trimming
import ChatBot.Proofs.Traces
import ChatBot.Proofs.Variables.Changes
import ChatBot.Proofs.Variables.Concurrency
import ChatBot.Proofs.Variables.Encoding
import ChatBot.Proofs.Variables.Failures
import ChatBot.Proofs.Variables.Increments
import ChatBot.Proofs.Variables.Lives
import ChatBot.Proofs.Variables.Operations
import ChatBot.Proofs.Variables.Resolving
import ChatBot.Proofs.Variables.Settling
import ChatBot.Proofs.Variables.Steps
import ChatBot.Proofs.Variables.Validity
import ChatBot.Proofs.Variables.Writes
import ChatBot.Settings.Basic
import ChatBot.Settings.Layers
import ChatBot.Stepwise
import ChatBot.Template.Arena
import ChatBot.Template.Builder
import ChatBot.Template.Condition
import ChatBot.Template.Context
import ChatBot.Template.Engine
import ChatBot.Template.Entropy
import ChatBot.Template.Evaluator
import ChatBot.Template.Filter
import ChatBot.Template.Lookup
import ChatBot.Template.Node
import ChatBot.Template.Token
import ChatBot.Text.Blank
import ChatBot.Text.CapitalTable
import ChatBot.Text.CaseTable
import ChatBot.Text.HiddenTable
import ChatBot.Text.LetterTable
import ChatBot.Text.Letters
import ChatBot.Text.LowerCase
import ChatBot.Text.Quoted
import ChatBot.Text.Search
import ChatBot.Text.UpperCase
import ChatBot.Users
import ChatBot.Variables.Basic
import ChatBot.Variables.Operations
import ChatBot.Variables.Store
import ChatBot.Variables.Table
import ChatBot.World
