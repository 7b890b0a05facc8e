import SqlKit.Logging
import SqlKit.Mysql.Vendor
import SqlKit.Pool.Bench
import SqlKit.Postgres.Vendor
import SqlKit.Query.Builder
import SqlKit.Session.Scripted
import SqlKit.Settings.Document
import SqlKit.Settings.Dsn
import SqlKit.Sqlite.Tables
import SqlKit.Sqlite.Vendor
import SqlKit.Value.Tagged
import SqlKit.Proofs.Template
import SqlKit.Proofs.Calendar.DayNumber
import SqlKit.Proofs.Number.Rounding
import SqlKit.Proofs.Number.Doubles
import SqlKit.Proofs.Number.Scaling
import SqlKit.Proofs.Number.Shortest
import SqlKit.Proofs.Json.Quoted
import SqlKit.Proofs.Json.Numerals
import SqlKit.Proofs.Json.Floats
import SqlKit.Proofs.Json.Spelled
import SqlKit.Proofs.Json.Meaning
import SqlKit.Proofs.SameShape
import SqlKit.Proofs.Phrase
import SqlKit.Proofs.Phrased
import SqlKit.Proofs.Lexing
import SqlKit.Proofs.Marks
import SqlKit.Proofs.Leading
import SqlKit.Proofs.Precedence
import SqlKit.Proofs.Parts
import SqlKit.Proofs.Predicates
import SqlKit.Proofs.Conditions
import SqlKit.Proofs.Where
import SqlKit.Proofs.Leaves
import SqlKit.Proofs.Combinations
import SqlKit.Proofs.Membership
import SqlKit.Proofs.Writing
import SqlKit.Proofs.Transactions
import SqlKit.Proofs.Builder.Calls
import SqlKit.Proofs.Builder.History
import SqlKit.Proofs.Builder.Coherence
import SqlKit.Proofs.Builder.Demands
import SqlKit.Proofs.Builder.Written
import SqlKit.Proofs.Builder.Columns
import SqlKit.Proofs.Builder.Mentions
import SqlKit.Proofs.Builder.ImpliedSources
import SqlKit.Proofs.Neutral
import SqlKit.Proofs.Pool.Steps
import SqlKit.Proofs.Pool.Accounts
import SqlKit.Proofs.Pool.Errands
import SqlKit.Proofs.Pool.Single
import SqlKit.Proofs.Pool.Closing
import SqlKit.Proofs.Engine.Working
import SqlKit.Proofs.Engine.Runs
import SqlKit.Proofs.Engine.Life
import SqlKit.Proofs.Postgres.Transactions
import SqlKit.Proofs.Postgres.Parameters
import SqlKit.Proofs.Sqlite.Sessions
import SqlKit.Proofs.Sqlite.Drafts
import SqlKit.Proofs.Sqlite.Atomicity
import SqlKit.Proofs.Sqlite.Memory
import SqlKit.Proofs.Sqlite.Bystanders
import SqlKit.Proofs.Sqlite.Isolation
import SqlKit.Proofs.Sqlite.LifeCycle
import SqlKit.Proofs.Mysql.Kinds
import SqlKit.Proofs.Nulls
import SqlKit.Proofs.Protocol
import SqlKit.Proofs.Mysql.Encodings
import SqlKit.Proofs.Faults
import SqlKit.Proofs.Builder.Strictness
import SqlKit.Proofs.Builder.Rows
import SqlKit.Proofs.Sharing
import SqlKit.Proofs.Quoting
import SqlKit.Proofs.Mysql.Quotations
import SqlKit.Proofs.Pool.Warming
import SqlKit.Proofs.Sqlite.Warming
import SqlKit.Proofs.Calendar.Texts
import SqlKit.Proofs.Limits
import SqlKit.Proofs.Sqlite.Storage
import SqlKit.Proofs.Sqlite.RowCounts
import SqlKit.Proofs.Sqlite.FirstStatement
import SqlKit.Proofs.Sqlite.Scripts
import SqlKit.Proofs.Decoding
import SqlKit.Proofs.Json.Merging
import SqlKit.Proofs.Settings.Documents
import SqlKit.Proofs.Settings.Loading
import SqlKit.Proofs.Url.Escaped
import SqlKit.Proofs.Url.Written
import SqlKit.Proofs.Settings.DataSourceNames
