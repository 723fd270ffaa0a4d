import AutoImport.CommandLine.Answer
import AutoImport.CommandLine.Command
import AutoImport.CommandLine.Exposition
import AutoImport.CommandLine.Grammar
import AutoImport.CommandLine.Log
import AutoImport.CommandLine.Session
import AutoImport.Completion.Context
import AutoImport.Completion.Item
import AutoImport.Completion.MissingName
import AutoImport.Decimal.Seconds
import AutoImport.Engine.Basic
import AutoImport.Engine.Query
import AutoImport.Engine.Watch
import AutoImport.Files.Content
import AutoImport.Files.Tree
import AutoImport.Glob.Pattern
import AutoImport.Ignore.Pattern
import AutoImport.Ignore.Rule
import AutoImport.Import.Comment
import AutoImport.Import.Declaration
import AutoImport.Import.Header
import AutoImport.Import.Resolve
import AutoImport.Import.Specifier
import AutoImport.Import.Statement
import AutoImport.Indexer.Basic
import AutoImport.Indexer.Concurrent
import AutoImport.Indexer.Scan
import AutoImport.Indexer.Update
import AutoImport.Main
import AutoImport.Package.Basic
import AutoImport.Package.Cache
import AutoImport.Package.Json
import AutoImport.Package.Manifest
import AutoImport.Path.Basic
import AutoImport.Path.Module
import AutoImport.Path.Os
import AutoImport.Proofs.Completion.Context
import AutoImport.Proofs.Engine.Changes
import AutoImport.Proofs.Engine.Edits
import AutoImport.Proofs.Files.Change
import AutoImport.Proofs.Files.Create
import AutoImport.Proofs.Files.Tree
import AutoImport.Proofs.Files.Walk
import AutoImport.Proofs.Glob.Matching
import AutoImport.Proofs.Glob.Pattern
import AutoImport.Proofs.Ignore.Verdict
import AutoImport.Proofs.Import.Anchor
import AutoImport.Proofs.Import.Applicable
import AutoImport.Proofs.Import.Bindings
import AutoImport.Proofs.Import.Blanking
import AutoImport.Proofs.Import.Clauses
import AutoImport.Proofs.Import.Comment
import AutoImport.Proofs.Import.CommentReader
import AutoImport.Proofs.Import.CommentSpans
import AutoImport.Proofs.Import.Commented
import AutoImport.Proofs.Import.Document
import AutoImport.Proofs.Import.Effect
import AutoImport.Proofs.Import.ExactBlanking
import AutoImport.Proofs.Import.Header
import AutoImport.Proofs.Import.Insertion
import AutoImport.Proofs.Import.Places
import AutoImport.Proofs.Import.Reading
import AutoImport.Proofs.Import.Removal
import AutoImport.Proofs.Import.Rendering
import AutoImport.Proofs.Import.Repetition
import AutoImport.Proofs.Import.Rescan
import AutoImport.Proofs.Import.SelfImport
import AutoImport.Proofs.Import.SharedKey
import AutoImport.Proofs.Import.Shift
import AutoImport.Proofs.Import.Source
import AutoImport.Proofs.Import.Specifier
import AutoImport.Proofs.Import.Statement
import AutoImport.Proofs.Indexer.Commit
import AutoImport.Proofs.Indexer.Concurrent
import AutoImport.Proofs.Indexer.Entries
import AutoImport.Proofs.Indexer.Exports
import AutoImport.Proofs.Indexer.FullScan
import AutoImport.Proofs.Indexer.Relativize
import AutoImport.Proofs.Indexer.Reread
import AutoImport.Proofs.Indexer.Scan
import AutoImport.Proofs.Indexer.Status
import AutoImport.Proofs.Indexer.Superseded
import AutoImport.Proofs.Indexer.Update
import AutoImport.Proofs.Package.Entry
import AutoImport.Proofs.Package.History
import AutoImport.Proofs.Package.Key
import AutoImport.Proofs.Package.Specifier
import AutoImport.Proofs.Path.Canonical
import AutoImport.Proofs.Path.Components
import AutoImport.Proofs.Path.Module
import AutoImport.Proofs.Path.Normal
import AutoImport.Proofs.Path.Order
import AutoImport.Proofs.Path.Os
import AutoImport.Proofs.Path.Route
import AutoImport.Proofs.Scan.Accepts
import AutoImport.Proofs.Scan.Agreement
import AutoImport.Proofs.Scan.Configuration
import AutoImport.Proofs.Scan.Pruning
import AutoImport.Proofs.Scan.Walk
import AutoImport.Proofs.Settings.File
import AutoImport.Proofs.Settings.Toml
import AutoImport.Proofs.Source.Clause
import AutoImport.Proofs.Source.Grammar
import AutoImport.Proofs.Source.Importable
import AutoImport.Proofs.Source.Reading
import AutoImport.Proofs.Source.Scope
import AutoImport.Proofs.Source.Statement
import AutoImport.Proofs.Source.Word
import AutoImport.Proofs.Symbol.Answers
import AutoImport.Proofs.Symbol.Buckets
import AutoImport.Proofs.Symbol.Contents
import AutoImport.Proofs.Symbol.Filing
import AutoImport.Proofs.Symbol.History
import AutoImport.Proofs.Symbol.Narrowing
import AutoImport.Proofs.Text.Boundary
import AutoImport.Proofs.Text.Character
import AutoImport.Proofs.Text.Cursor
import AutoImport.Proofs.Text.Line
import AutoImport.Proofs.Text.Lowercase
import AutoImport.Proofs.Text.Position
import AutoImport.Proofs.Text.Search
import AutoImport.Proofs.Text.Utf8
import AutoImport.Proofs.Toml.Document
import AutoImport.Proofs.Toml.Number
import AutoImport.Proofs.Toml.Quoted
import AutoImport.Scan.Filter
import AutoImport.Scan.Report
import AutoImport.Scan.Status
import AutoImport.Scan.Walk
import AutoImport.Settings.Basic
import AutoImport.Settings.File
import AutoImport.Settings.Toml
import AutoImport.Source.Exports
import AutoImport.Source.Grammar.Expressions
import AutoImport.Source.Grammar.Rule
import AutoImport.Source.Grammar.Statements
import AutoImport.Source.Grammar.Types
import AutoImport.Source.Item
import AutoImport.Source.Lexical
import AutoImport.Source.Peg
import AutoImport.Symbol.Basic
import AutoImport.Symbol.Buckets
import AutoImport.Symbol.Index
import AutoImport.Text.Bytes
import AutoImport.Text.Character
import AutoImport.Text.Cursor
import AutoImport.Text.Edit
import AutoImport.Text.Lowercase
import AutoImport.Text.Position
import AutoImport.Text.Quoted
import AutoImport.Text.Search
import AutoImport.Text.Table.Alphanumeric
import AutoImport.Text.Table.CaseIgnorable
import AutoImport.Text.Table.Cased
import AutoImport.Text.Table.Lowercase
import AutoImport.Text.Table.Unprintable
import AutoImport.Text.Table.Word
import AutoImport.Text.Utf8
import AutoImport.Toml.Basic
import AutoImport.Toml.Document
import AutoImport.Toml.Number
import AutoImport.Toml.Quoted
import AutoImport.Watch.Change
