import PageServer.CommandLine
import PageServer.Config.Address
import PageServer.Config.Settings
import PageServer.Config.Toml.Document
import PageServer.Config.Toml.Token
import PageServer.Config.Toml.Value
import PageServer.Error
import PageServer.Exchange.Basic
import PageServer.Exchange.Run
import PageServer.Exchange.Sink
import PageServer.Handler.Action
import PageServer.Handler.Basic
import PageServer.Http.Cookie
import PageServer.Http.HeadScanner
import PageServer.Http.Query
import PageServer.Http.Request
import PageServer.Http.Response
import PageServer.Http.Stream
import PageServer.Main
import PageServer.Number.Binary64
import PageServer.Number.Decimal
import PageServer.Number.Digits
import PageServer.Number.Shortest
import PageServer.Path
import PageServer.Scope
import PageServer.Session.Id
import PageServer.Session.Record
import PageServer.Session.Registry
import PageServer.Site.Basic
import PageServer.Site.Connection
import PageServer.Site.Dispatch
import PageServer.Site.FileTree
import PageServer.Site.Standard
import PageServer.Site.WorkerPool
import PageServer.Stacks
import PageServer.Template.Builtin
import PageServer.Template.Document
import PageServer.Template.Evaluation
import PageServer.Template.Lexer
import PageServer.Template.Machine
import PageServer.Template.Parser
import PageServer.Template.Value
import PageServer.Text.Alphanumeric
import PageServer.Text.Blank
import PageServer.Text.Bytes
import PageServer.Text.Case
import PageServer.Text.Json
import PageServer.Text.Quoted
import PageServer.Text.Split
import PageServer.Text.Unprintable
import PageServer.Proofs.Exchange.ActionRun
import PageServer.Proofs.Exchange.Reaching
import PageServer.Proofs.Http.CookieReadBack
import PageServer.Proofs.Http.Framing
import PageServer.Proofs.Http.HeadEnd
import PageServer.Proofs.Http.HeadLines
import PageServer.Proofs.Http.HeaderBlock
import PageServer.Proofs.Http.QueryParts
import PageServer.Proofs.Http.ReceivedResponse
import PageServer.Proofs.Http.Returning
import PageServer.Proofs.Http.ScannedLines
import PageServer.Proofs.Http.WrittenHead
import PageServer.Proofs.Number.Addition
import PageServer.Proofs.Number.Grammar
import PageServer.Proofs.Number.Nearest
import PageServer.Proofs.Number.Numeral
import PageServer.Proofs.Number.ReadBack
import PageServer.Proofs.Session.Expiry
import PageServer.Proofs.Session.FreshId
import PageServer.Proofs.Session.Resolve
import PageServer.Proofs.Session.Sweeping
import PageServer.Proofs.Site.Alike
import PageServer.Proofs.Site.Conclusion
import PageServer.Proofs.Site.Confinement
import PageServer.Proofs.Site.DeclaredLength
import PageServer.Proofs.Site.HostInHeader
import PageServer.Proofs.Site.IncludeDepth
import PageServer.Proofs.Site.Inlining
import PageServer.Proofs.Site.Performing
import PageServer.Proofs.Site.PrefixSpelling
import PageServer.Proofs.Site.PrivatePrefix
import PageServer.Proofs.Site.RequestParameters
import PageServer.Proofs.Site.SessionCookie
import PageServer.Proofs.Site.SinkBlindness
import PageServer.Proofs.Site.Spelling
import PageServer.Proofs.Site.TemplateFiles
import PageServer.Proofs.Site.Visits
import PageServer.Proofs.Stacks.ListsByName
import PageServer.Proofs.Template.Arithmetic
import PageServer.Proofs.Template.Counting
import PageServer.Proofs.Template.Expression
import PageServer.Proofs.Template.Grammar
import PageServer.Proofs.Template.Hanging
import PageServer.Proofs.Template.Nesting
import PageServer.Proofs.Template.NumberWords
import PageServer.Proofs.Template.Printing
import PageServer.Proofs.Template.Renaming
import PageServer.Proofs.Template.Rounds
import PageServer.Proofs.Template.Simulation
import PageServer.Proofs.Template.StackBalance
import PageServer.Proofs.Template.StackEffects
import PageServer.Proofs.Template.StoredNumbers
