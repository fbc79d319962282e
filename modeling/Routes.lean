import Routes.Main
import Routes.LogSettings
import Routes.Proofs.Pattern.Expression
import Routes.Proofs.Table.Build
import Routes.Proofs.Table.Resolve
import Routes.Proofs.Grammar
import Routes.Proofs.Token.Cursor
import Routes.Proofs.Grammar.Parse
import Routes.Proofs.Token.Lexeme
import Routes.Proofs.Token.Scan
import Routes.Proofs.Declaration.Spelling
import Routes.Proofs.RouteData.Source
import Routes.Proofs.Token.Stray
import Routes.Proofs.Table.Link
import Routes.Proofs.Dispatch.Session
import Routes.Proofs.Json.Read
import Routes.Proofs.Record
import Routes.Proofs.RouteData.Json
import Routes.Proofs.RouteData.Spelling
import Routes.Proofs.Table.Load
import Routes.Proofs.Pattern.Mount
import Routes.Proofs.Request.Target
import Routes.Proofs.Table.Mount
import Routes.Proofs.Yaml.Scalar
import Routes.Proofs.Yaml.Layout
import Routes.Proofs.Yaml.Step
import Routes.Proofs.Yaml.Tree
import Routes.Proofs.Yaml.Node
import Routes.Proofs.RouteData.Yaml
import Routes.Proofs.Dispatch.Missing
import Routes.Proofs.Text.Split
import Routes.Proofs.RouteData.List
import Routes.Proofs.Request.Query
import Routes.Proofs.Request.Path
import Routes.Proofs.Request.Absolute
import Routes.Proofs.Table.Absolute
import Routes.Proofs.RouteData.Method
import Routes.Proofs.SourceModule.Lexeme
import Routes.Proofs.SourceModule.Expression
import Routes.Proofs.SourceModule.RouteData
import Routes.Proofs.Table.Register
import Routes.Proofs.Request.Origin
import Routes.Proofs.Table.Origin
import Routes.Proofs.Declaration.Joined
import Routes.Proofs.Token.Resume
import Routes.Proofs.Grammar.Alike
import Routes.Proofs.Grammar.Marks
import Routes.Proofs.Declaration.Notation
import Routes.Proofs.FirstSeen
import Routes.Proofs.Table.Defect
import Routes.Proofs.Table.Grouping
import Routes.Proofs.Text.Slash
import Routes.Proofs.Pattern.Listed
import Routes.Proofs.Table.Listed
import Routes.Proofs.SourceModule.Header
import Routes.Proofs.Declaration.Compile
import Routes.Proofs.Grammar.Phase
import Routes.Proofs.Grammar.Viable
import Routes.Proofs.Declaration.Concat
import Routes.Proofs.Declaration.Layout
import Routes.Proofs.Text.Blank
import Routes.Proofs.RouteData.InPlace
import Routes.Proofs.RouteData.ListEntry
import Routes.Proofs.RouteData.Target
import Routes.Proofs.RouteData.TargetText
import Routes.Proofs.Response.Headers
import Routes.Proofs.FileStore
import Routes.Proofs.SourceModule.Put
import Routes.Proofs.Table.Equal
import Routes.Proofs.Request.Multimap
import Routes.Proofs.Request.Form
import Routes.Proofs.Text.Lower
import Routes.Proofs.Token.Lower
import Routes.Proofs.Declaration.Lower
import Routes.Proofs.Walk.Total
