import ComposeNix.CommandLine.Options
import ComposeNix.CommandLine.Run
import ComposeNix.Compose.Backend
import ComposeNix.Compose.Manifest
import ComposeNix.Compose.Service
import ComposeNix.Container.Declaration
import ComposeNix.Container.Options
import ComposeNix.Conversion
import ComposeNix.Dictionary
import ComposeNix.EnvFile
import ComposeNix.Main
import ComposeNix.Nix.Document
import ComposeNix.Nix.Expr
import ComposeNix.Nix.Text
import ComposeNix.Notice
import ComposeNix.Number.Binary64
import ComposeNix.Number.Literal
import ComposeNix.Number.Shortest
import ComposeNix.Routing.Configuration
import ComposeNix.Routing.Labels
import ComposeNix.Routing.Reading
import ComposeNix.Routing.Rule
import ComposeNix.Session
import ComposeNix.Shell.Word
import ComposeNix.Systemd.Lifecycle
import ComposeNix.Systemd.Override
import ComposeNix.Template
import ComposeNix.Text.Base64
import ComposeNix.Text.Blank
import ComposeNix.Text.Lines
import ComposeNix.Text.LowerCase
import ComposeNix.Text.Printable
import ComposeNix.Text.Quoted
import ComposeNix.Text.Similarity
import ComposeNix.Text.Split
import ComposeNix.Text.Terminal
import ComposeNix.Text.Utf8
import ComposeNix.Timestamp
import ComposeNix.Url
import ComposeNix.Url.Address
import ComposeNix.Url.Domain
import ComposeNix.Url.Punycode
import ComposeNix.Validation
import ComposeNix.Value
import ComposeNix.Value.Coercion
import ComposeNix.Value.Text
import ComposeNix.Yaml.Cursor
import ComposeNix.Yaml.Fault
import ComposeNix.Yaml.Grade
import ComposeNix.Yaml.Load
import ComposeNix.Yaml.Mark
import ComposeNix.Yaml.Meaning
import ComposeNix.Yaml.Node
import ComposeNix.Yaml.Node.Reader
import ComposeNix.Yaml.Schema
import ComposeNix.Yaml.Token
import ComposeNix.Yaml.Token.Block
import ComposeNix.Yaml.Token.Lexer
import ComposeNix.Yaml.Token.Plain
import ComposeNix.Yaml.Token.Property
import ComposeNix.Yaml.Token.Quoted
import ComposeNix.Proofs.Compose.Canonical
import ComposeNix.Proofs.Compose.Distinct
import ComposeNix.Proofs.Compose.Fields
import ComposeNix.Proofs.Compose.Manifest
import ComposeNix.Proofs.Compose.Service
import ComposeNix.Proofs.Compose.Shape
import ComposeNix.Proofs.Compose.Spelling
import ComposeNix.Proofs.Compose.Written
import ComposeNix.Proofs.Container.Declaration
import ComposeNix.Proofs.Container.Parts
import ComposeNix.Proofs.Conversion
import ComposeNix.Proofs.Dictionary
import ComposeNix.Proofs.Faults
import ComposeNix.Proofs.Module.Containers
import ComposeNix.Proofs.Module.Fields
import ComposeNix.Proofs.Module.Outline
import ComposeNix.Proofs.Module.Texts
import ComposeNix.Proofs.Module.Units
import ComposeNix.Proofs.Nix.Collapse
import ComposeNix.Proofs.Nix.Fields
import ComposeNix.Proofs.Nix.Layout
import ComposeNix.Proofs.Nix.Nesting
import ComposeNix.Proofs.Nix.Outline
import ComposeNix.Proofs.Nix.Plain
import ComposeNix.Proofs.Nix.Texts
import ComposeNix.Proofs.Nix.Token
import ComposeNix.Proofs.Nix.Tree
import ComposeNix.Proofs.Outcome
import ComposeNix.Proofs.Routing.Configuration
import ComposeNix.Proofs.Routing.Drafts
import ComposeNix.Proofs.Routing.Labels
import ComposeNix.Proofs.Routing.Names
import ComposeNix.Proofs.Session.Assembly
import ComposeNix.Proofs.Session.Networks
import ComposeNix.Proofs.Session.Refusal
import ComposeNix.Proofs.Session.Run
import ComposeNix.Proofs.Shell.Word
import ComposeNix.Proofs.Systemd.Lifecycle
import ComposeNix.Proofs.Systemd.Override
import ComposeNix.Proofs.Template
import ComposeNix.Proofs.Yaml.Keys
import ComposeNix.Proofs.Yaml.Lexer
import ComposeNix.Proofs.Yaml.Reader
import ComposeNix.Proofs.Yaml.Schema
import ComposeNix.Proofs.Yaml.Untagged
import ComposeNix.Proofs.Routing.Written
import ComposeNix.Proofs.CommandLine.Request
import ComposeNix.Proofs.Module.Listing
import ComposeNix.Proofs.Module.Resources
import ComposeNix.Proofs.CommandLine.Ending
import ComposeNix.Proofs.CommandLine.Overview
import ComposeNix.Proofs.CommandLine.Delivery
import ComposeNix.Proofs.CommandLine.Files
import ComposeNix.Proofs.Nix.Name
import ComposeNix.Proofs.Routing.Consumers
import ComposeNix.Proofs.Routing.Order
import ComposeNix.Proofs.Text.Utf8
import ComposeNix.Proofs.Url
import ComposeNix.Proofs.Number.Literal
import ComposeNix.Proofs.Routing.Address
import ComposeNix.Proofs.Routing.Matcher
import ComposeNix.Proofs.Routing.Reading
import ComposeNix.Proofs.Routing.Derived
import ComposeNix.Proofs.Routing.Block
import ComposeNix.Proofs.Yaml.Grammar
import ComposeNix.Proofs.Yaml.Resolution
import ComposeNix.Proofs.Yaml.Denotation
import ComposeNix.Proofs.Yaml.Word
import ComposeNix.Proofs.Yaml.Json
import ComposeNix.Proofs.Yaml.CoreSchema
import ComposeNix.Proofs.CommandLine.Routes
import ComposeNix.Proofs.Compose.Isolation
import ComposeNix.Proofs.Compose.LongForm
import ComposeNix.Proofs.Systemd.Settings
import ComposeNix.Proofs.Value.Integers
import ComposeNix.Proofs.Text.Split
import ComposeNix.Proofs.Container.Options
import ComposeNix.Proofs.Nix.Document
import ComposeNix.Proofs.Nix.Lines
import ComposeNix.Proofs.Routing.Halves
import ComposeNix.Proofs.Nix.Runs
import ComposeNix.Proofs.Value.Lookup
import ComposeNix.Proofs.Routing.Accepted
