import PromptAssembly.Assembly.Fragments
import PromptAssembly.Binary64
import PromptAssembly.Binary64.Shortest
import PromptAssembly.Cache
import PromptAssembly.Cache.Script
import PromptAssembly.CommandLine
import PromptAssembly.CommandLine.Arguments
import PromptAssembly.CommandLine.Command
import PromptAssembly.CommandLine.Output
import PromptAssembly.Dict
import PromptAssembly.Digest.Sha256
import PromptAssembly.Document
import PromptAssembly.Files
import PromptAssembly.Files.Path
import PromptAssembly.Json
import PromptAssembly.Json.Printer
import PromptAssembly.Json.Reader
import PromptAssembly.Logging.Start
import PromptAssembly.Main
import PromptAssembly.Prompt.Assembled
import PromptAssembly.Prompt.Config
import PromptAssembly.Prompt.Defaults
import PromptAssembly.Prompt.Manifest
import PromptAssembly.Prompt.Printer
import PromptAssembly.Prompt.Reader
import PromptAssembly.Prompt.Report
import PromptAssembly.Proofs.Assembly.Appending
import PromptAssembly.Proofs.Assembly.CleanReports
import PromptAssembly.Proofs.Assembly.Coherence
import PromptAssembly.Proofs.Assembly.Precedence
import PromptAssembly.Proofs.Assembly.Registration
import PromptAssembly.Proofs.Assembly.Replies
import PromptAssembly.Proofs.Assembly.Requirements
import PromptAssembly.Proofs.Assembly.Suffixes
import PromptAssembly.Proofs.Assembly.Transparency
import PromptAssembly.Proofs.Cache.Clearing
import PromptAssembly.Proofs.Cache.Gating
import PromptAssembly.Proofs.Cache.Generations
import PromptAssembly.Proofs.Cache.Handles
import PromptAssembly.Proofs.Cache.Insertion
import PromptAssembly.Proofs.Cache.Leftovers
import PromptAssembly.Proofs.Cache.Loading
import PromptAssembly.Proofs.Cache.SingleFlight
import PromptAssembly.Proofs.Cache.Traffic
import PromptAssembly.Proofs.Document.Arrival
import PromptAssembly.Proofs.Document.Form
import PromptAssembly.Proofs.Document.Shown
import PromptAssembly.Proofs.Files.Following
import PromptAssembly.Proofs.Files.Listing
import PromptAssembly.Proofs.Files.Making
import PromptAssembly.Proofs.Files.Paths
import PromptAssembly.Proofs.Files.Trees
import PromptAssembly.Proofs.Prompt.Completing
import PromptAssembly.Proofs.Prompt.Forms
import PromptAssembly.Proofs.Prompt.Reading
import PromptAssembly.Proofs.Prompt.Reporting
import PromptAssembly.Proofs.Prompt.RoundTrip
import PromptAssembly.Proofs.Prompt.Stability
import PromptAssembly.Proofs.Prompt.Storing
import PromptAssembly.Proofs.Repository.Confinement
import PromptAssembly.Proofs.Repository.FailedSaves
import PromptAssembly.Proofs.Repository.Keeping
import PromptAssembly.Proofs.Repository.Listing
import PromptAssembly.Proofs.Repository.Lookup
import PromptAssembly.Proofs.Repository.Saving
import PromptAssembly.Proofs.Repository.Searching
import PromptAssembly.Proofs.Settings.Leaves
import PromptAssembly.Proofs.Settings.Merging
import PromptAssembly.Proofs.Settings.Orders
import PromptAssembly.Proofs.Settings.Precedence
import PromptAssembly.Proofs.Settings.Respelling
import PromptAssembly.Proofs.Settings.Variables
import PromptAssembly.Proofs.Template.Afresh
import PromptAssembly.Proofs.Template.Dependence
import PromptAssembly.Proofs.Template.Effort
import PromptAssembly.Proofs.Template.Failures
import PromptAssembly.Proofs.Template.Filling
import PromptAssembly.Proofs.Template.Flat
import PromptAssembly.Proofs.Template.Joining
import PromptAssembly.Proofs.Template.Passes
import PromptAssembly.Proofs.Template.References
import PromptAssembly.Proofs.Template.Rendering
import PromptAssembly.Proofs.Template.Runs
import PromptAssembly.Proofs.Template.Scanning
import PromptAssembly.Proofs.Template.Stepwise
import PromptAssembly.Proofs.Template.Table
import PromptAssembly.Proofs.Template.Tidy
import PromptAssembly.Proofs.Template.Unbound
import PromptAssembly.Proofs.Template.Unfolding
import PromptAssembly.Proofs.Yaml.Spelling
import PromptAssembly.Registry
import PromptAssembly.Repository
import PromptAssembly.Repository.Directory
import PromptAssembly.Repository.Memory
import PromptAssembly.Repository.Probe
import PromptAssembly.Settings
import PromptAssembly.Settings.Format
import PromptAssembly.Settings.Locations
import PromptAssembly.Settings.Tree
import PromptAssembly.Settings.Value
import PromptAssembly.Template
import PromptAssembly.Template.Placeholder
import PromptAssembly.Template.Renderer
import PromptAssembly.Template.SinglePass
import PromptAssembly.Text
import PromptAssembly.Text.Grid
import PromptAssembly.Text.LowerCase
import PromptAssembly.Text.Number
import PromptAssembly.Toml.Reader
import PromptAssembly.Toml.Scalar
import PromptAssembly.Toml.Table
import PromptAssembly.Yaml.Node
import PromptAssembly.Yaml.Plain
import PromptAssembly.Yaml.Printer
import PromptAssembly.Yaml.Reader
import PromptAssembly.Yaml.Scalar
import PromptAssembly.Yaml.Text
import PromptAssembly.Yaml.Token
