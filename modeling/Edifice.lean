import Edifice.Dictionary
import Edifice.Text.Alphanumeric
import Edifice.Text.Decimal
import Edifice.Workspace
import Edifice.Builder.Decisions
import Edifice.Builder.Instances
import Edifice.Builder.Items
import Edifice.Builder.Selections
import Edifice.Builder.Views
import Edifice.Identifier.Registry
import Edifice.Source.Lexer
import Edifice.Diagnostic.Failure
import Edifice.Decision.Record
import Edifice.Resolver
import Edifice.Language.Session
import Edifice.Language.Advice
import Edifice.Language.Items
import Edifice.Language.Workspaces
import Edifice.Language.Styles
import Edifice.Language.Elements
import Edifice.Language.Dynamics
import Edifice.Language.Interpreter
import Edifice.Summary
import Edifice.Files.Resolver
import Edifice.Settings.Options
import Edifice.Program.Report
import Edifice.Program.CommandLine
import Edifice.Main
import Edifice.Proofs.Model.Skeleton
import Edifice.Proofs.Model.Containment
import Edifice.Proofs.Model.Extension
import Edifice.Proofs.Text
import Edifice.Proofs.Ordered
import Edifice.Proofs.Model.Items
import Edifice.Proofs.Decision.Record
import Edifice.Proofs.View.Eligibility
import Edifice.Proofs.View.Edits
import Edifice.Proofs.Builder.Calls
import Edifice.Proofs.Builder.Refusal
import Edifice.Proofs.Builder.Stock
import Edifice.Proofs.Builder.Growth
import Edifice.Proofs.Builder.Containment
import Edifice.Proofs.Builder.CanonicalNames
import Edifice.Proofs.Builder.Declarations
import Edifice.Proofs.Builder.Authorship
import Edifice.Proofs.Builder.Relationships
import Edifice.Proofs.Builder.Implication
import Edifice.Proofs.Identifier.Names
import Edifice.Proofs.Identifier.Resolution
import Edifice.Proofs.Language.Declarations
import Edifice.Proofs.Language.Courses
import Edifice.Proofs.Language.Runs
import Edifice.Proofs.Language.Naming
import Edifice.Proofs.Language.Paths
import Edifice.Proofs.Builder.Keys
import Edifice.Proofs.Builder.Drawing
import Edifice.Proofs.Builder.Views
import Edifice.Proofs.Builder.Environments
import Edifice.Proofs.Builder.Deployment
import Edifice.Proofs.Builder.Replication
import Edifice.Proofs.Builder.Mirroring
import Edifice.Proofs.Builder.Frames
import Edifice.Proofs.Builder.Decisions
import Edifice.Proofs.Builder.Filling
import Edifice.Proofs.Builder.Referents
import Edifice.Proofs.Builder.Selections
import Edifice.Proofs.Source.Lexemes
import Edifice.Proofs.Matches
import Edifice.Proofs.Language.Places
import Edifice.Proofs.Language.Relocation
import Edifice.Proofs.Language.Faults
import Edifice.Proofs.Language.Restriction
import Edifice.Proofs.Language.Coherence
import Edifice.Proofs.Language.Statements
import Edifice.Proofs.Language.Readings
import Edifice.Proofs.Language.Replay
import Edifice.Proofs.Language.Promotion
import Edifice.Proofs.Language.Bracketing
import Edifice.Proofs.Language.Comments
import Edifice.Proofs.Language.Inclusion
import Edifice.Proofs.Language.Lines
import Edifice.Proofs.Language.Outlines
import Edifice.Proofs.Language.Forms
import Edifice.Proofs.Language.Nesting
import Edifice.Proofs.Source.Writing
import Edifice.Proofs.Source.Offsets
import Edifice.Proofs.Language.Endings
import Edifice.Proofs.Source.Boundaries
import Edifice.Proofs.Language.Labels
import Edifice.Proofs.Language.Placement
import Edifice.Proofs.Builder.Items
import Edifice.Proofs.Builder.Properties
import Edifice.Proofs.Language.Properties
import Edifice.Proofs.Builder.Duplicates
import Edifice.Proofs.Builder.Numbering
import Edifice.Proofs.Builder.Interactions
import Edifice.Proofs.Language.Dynamics
import Edifice.Proofs.Language.Unclosed
import Edifice.Proofs.Builder.Coverage
import Edifice.Proofs.Language.Selections
import Edifice.Proofs.Builder.ViewKeys
import Edifice.Proofs.Language.Environments
import Edifice.Proofs.Source.Continuations
import Edifice.Proofs.Language.Substitution
import Edifice.Proofs.Language.Couplings
import Edifice.Proofs.Summary
