import ScreenTree.Config
import ScreenTree.Identity
import ScreenTree.Node.Visitor
import ScreenTree.Operation
import ScreenTree.Output.Disk
import ScreenTree.Output.Memory
import ScreenTree.Script.Printer
import ScreenTree.Script.Reader
import ScreenTree.Script.Transform
import ScreenTree.Proofs.Move
import ScreenTree.Proofs.Journal
import ScreenTree.Proofs.Independence
import ScreenTree.Proofs.Interchange
import ScreenTree.Proofs.Walk
import ScreenTree.Proofs.Markup.Style
import ScreenTree.Proofs.Markup.Strictness
import ScreenTree.Proofs.Root
import ScreenTree.Proofs.Imports
import ScreenTree.Proofs.Markup.Nesting
import ScreenTree.Proofs.Retyping
import ScreenTree.Proofs.Names
import ScreenTree.Proofs.Provenance
import ScreenTree.Proofs.Reload
import ScreenTree.Proofs.Markup.Drawn
import ScreenTree.Proofs.Distinct
import ScreenTree.Proofs.Opacity
import ScreenTree.Proofs.Registration
import ScreenTree.Proofs.Markup.Agreement
import ScreenTree.Proofs.Markup.Leniency
import ScreenTree.Proofs.Importable
import ScreenTree.Proofs.Relocation
import ScreenTree.Proofs.Reversal
import ScreenTree.Proofs.Overwriting
import ScreenTree.Proofs.Markup.Flattening
import ScreenTree.Proofs.Markup.Wrapping
import ScreenTree.Proofs.Script.Renaming
import ScreenTree.Proofs.Script.Commuting
import ScreenTree.Proofs.Searches
import ScreenTree.Proofs.Registries
import ScreenTree.Proofs.Components
import ScreenTree.Proofs.Sinks
import ScreenTree.Proofs.Json.MemberOrder
import ScreenTree.Proofs.Reordering
import ScreenTree.Proofs.Json.Pieces
import ScreenTree.Proofs.Json.Layout
import ScreenTree.Proofs.Identity
import ScreenTree.Proofs.Traversal
