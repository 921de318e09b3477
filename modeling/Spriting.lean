import Spriting.Text.Blank
import Spriting.Text.Word
import Spriting.Text.Quoted
import Spriting.Text.Integer
import Spriting.Text.Case
import Spriting.Css.Node
import Spriting.Css.Reader
import Spriting.Css.Terminal
import Spriting.Css.Parser
import Spriting.Css.Printer
import Spriting.Background.Group
import Spriting.Background.Placement
import Spriting.Layout.Algorithm
import Spriting.Build.Marker
import Spriting.Digest.Kind
import Spriting.Sprite.Pack
import Spriting.Config.Options
import Spriting.Build.Process
import Spriting.Main
import Spriting.Proofs.Layout.Order
import Spriting.Proofs.Layout.Stacking
import Spriting.Proofs.Layout.Arrangement
import Spriting.Proofs.Layout.Columns
import Spriting.Proofs.Layout.Tiling
import Spriting.Proofs.Layout.Spanning
import Spriting.Proofs.Layout.Room
import Spriting.Proofs.Layout.Reordering
import Spriting.Proofs.Image.Composition
import Spriting.Proofs.Image.Lossless
import Spriting.Proofs.Sprite.Faithful
import Spriting.Proofs.Sprite.Reordering
import Spriting.Proofs.Sprite.Spacing
import Spriting.Proofs.Sprite.Clear
import Spriting.Proofs.Sprite.Loading
import Spriting.Proofs.Files.Making
import Spriting.Proofs.Files.Downward
import Spriting.Proofs.Emission.Writing
import Spriting.Proofs.Emission.Confinement
import Spriting.Proofs.Emission.Naming
import Spriting.Proofs.Text.Lowering
import Spriting.Proofs.Css.Reading
import Spriting.Proofs.Css.Numbering
import Spriting.Proofs.Css.Editing
import Spriting.Proofs.Css.Freshness
import Spriting.Proofs.Css.Pieces
import Spriting.Proofs.Css.Lexemes
import Spriting.Proofs.Css.Preludes
import Spriting.Proofs.Css.SelectorRun
import Spriting.Proofs.Css.Cutting
import Spriting.Proofs.Css.SelectorList
import Spriting.Proofs.Css.Steps
import Spriting.Proofs.Css.Blocks
import Spriting.Proofs.Css.Printing
import Spriting.Proofs.Css.Quietness
import Spriting.Proofs.Css.Standing
import Spriting.Proofs.Css.RoundTrip
import Spriting.Proofs.Css.Compression
import Spriting.Proofs.Css.Written
import Spriting.Proofs.Css.Legibility
import Spriting.Proofs.Css.Pattern
import Spriting.Proofs.Css.Grammar
import Spriting.Proofs.Css.Derivations
import Spriting.Proofs.Css.Acceptance
import Spriting.Proofs.Css.Passing
import Spriting.Proofs.Css.Appending
import Spriting.Proofs.Css.Completing
import Spriting.Proofs.Css.Swallowing
import Spriting.Proofs.Css.Rewording
import Spriting.Proofs.Css.Commenting
import Spriting.Proofs.Css.BlankLists
import Spriting.Proofs.Css.Splitting
import Spriting.Proofs.Background.Grouping
import Spriting.Proofs.Background.Partition
import Spriting.Proofs.Background.InEffect
import Spriting.Proofs.Background.Placing
import Spriting.Proofs.Background.Holding
import Spriting.Proofs.Background.Exact
import Spriting.Proofs.Background.AnyOrder
import Spriting.Proofs.Background.Declaring
import Spriting.Proofs.Background.Remaining
import Spriting.Proofs.Background.Deciding
import Spriting.Proofs.Background.OptOut
import Spriting.Proofs.Background.Quoting
import Spriting.Proofs.Background.References
import Spriting.Proofs.Background.Decision
import Spriting.Proofs.Background.ImageNames
import Spriting.Proofs.Background.Repeating
import Spriting.Proofs.Background.Lasting
import Spriting.Proofs.Build.Run
import Spriting.Proofs.Build.Sprited
import Spriting.Proofs.Build.Placing
import Spriting.Proofs.Build.Failure
import Spriting.Proofs.Build.Heads
import Spriting.Proofs.Build.Frame
import Spriting.Proofs.Build.Leading
import Spriting.Proofs.Build.InEffect
import Spriting.Proofs.Build.Events
import Spriting.Proofs.Build.Keeping
import Spriting.Proofs.Build.ReadBack
import Spriting.Proofs.Build.Exhaustion
import Spriting.Proofs.Build.Unnamed
