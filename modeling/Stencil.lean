import Stencil.Config.Yaml
import Stencil.Engine
import Stencil.Locator.Files
import Stencil.Proofs.Rendering.Moments
import Stencil.Proofs.Rendering.ScopeDiscipline
import Stencil.Proofs.Text.Blank
import Stencil.Proofs.Text.Search
import Stencil.Proofs.Token.Reads
import Stencil.Proofs.Token.Printing
import Stencil.Proofs.Argument.Words
import Stencil.Proofs.Tree.HelperCall
import Stencil.Proofs.Tree.Change
import Stencil.Proofs.Tree.Document
import Stencil.Proofs.Tree.Walk
import Stencil.Proofs.Tree.Rejection
import Stencil.Proofs.Token.Contents
import Stencil.Proofs.Standalone.Lines
import Stencil.Proofs.Tree.OpenBlocks
import Stencil.Proofs.Standalone.Else
import Stencil.Proofs.Compile
import Stencil.Proofs.Tree.Bare
import Stencil.Proofs.Tree.Contents
import Stencil.Proofs.Standalone.Trimming
import Stencil.Proofs.Effect
import Stencil.Proofs.Scope
import Stencil.Proofs.Ordered
import Stencil.Proofs.Locator
import Stencil.Proofs.Rendering.Matching
import Stencil.Proofs.Rendering.Recursion
import Stencil.Proofs.Rendering.Refusals
import Stencil.Proofs.Helper.Trusted
import Stencil.Proofs.Tree.Calls
import Stencil.Proofs.Rendering.Limits
import Stencil.Proofs.Engine.Find
import Stencil.Proofs.Engine.Limits
import Stencil.Proofs.Engine.Caching
import Stencil.Proofs.Engine.AddedTemplates
import Stencil.Proofs.Rendering.Sections
import Stencil.Proofs.Sink
import Stencil.Proofs.Helper.Heeding
import Stencil.Proofs.Rendering.Following
import Stencil.Proofs.Engine.Sinks
import Stencil.Proofs.Engine.History
import Stencil.Proofs.Engine.Coherence
import Stencil.Proofs.Engine.Verbatim
import Stencil.Proofs.Decimal.Numeral
import Stencil.Proofs.Argument.Printing
import Stencil.Proofs.Tree.Roundtrip
import Stencil.Proofs.Engine.Unmentioned
import Stencil.Proofs.Engine.Markup
import Stencil.Proofs.Tree.Agreement
import Stencil.Proofs.Rendering.Success
import Stencil.Proofs.Standalone.Indents
import Stencil.Proofs.Tree.WellFormed
import Stencil.Proofs.Locator.Files
import Stencil.Proofs.Tree.Renaming
import Stencil.Proofs.Engine.Precompiling
import Stencil.Proofs.Naming
import Stencil.Proofs.Resolver
import Stencil.Proofs.Engine.Lookups
import Stencil.Proofs.Rendering.Iterations
import Stencil.Proofs.Standalone.Enclosed
import Stencil.Proofs.Tree.Enclosed
import Stencil.Proofs.Engine.Blocks
import Stencil.Proofs.Engine.Iterations
import Stencil.Proofs.Helper.GivingUp
import Stencil.Proofs.Rendering.Entailing
import Stencil.Proofs.Rendering.Inclusions
import Stencil.Proofs.Engine.Inclusions
import Stencil.Proofs.Helper.Conditional
import Stencil.Proofs.Rendering.Calls
import Stencil.Proofs.Rendering.Conditionals
import Stencil.Proofs.Rendering.HelperForms
import Stencil.Proofs.Engine.HelperForms
import Stencil.Proofs.Bisection
import Stencil.Proofs.Chain
import Stencil.Proofs.Engine.Strategies
import Stencil.Proofs.Engine.Globals
import Stencil.Proofs.Locator.FileIndex
import Stencil.Proofs.Tree.Spelling
import Stencil.Proofs.Argument.Integers
import Stencil.Proofs.Engine.Locators
import Stencil.Proofs.Argument.Quoting
import Stencil.Proofs.Text.Entities
import Stencil.Proofs.Value
import Stencil.Proofs.Rendering.Congruence
import Stencil.Proofs.Rendering.Deepening
import Stencil.Proofs.Rendering.Indenting
import Stencil.Proofs.Rendering.Chains
import Stencil.Proofs.Engine.Chains
