import Stencil.Numeral.Binary64
import Stencil.Numeral.Digits
import Stencil.Text.Casing
import Stencil.Text.Quoted
import Stencil.Encoding.Charset
import Stencil.Encoding.Base64
import Stencil.Encoding.Escape
import Stencil.Numeral.General
import Stencil.Numeral.Reading
import Stencil.Error
import Stencil.Scanner.Basic
import Stencil.Scanner.Literals
import Stencil.Expr.Reading
import Stencil.Template.Reading
import Stencil.Environment.Basic
import Stencil.Environment.Loading
import Stencil.Template.Rendering
import Stencil.FileTree.Opening
import Stencil.CommandLine.Arguments
import Stencil.CommandLine.Run
import Stencil.Main
import Stencil.Encoding.Delivery
import Stencil.Proofs.Scanner.Locality
import Stencil.Proofs.Expr.Nesting
import Stencil.Proofs.Expr.Locality
import Stencil.Proofs.Expr.Readings
import Stencil.Proofs.Expr.Evaluation
import Stencil.Proofs.Expr.Grouping
import Stencil.Proofs.Template.Source
import Stencil.Proofs.Expr.Literals
import Stencil.Proofs.Expr.Printing
import Stencil.Proofs.Scanner.StraySigns
import Stencil.Proofs.Expr.Numbers
import Stencil.Proofs.Expr.StraySigns
import Stencil.Proofs.Template.StraySigns
import Stencil.Proofs.Expr.Applications
import Stencil.Proofs.Template.Applications
import Stencil.Proofs.Template.Faults
import Stencil.Proofs.Template.Restoration
import Stencil.Proofs.Template.FreeNames
import Stencil.Proofs.Expr.Range
import Stencil.Proofs.Stream.Cursor
import Stencil.Proofs.Scanner.Chunks
import Stencil.Proofs.Expr.Chunks
import Stencil.Proofs.Stream.Requests
import Stencil.Proofs.Description.Statements
import Stencil.Proofs.Description.Numbers
import Stencil.Proofs.Description.Lexemes
import Stencil.Proofs.Description.Assignments
import Stencil.Proofs.Description.Composition
import Stencil.Proofs.Description.Comments
import Stencil.Proofs.Description.Printing
import Stencil.Proofs.Scanner.Contracts
import Stencil.Proofs.Expr.Contracts
import Stencil.Proofs.Template.Contracts
import Stencil.Proofs.Scanner.Places
import Stencil.Proofs.Description.Places
import Stencil.Proofs.Environment.Histories
import Stencil.Proofs.Template.WellFormed
import Stencil.Proofs.Expr.Sums
import Stencil.Proofs.Template.Concatenation
import Stencil.Proofs.CommandLine.Isolation
import Stencil.Proofs.Expr.Precedence
import Stencil.Proofs.Numeral.Grammar
import Stencil.Proofs.Numeral.LongestMatch
import Stencil.Proofs.Numeral.Integers
import Stencil.Proofs.Description.Failures
import Stencil.Proofs.Value.Lexicographic
import Stencil.Proofs.Value.Conversion
import Stencil.Proofs.Value.Plain
import Stencil.Proofs.Environment.Merging
import Stencil.Proofs.Template.Lockstep
import Stencil.Proofs.Environment.FailedPush
import Stencil.Proofs.Expr.Embedded
import Stencil.Proofs.Expr.Strictness
import Stencil.Proofs.Encoding.Base64
import Stencil.Proofs.Encoding.Escape
import Stencil.Proofs.Filter.Pipelines
import Stencil.Proofs.Template.Diagnostics
import Stencil.Proofs.Template.FailStop
