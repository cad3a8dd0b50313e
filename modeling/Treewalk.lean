import Treewalk.Token
import Treewalk.Number.Layout
import Treewalk.Number.Numeral
import Treewalk.Text.Quoted
import Treewalk.Text.Typed
import Treewalk.Diagnostic
import Treewalk.Token.Piece
import Treewalk.Token.Lexed
import Treewalk.Tree
import Treewalk.Grammar.Step
import Treewalk.Grammar.Statement
import Treewalk.Tree.Sexpr
import Treewalk.Tree.Dump
import Treewalk.Tree.Dump.Read
import Treewalk.Tree.Dump.Json
import Treewalk.Value
import Treewalk.Value.Unseen
import Treewalk.Value.Rendering
import Treewalk.Value.Equality
import Treewalk.Scope
import Treewalk.Value.Operators
import Treewalk.Sink
import Treewalk.Input
import Treewalk.Machine
import Treewalk.Evaluation
import Treewalk.Session
import Treewalk.Report
import Treewalk.Directory
import Treewalk.CommandLine
import Treewalk.Main
import Treewalk.Proofs.Grammar.Soundness
import Treewalk.Proofs.Grammar.Completeness
import Treewalk.Proofs.Session.Restoration
import Treewalk.Proofs.Session.Independence
import Treewalk.Proofs.Value.Bisimilarity
import Treewalk.Proofs.Token.Tiling
import Treewalk.Proofs.Session.Layout
import Treewalk.Proofs.Session.LineByLine
import Treewalk.Proofs.Grammar.Isolation
import Treewalk.Proofs.Session.Footprint
import Treewalk.Proofs.Session.Location
import Treewalk.Proofs.Session.Printing
import Treewalk.Proofs.Number.Reading
import Treewalk.Proofs.Input.Encoding
import Treewalk.Proofs.Session.ReadBack
import Treewalk.Proofs.Tree.Numbers
import Treewalk.Proofs.Tree.RoundTrip
import Treewalk.Proofs.Token.Genuine
import Treewalk.Proofs.Tree.Outline
import Treewalk.Proofs.Session.Outline
import Treewalk.Proofs.ForStd.Sorting
import Treewalk.Proofs.Grammar.Blame
import Treewalk.Proofs.Session.Merging
import Treewalk.Proofs.Evaluation.Trace
import Treewalk.Proofs.Number.Nearest
import Treewalk.Proofs.Session.ScopeChains
import Treewalk.Proofs.Token.LongestMatch
import Treewalk.Proofs.Token.Respacing
import Treewalk.Proofs.Token.LineCounter
import Treewalk.Proofs.Grammar.NormalForm
import Treewalk.Proofs.Grammar.Progress
import Treewalk.Proofs.Grammar.Payment
import Treewalk.Proofs.Grammar.Resumption
import Treewalk.Proofs.Number.Whole
import Treewalk.Proofs.Value.Slots
import Treewalk.Proofs.Session.ArrayBounds
import Treewalk.Proofs.Grammar.EndMark
import Treewalk.Proofs.Value.Comparison
import Treewalk.Proofs.Value.Equivalence
import Treewalk.Proofs.Value.Rendering
import Treewalk.Proofs.Scope.Updates
import Treewalk.Proofs.Number.Acceptance
import Treewalk.Proofs.Evaluation.Steps
import Treewalk.Proofs.Session.Reads
import Treewalk.Proofs.Session.DeadCode
