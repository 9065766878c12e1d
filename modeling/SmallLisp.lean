import SmallLisp.CommandLine.Program
import SmallLisp.Definition
import SmallLisp.Main
import SmallLisp.Workspace
import SmallLisp.Proofs.Evaluation.Discipline
import SmallLisp.Proofs.Evaluation.Contents
import SmallLisp.Proofs.Evaluation.Reach
import SmallLisp.Proofs.Number.Double
import SmallLisp.Proofs.Number.Numeral
import SmallLisp.Proofs.Number.Spelling
import SmallLisp.Proofs.Number.Writing
import SmallLisp.Proofs.Service.Answers
import SmallLisp.Proofs.Session.Arity
import SmallLisp.Proofs.Session.Reachable
import SmallLisp.Proofs.Session.Scopes
import SmallLisp.Proofs.Source.Grammar
import SmallLisp.Proofs.Source.RoundTrip
import SmallLisp.Proofs.Service.Requests
import SmallLisp.Proofs.Source.Descent
import SmallLisp.Proofs.Json.Written
import SmallLisp.Proofs.Json.Objects
import SmallLisp.Proofs.Service.Wire
import SmallLisp.Proofs.Session.Host
import SmallLisp.Proofs.Session.Room
import SmallLisp.Proofs.Evaluation.Parameters
import SmallLisp.Proofs.Text.Alphabet
import SmallLisp.Proofs.Session.Lexical
import SmallLisp.Proofs.Session.OneLine
import SmallLisp.Proofs.Session.ReadBack
import SmallLisp.Proofs.Session.FrontEnds
import SmallLisp.Proofs.Session.Naming
import SmallLisp.Proofs.Session.Transcript
import SmallLisp.Proofs.Source.NormalForm
import SmallLisp.Proofs.Evaluation.Writes
import SmallLisp.Proofs.Session.Conditionals
import SmallLisp.Proofs.Evaluation.Renaming
import SmallLisp.Proofs.Session.Unused
import SmallLisp.Proofs.Source.Munch
import SmallLisp.Proofs.Evaluation.Binding
import SmallLisp.Proofs.Primitive.Comparison
import SmallLisp.Proofs.Service.Octets
