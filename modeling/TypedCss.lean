import TypedCss.Main
import TypedCss.Proofs.Command
import TypedCss.Proofs.CommandLine.Run
import TypedCss.Proofs.Compile.Concatenation
import TypedCss.Proofs.Compile.Failure
import TypedCss.Proofs.Compile.FixedPoint
import TypedCss.Proofs.Compile.Gate
import TypedCss.Proofs.Compile.Layout
import TypedCss.Proofs.Confinement
import TypedCss.Proofs.Grammar.Append
import TypedCss.Proofs.Grammar.Descent
import TypedCss.Proofs.Grammar.Progress
import TypedCss.Proofs.Inlining
import TypedCss.Proofs.Interference
import TypedCss.Proofs.Report
import TypedCss.Proofs.Token.Longest
import TypedCss.Proofs.Token.Spacing
import TypedCss.Proofs.Typing.Added
import TypedCss.Proofs.Typing.Agreement
import TypedCss.Proofs.Typing.Soundness
import TypedCss.Proofs.Typing.WellTyped
