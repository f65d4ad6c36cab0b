import DviMarkup.Text.Utf8
import DviMarkup.Text.Blank
import DviMarkup.Text.Escape
import DviMarkup.Text.Quoted
import DviMarkup.Number.Scalar
import DviMarkup.Number.Binary64
import DviMarkup.Dvi.Decode
import DviMarkup.Dvi.Encode
import DviMarkup.Dvi.Reader
import DviMarkup.Dvi.Describe
import DviMarkup.Stream.Stage
import DviMarkup.Font.Tfm
import DviMarkup.Font.EncodingTable
import DviMarkup.Graphics.Matrix
import DviMarkup.PostScript.Lexeme
import DviMarkup.Command.Pipeline
import DviMarkup.Typesetter.Basic
import DviMarkup.PostScript.Session
import DviMarkup.Typesetter.Execute
import DviMarkup.CommandLine.Arguments
import DviMarkup.CommandLine.Page
import DviMarkup.CommandLine.Run
import DviMarkup.Main
import DviMarkup.Proofs.Dvi.Framing
import DviMarkup.Proofs.Dvi.Delivery
import DviMarkup.Proofs.Dvi.Stability
import DviMarkup.Proofs.Dvi.RoundTrip
import DviMarkup.Proofs.Font.Kerns
import DviMarkup.Proofs.Command.Specials
import DviMarkup.Proofs.Typesetter.Fragments
import DviMarkup.Proofs.Typesetter.Nesting
import DviMarkup.Proofs.Typesetter.Pictures
import DviMarkup.Proofs.Command.Origins
import DviMarkup.Proofs.Command.Separation
import DviMarkup.Proofs.Command.Cuts
import DviMarkup.Proofs.Typesetter.Elements
import DviMarkup.Proofs.Typesetter.Output
import DviMarkup.Proofs.Typesetter.Strictness
import DviMarkup.Proofs.Typesetter.Agreement
import DviMarkup.Proofs.Typesetter.Joining
import DviMarkup.Proofs.Typesetter.Scale
import DviMarkup.Proofs.Typesetter.Apart
import DviMarkup.Proofs.Typesetter.Failing
import DviMarkup.Proofs.Typesetter.Brackets
import DviMarkup.Proofs.Typesetter.Registers
import DviMarkup.Proofs.Typesetter.Transforms
import DviMarkup.Proofs.PostScript.InTurn
import DviMarkup.Proofs.PostScript.Literals
import DviMarkup.Proofs.PostScript.Faults
import DviMarkup.Proofs.Typesetter.Pages
import DviMarkup.Proofs.Typesetter.Fonts
import DviMarkup.Proofs.Typesetter.Colors
import DviMarkup.Proofs.CommandLine.Outcome
import DviMarkup.Proofs.Command.Orders
import DviMarkup.Proofs.Stream.Merging
import DviMarkup.Proofs.Dvi.Calls
import DviMarkup.Proofs.Dvi.Shortest
import DviMarkup.Proofs.Typesetter.Lines
import DviMarkup.Proofs.Typesetter.ImageNames
import DviMarkup.Proofs.Typesetter.Descriptions
import DviMarkup.Proofs.PostScript.Boundaries
import DviMarkup.Proofs.PostScript.Marks
import DviMarkup.Proofs.Typesetter.Splitting
