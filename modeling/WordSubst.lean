import WordSubst.Command.Run
import WordSubst.Error
import WordSubst.Finder
import WordSubst.Main
import WordSubst.Pattern
import WordSubst.Proofs.Choice
import WordSubst.Proofs.Command.Status
import WordSubst.Proofs.Finder.Coverage
import WordSubst.Proofs.Finder.Fit
import WordSubst.Proofs.Finder.Regex
import WordSubst.Proofs.Finder.Scan
import WordSubst.Proofs.Pattern.Concatenation
import WordSubst.Proofs.Pattern.Escape
import WordSubst.Proofs.Pattern.Grammar
import WordSubst.Proofs.Pattern.Malformed
import WordSubst.Proofs.Pattern.Numeral
import WordSubst.Proofs.Pattern.Overflow
import WordSubst.Proofs.Pattern.RoundTrip
import WordSubst.Proofs.Rule.Characters
import WordSubst.Proofs.Rule.Diagnostics
import WordSubst.Proofs.Rule.FirstFault
import WordSubst.Proofs.Rule.Locality
import WordSubst.Proofs.Rule.Pairing
import WordSubst.Proofs.Rule.Reordering
import WordSubst.Proofs.Rule.Shadowing
import WordSubst.Proofs.Rule.SinglePosition
import WordSubst.Proofs.Rule.Splice
import WordSubst.Proofs.Rule.Words
import WordSubst.Proofs.Stream.Sources
import WordSubst.Proofs.Stream.Transcript
import WordSubst.Proofs.Stream.WholeText
import WordSubst.Proofs.Text.CharEdge
import WordSubst.Proofs.Text.Quoted
import WordSubst.Rule
import WordSubst.Stream
import WordSubst.Text.Bytes
import WordSubst.Text.Display
