import Stratagem.Main
import Stratagem.Node.Equality
import Stratagem.Node.Literal
import Stratagem.Parse.Session
import Stratagem.Token.Session
import Stratagem.Proofs.CommandLine.Exit
import Stratagem.Proofs.Dialogue
import Stratagem.Proofs.Drawing
import Stratagem.Proofs.Grammar.Precedence
import Stratagem.Proofs.Listing.Agreement
import Stratagem.Proofs.Node.Refused
import Stratagem.Proofs.Parse.Cursor
import Stratagem.Proofs.Parse.Lookahead
import Stratagem.Proofs.Parse.Marker
import Stratagem.Proofs.Source.Composition
import Stratagem.Proofs.Source.Expected
import Stratagem.Proofs.Source.Layout
import Stratagem.Proofs.Source.Unmarked
import Stratagem.Proofs.Source.Words
import Stratagem.Proofs.Token.Cursor
import Stratagem.Proofs.Token.Final
import Stratagem.Proofs.Token.Literal
