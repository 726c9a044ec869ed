import Tabletop.Main
import Tabletop.Proofs.Resolution.Coverage
import Tabletop.Proofs.Binding
import Tabletop.Proofs.Schedule
import Tabletop.Proofs.Respacing
import Tabletop.Proofs.Token.Lexeme
import Tabletop.Proofs.Token.Tiling
import Tabletop.Proofs.SyntaxErrors
import Tabletop.Proofs.Resolution.Variables
import Tabletop.Proofs.Catalog.Path
import Tabletop.Proofs.Catalog.History
import Tabletop.Proofs.Restart
import Tabletop.Proofs.Toml
import Tabletop.Proofs.Dice.Success
import Tabletop.Proofs.CommandLine
import Tabletop.Proofs.Console
import Tabletop.Proofs.Dice.Sorting
import Tabletop.Proofs.Source.Uniform
import Tabletop.Proofs.Bell
import Tabletop.Proofs.Number.Order
import Tabletop.Proofs.Number.Arithmetic
