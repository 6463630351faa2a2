import Precedence.Grammar.Listing
import Precedence.Grammar.Stock
import Precedence.Json.Fraction
import Precedence.Main
import Precedence.Proofs.Building.Contents
import Precedence.Proofs.Building.Endings
import Precedence.Proofs.Building.Refusals
import Precedence.Proofs.Building.Priorities
import Precedence.Proofs.Building.Renewal
import Precedence.Proofs.Building.Tokenization
import Precedence.Proofs.Calculator.Agreement
import Precedence.Proofs.Calculator.Canonical
import Precedence.Proofs.Calculator.Composition
import Precedence.Proofs.Calculator.Language
import Precedence.Proofs.Calculator.Parallels
import Precedence.Proofs.Calculator.Printing
import Precedence.Proofs.Calculator.Rereading
import Precedence.Proofs.Exact.Obtained
import Precedence.Proofs.Exact.Powers
import Precedence.Proofs.Shunting
import Precedence.Proofs.Source.Positions
import Precedence.Proofs.Source.Reports
import Precedence.Proofs.Parsing.Blame
import Precedence.Proofs.Parsing.Places
import Precedence.Proofs.Calculator.Blame
import Precedence.Proofs.Calculator.Locality
import Precedence.Proofs.Calculator.Completion
import Precedence.Proofs.Calculator.Functions
import Precedence.Proofs.Calculator.Literals
import Precedence.Proofs.Value.Leaves
import Precedence.Proofs.Calculator.Roles
import Precedence.Proofs.Calculator.Conservation
import Precedence.Proofs.Calculator.Consumption
import Precedence.Proofs.Value.Tagging
import Precedence.Proofs.Calculator.Answers
import Precedence.Proofs.Calculator.Numerals
import Precedence.Proofs.Calculator.Shelter
import Precedence.Proofs.Calculator.Bindings
import Precedence.Proofs.Calculator.Data
import Precedence.Proofs.Json.Fractions
import Precedence.Proofs.Calculator.Tearing
import Precedence.Proofs.Calculator.Enlargement
import Precedence.Proofs.Exact.Width
import Precedence.Proofs.Source.Ordering
import Precedence.Proofs.Parsing.Nesting
