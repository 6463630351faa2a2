import Precedence.Grammar.Basic

/-!
# Listings

The table of a grammar in full, as text for diagnostics. Of what the symbols do it tells only
whether they do anything.
-/

namespace Precedence

open Precedence.Text

/-- A record: its name and its fields. -/
def listRecord (name : String) (fields : List (String × String)) : String :=
  name ++ " \x7b " ++ String.intercalate ", " (fields.map fun f => f.1 ++ ": " ++ f.2) ++ " \x7d"

/-- A value that may be missing. -/
def listOption : Option String → String
  | none => "None"
  | some text => "Some(" ++ text ++ ")"

/-- A truth value. -/
def listBool (b : Bool) : String :=
  if b then "true" else "false"

namespace Fixity

/-- The fixity in a listing. -/
def listing : Fixity → String
  | prefixOp => "Prefix"
  | infixOp => "Infix"
  | postfixOp => "Postfix"

end Fixity

namespace Grouping

/-- The grouping in a listing. -/
def listing : Grouping → String
  | none => "None"
  | left => "Left"
  | right => "Right"

end Grouping

namespace Operator

/-- The operator in a listing. -/
def listing (op : Operator) : String :=
  listRecord "Operator" [("symbol", quoted op.symbol), ("bp", toString op.power),
    ("fixity", op.fixity.listing), ("assoc", op.grouping.listing),
    ("associative", listBool op.associative), ("commutative", listBool op.commutative)]

end Operator

namespace TokenPattern

/-- The pattern in a listing. -/
def listing : TokenPattern → String
  | literal text => "Literal(" ++ quoted text ++ ")"
  | regex source => "Regex(" ++ quoted source ++ ")"

end TokenPattern

namespace Symbol

/-- The symbol in a listing. -/
def listing {V : Type} (s : Symbol V) : String :=
  listRecord "Symbol" [("id", quoted s.id), ("bp", toString s.power),
    ("pattern", listOption (s.pattern?.map (·.listing))), ("nud", listBool s.nud?.isSome),
    ("led", listBool s.led?.isSome), ("operator", listOption (s.operator?.map (·.listing)))]

end Symbol

namespace Grammar

/-- The whole grammar in a listing. -/
def listing {V : Type} (g : Grammar V) : String :=
  listRecord "Grammar" [
    ("symbols", "[" ++ String.intercalate ", " (g.symbols.map (·.listing)) ++ "]"),
    ("compiled", listBool g.isCompiled), ("max_depth", toString g.maxDepth)]

end Grammar

end Precedence
