import Gamemaster.Dice.Roll

namespace Gamemaster.Dice

def Piece.render (mode : Advantage) : Piece → String
  | .dice sign count sides values =>
    (Term.dice sign count sides).render ++ " => " ++ ", ".intercalate (values.map toString)
  | .pair sign first second kept =>
    (if sign = .minus then "-" else "") ++ "1d20 (" ++ mode.text ++ ") => [" ++ toString first ++
      ", " ++ toString second ++ "] -> " ++ toString (sign.toInt * kept)
  | .modifier value => (Term.modifier value).render

def Piece.keptNote (mode : Advantage) : Piece → String
  | .pair _ _ _ kept => " " ++ mode.text ++ " applied, kept " ++ toString kept
  | _ => ""

def Roll.narrative (r : Roll) : String :=
  let mode := r.policy.advantage
  "Roll " ++ r.formula.raw ++ (if r.policy.exploding then " exploding" else "") ++
    String.join (r.pieces.map (Piece.keptNote mode)) ++ " -> " ++ toString r.total ++ " [" ++
    "; ".intercalate (r.pieces.map (Piece.render mode)) ++ "]"

end Gamemaster.Dice
