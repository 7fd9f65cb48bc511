import SpokenDice.Expr.Printer

/-!
# What can stop a roll

A request fails for one of the causes of `RollError`. Each cause belongs to a kind and has one
message. All kinds but `internal` are apologies: the person who asked can read the message and
ask for something else. An internal failure means that a pass was given a tree that an earlier
pass should have dealt with.
-/

namespace SpokenDice

/-- The kinds of failure. -/
inductive RollErrorKind where
  /-- The text is no request, or it names something unknown. -/
  | recognition
  /-- A spell cannot be cast as asked. -/
  | impossibleSpell
  /-- Dice cannot be rolled as asked. -/
  | impossibleDice
  /-- A pass met a tree that it does not handle. -/
  | internal
  deriving DecidableEq

/-- The causes of failure. -/
inductive RollError where
  /-- The text is no request. -/
  | notUnderstood
  /-- The dice text of a record is no request. -/
  | diceNotUnderstood (text : String)
  /-- The request has too many terms or nests too deeply. -/
  | tooLarge
  /-- No record has this name. -/
  | unknownName (name : String)
  /-- The record of this name lies deeper than references may go. -/
  | tooDeep (name : String)
  /-- The description of the spell names no dice. -/
  | noDamageDice (spell : String)
  /-- The spell does not say which dice a higher level adds. -/
  | noScalingDice (spell : String)
  /-- The spell was to be cast below its own level. -/
  | belowOwnLevel (spell : String) (own asked : Int64)
  /-- The spell was to be cast above the highest level allowed. -/
  | aboveLevelLimit (spell : String) (limit : Int64)
  /-- The level of a spell is not a literal. -/
  | unresolvedLevel (level : Expr)
  /-- Advantage and disadvantage copy more than they may. -/
  | tooManyCopies
  /-- A count of dice is not positive. -/
  | noDice (count : Int64)
  /-- A side count is not positive. -/
  | noSides (sides : Int64)
  /-- The dice of the roll are more than the limit. -/
  | tooManyDice (total : Nat)
  /-- A node has no value. -/
  | unresolved (node : Expr)
  deriving DecidableEq

namespace RollError

/-- The kind that a cause belongs to. -/
def kind : RollError → RollErrorKind
  | .notUnderstood => .recognition
  | .diceNotUnderstood _ => .recognition
  | .tooLarge => .recognition
  | .unknownName _ => .recognition
  | .tooDeep _ => .recognition
  | .noDamageDice _ => .impossibleSpell
  | .noScalingDice _ => .impossibleSpell
  | .belowOwnLevel _ _ _ => .impossibleSpell
  | .aboveLevelLimit _ _ => .impossibleSpell
  | .unresolvedLevel _ => .internal
  | .tooManyCopies => .impossibleDice
  | .noDice _ => .impossibleDice
  | .noSides _ => .impossibleDice
  | .tooManyDice _ => .impossibleDice
  | .unresolved _ => .internal

/-- Whether the failure is an apology, as all are but the internal ones. -/
def isApology (e : RollError) : Bool :=
  decide (e.kind ≠ .internal)

/-- The message of a failure. -/
def message : RollError → String
  | .notUnderstood => "Sorry, I couldn't understand your request"
  | .diceNotUnderstood text => "Sorry, I couldn't understand the dice `" ++ text ++ "`"
  | .tooLarge => "Sorry, that request is too long or nested too deeply"
  | .unknownName name => "Sorry, I don't know what " ++ name ++ " is"
  | .tooDeep name => "Sorry, " ++ name ++ " refers to other weapons or spells too deeply"
  | .noDamageDice spell => "Sorry, I couldn't find the damage dice for " ++ spell
  | .noScalingDice spell =>
    "Sorry, I couldn't determine the additional damage dice for " ++ spell
  | .belowOwnLevel spell own asked =>
    "Sorry, " ++ spell ++ " is level " ++ decimal own.toInt ++ ", so I can't cast it at level "
      ++ decimal asked.toInt
  | .aboveLevelLimit spell limit =>
    "Sorry, I can't cast " ++ spell ++ " above level " ++ decimal limit.toInt
  | .unresolvedLevel level =>
    "internal error: spell level `" ++ level.text ++ "` was not normalised"
  | .tooManyCopies => "Sorry, I couldn't roll that many dice."
  | .noDice count => "Sorry, I couldn't roll " ++ decimal count.toInt ++ " dice."
  | .noSides sides => "Sorry, I couldn't roll a " ++ decimal sides.toInt ++ " sided die."
  | .tooManyDice total => "Sorry, I couldn't roll " ++ decimal (Int.ofNat total) ++ " dice."
  | .unresolved node => "internal error: `" ++ node.text ++ "` reached evaluation unresolved"

end RollError

end SpokenDice
