import SpokenDice.Limits.Json
import SpokenDice.Roller
import SpokenDice.Ruleset.Json

/-!
# The command

The command rolls the request that its arguments make up and tells the outcome. A request that
fails with an apology is answered by the apology. Nothing is told when there is no request or no
ruleset to explain it, or when the roll fails for a reason that is no apology.
-/

namespace SpokenDice.Command

/-- How the command ends. -/
structure Result where
  /-- Zero for a roll, one for an apology, two for everything else. -/
  exitCode : UInt8
  /-- What is told. -/
  told : String
  deriving DecidableEq

/-- The variable that names the directory of the ruleset's files. -/
def directoryVariable : String := "CRITDICE_DATA_DIR"

/-- The request that arguments make up. -/
def request (arguments : List String) : String :=
  " ".intercalate arguments

/-- The ruleset: that of the directory's files, or the standard one where no directory is named. -/
def ruleset (lookup : String → Option String) (file? : String → String → Option String) :
    Except RulesetError Ruleset :=
  match lookup directoryVariable with
  | some directory => Ruleset.ofFiles (file? directory)
  | none => .ok Ruleset.standard

/-- Tells the outcome of a roll, or the apology for it. -/
def tell : Except RollError Outcome → Result
  | .ok outcome => ⟨0, outcome.narration ++ "\n"⟩
  | .error cause => if cause.isApology then ⟨1, cause.message ++ "\n"⟩ else ⟨2, ""⟩

/-- Runs the command with these arguments, variables, files of directories and dice. -/
def run {δ : Type} [DiceSource δ] (arguments : List String) (lookup : String → Option String)
    (file? : String → String → Option String) (dice : δ) : Result :=
  let text := request arguments
  if Text.isBlankText text.toList then ⟨2, ""⟩
  else match ruleset lookup file? with
    | .error _ => ⟨2, ""⟩
    | .ok rules => tell (Roller.roll ⟨rules, Limits.ofVariables lookup⟩ text dice).1

end SpokenDice.Command
