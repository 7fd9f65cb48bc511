import SpokenDice.Command

/-!
# The program

Rolls the request that the arguments of the program make up, with random dice.
-/

namespace SpokenDice

/-- Dice that a generator of random numbers rolls. -/
structure RandomDice where
  generator : StdGen

instance : DiceSource RandomDice where
  rollDie dice sides :=
    let (face, generator) := randNat dice.generator 1 sides.toInt.toNat
    (saturate (Int.ofNat face), ⟨generator⟩)

namespace RandomDice

/-- Dice that no one can foresee. -/
def shaken : IO RandomDice := do
  let bytes ← IO.getRandomBytes 8
  pure ⟨mkStdGen (bytes.foldl (fun seed byte => seed * 256 + byte.toNat) 0)⟩

end RandomDice

/-- The text of a file, if it can be read. -/
def fileText? (path : String) : IO (Option String) := do
  try
    let text ← IO.FS.readFile path
    pure (some text)
  catch _ => pure none

/-- The values of the variables that the command looks up. -/
def environment : IO (List (String × Option String)) :=
  [Command.directoryVariable, Limits.diceCountVariable, Limits.expansionDepthVariable,
    Limits.spellLevelVariable].mapM fun name => do
    let value ← IO.getEnv name
    pure (name, value)

/-- The texts of the files of a ruleset. -/
def files (directory : String) : IO (List (String × Option String)) :=
  [RulesetTable.weapons, RulesetTable.spells].mapM fun table => do
    let text ← fileText? (directory ++ "/" ++ table.fileName)
    pure (table.fileName, text)

end SpokenDice

open SpokenDice

def main (arguments : List String) : IO UInt32 := do
  let values ← environment
  let lookup := fun name => (values.lookup name).join
  let texts ← match lookup Command.directoryVariable with
    | none => pure []
    | some directory => files directory
  let result :=
    Command.run arguments lookup (fun _ name => (texts.lookup name).join) (← RandomDice.shaken)
  (← IO.getStdout).putStr result.told
  pure result.exitCode.toUInt32
