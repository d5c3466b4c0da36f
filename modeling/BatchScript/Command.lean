import BatchScript.Environment
import BatchScript.FileSystem
import BatchScript.Text.Blank

/-!
# Commands

A command is a name and arguments. What it does is up to a dispatcher, which is given the command
with every reference resolved and the environment it runs in, and which may change the files and a
state of its own.
-/

namespace BatchScript

/-- What came of a command. -/
structure Outcome where
  success : Bool
  output : String
  error : Option String
deriving DecidableEq, Repr

/-- What commands act on: the files, and whatever else a dispatcher keeps. -/
structure World (σ : Type) where
  files : FileSystem
  state : σ

/-- Carries out commands, one at a time. -/
abbrev Dispatcher (σ : Type) :=
  (name : String) → (args : List String) → Environment → World σ → Outcome × World σ

/-- The dispatcher of a program that may crash: from then on nothing is carried out. -/
def Dispatcher.untilCrash {σ : Type} (dispatch : Dispatcher σ) : Dispatcher σ :=
  fun name args environment world =>
    match environment.crash with
    | none => dispatch name args environment world
    | some _ => (⟨false, "", none⟩, world)

namespace Command

/-- A word as it is shown: in double quotes if it would not be read back as one word without. -/
def displayWord (word : String) : String :=
  if word = "" || word.toList.any Text.isBlank then "\"" ++ word ++ "\"" else word

/-- A command as it is shown. -/
def display (name : String) (args : List String) : String :=
  Text.joined " " ((name :: args).map displayWord)

end Command

end BatchScript
