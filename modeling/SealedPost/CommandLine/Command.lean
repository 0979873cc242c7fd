import SealedPost.CommandLine.Arguments

/-!
# Commands

What can be asked for, and how it is read from arguments and variables. The settings' options may
stand before the command and after it; what stands after it counts. The seed may come from a
variable, except for the command that makes one.
-/

namespace SealedPost.CommandLine

/-- A closed group's keys as they are given. -/
structure GroupKeys where
  publicKey : String
  privateKey : String
deriving DecidableEq, Repr

/-- What is asked for. -/
inductive Command
  /-- An identity: that of a seed, or a new one. -/
  | keygen (seed : Option String)
  /-- A message sealed to a session id. -/
  | encrypt (seed recipient message : String)
  /-- A sealed message opened, with the identity or with a closed group's keys. -/
  | decrypt (seed ciphertext : String) (group : Option GroupKeys)
  /-- A token registered with the relay. -/
  | register (seed token : String) (force : Bool)
  /-- A token unregistered from the relay. -/
  | unregister (seed token : String)
deriving DecidableEq, Repr

/-- A command, and where its settings come from. -/
structure Invocation where
  command : Command
  /-- The path of the settings file. -/
  config : Option String
  logLevel : Option String
deriving DecidableEq, Repr

/-- The names of the commands. -/
inductive Verb
  | keygen
  | encrypt
  | decrypt
  | register
  | unregister
deriving DecidableEq, Repr

namespace Verb

def all : List Verb := [.keygen, .encrypt, .decrypt, .register, .unregister]

def word : Verb → String
  | .keygen => "keygen"
  | .encrypt => "encrypt"
  | .decrypt => "decrypt"
  | .register => "register"
  | .unregister => "unregister"

def ofWord? (w : String) : Option Verb := all.find? fun v => v.word = w

def options : Verb → List String
  | .keygen => ["seed"]
  | .encrypt => ["seed", "to", "message"]
  | .decrypt => ["seed", "ciphertext", "group-public-key", "group-private-key"]
  | .register | .unregister => ["seed", "token"]

/-- The options that can stand at every level. -/
def everywhere : List String := ["config", "log-level"]

/-- What can stand after a command. -/
def level (v : Verb) : Level where
  commands := []
  options := v.options ++ everywhere
  files := ["config"]
  switches := if v = .register then ["force"] else []
  hasVersion := false

end Verb

/-- What can stand before a command. -/
def topLevel : Level where
  commands := Verb.all.map Verb.word
  options := Verb.everywhere
  files := ["config"]
  switches := []
  hasVersion := true

def seedVariable : String := "VEIL_SEED"

def required (value : Option String) : Except UsageError String :=
  match value with
  | some v => .ok v
  | none => .error .missingArgument

def Verb.command (v : Verb) (vars : String → Option String) (r : Reading) :
    Except UsageError Command := do
  let seed := (r.value? "seed").or (vars seedVariable)
  match v with
  | .keygen => return .keygen (r.value? "seed")
  | .encrypt =>
    return .encrypt (← required seed) (← required (r.value? "to")) (← required (r.value? "message"))
  | .decrypt =>
    let seed ← required seed
    let ciphertext ← required (r.value? "ciphertext")
    match r.value? "group-public-key", r.value? "group-private-key" with
    | some publicKey, some privateKey =>
        return .decrypt seed ciphertext (some ⟨publicKey, privateKey⟩)
    | none, none => return .decrypt seed ciphertext none
    | _, _ => throw .missingArgument
  | .register =>
    return .register (← required seed) (← required (r.value? "token")) (r.switches.contains "force")
  | .unregister => return .unregister (← required seed) (← required (r.value? "token"))

/-- Reads a call from arguments, without the program's own name, and variables. -/
def Invocation.ofArguments (vars : String → Option String) (args : List String) :
    Except UsageError Invocation := do
  let (top, found) ← topLevel.read .empty args
  match found.bind fun f => (Verb.ofWord? f.1).map fun v => (v, f.2) with
  | none =>
    let top ← top.settle topLevel
    throw (if top.values.isEmpty then .empty else .missingCommand)
  | some (verb, rest) =>
    let (r, _) ← verb.level.read .empty rest
    let r ← r.settle verb.level
    let command ← verb.command vars r
    let top ← top.settle topLevel
    let shared (name : String) := (r.value? name).or (top.value? name)
    return ⟨command, shared "config", shared "log-level"⟩

end SealedPost.CommandLine
