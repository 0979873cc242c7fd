/-!
# Arguments

A command line has two levels: what stands before the command, and what stands after it. At each
level options take one value, after an equals sign or as the next argument, and switches take none.
An option that stands alone waits for its value, and what was read last is entered only when
something else comes; so a fault found at once is reported before one that waits.
-/

namespace SealedPost.CommandLine

/-- Why arguments lead to no command. -/
inductive UsageError
  | help
  | version
  | empty
  /-- There are options, but no command. -/
  | missingCommand
  | unknownCommand
  | unknownArgument
  /-- An option has no value, or one that it cannot have. -/
  | noValue
  | unneededValue
  | repeated
  | missingArgument
deriving DecidableEq, Repr

structure Level where
  commands : List String
  options : List String
  /-- The options that name a file, whose value is never empty. -/
  files : List String
  switches : List String
  hasVersion : Bool

structure Reading where
  values : List (String × String)
  switches : List String
  /-- The option that was read last, and the value that it has so far. -/
  pending : Option (String × Option String)

namespace Reading

def empty : Reading := ⟨[], [], none⟩

def value? (r : Reading) (name : String) : Option String := r.values.lookup name

/-- Whether the next argument may be the value of an option. -/
def awaitsValue (r : Reading) : Bool :=
  match r.pending with
  | some (_, none) => true
  | _ => false

def enter (level : Level) (name value : String) (r : Reading) : Except UsageError Reading :=
  if (r.value? name).isSome then .error .repeated
  else if level.files.contains name && value.isEmpty then .error .noValue
  else .ok { r with values := (name, value) :: r.values }

def settle (level : Level) (r : Reading) : Except UsageError Reading :=
  match r.pending with
  | none => .ok r
  | some (_, none) => .error .noValue
  | some (name, some value) => { r with pending := none }.enter level name value

/-- Reads an option or a switch by its name, with the value attached to it. -/
def readLong (level : Level) (name : String) (attached : Option String) (r : Reading) :
    Except UsageError Reading :=
  if level.options.contains name then do
    let r ← r.settle level
    match attached with
    | some value => r.enter level name value
    | none => .ok { r with pending := some (name, none) }
  else if level.switches.contains name || name = "help" ||
      (name = "version" && level.hasVersion) then
    if attached.isSome then .error .unneededValue
    else do
      let r ← r.settle level
      if name = "help" then .error .help
      else if name = "version" && level.hasVersion then .error .version
      else if r.switches.contains name then .error .repeated
      else .ok { r with switches := name :: r.switches }
  else .error .unknownArgument

/-- What a group of letters leads to: only help and the version have letters, and the
first letter decides. -/
def readShort (level : Level) (letter : Char) (r : Reading) : UsageError :=
  if letter = 'h' || (letter = 'V' && level.hasVersion) then
    match r.settle level with
    | .error e => e
    | .ok _ => if letter = 'h' then .help else .version
  else .unknownArgument

end Reading

namespace Level

/-- What is wrong with an argument that has no place. -/
def stray (level : Level) : UsageError :=
  if level.commands.isEmpty then .unknownArgument else .unknownCommand

/-- Whether a word is a command of this level; help is one wherever there are commands. -/
def hasCommand (level : Level) (word : String) : Bool :=
  level.commands.contains word || (!level.commands.isEmpty && word = "help")

def helpOn (level : Level) : List String → UsageError
  | [] => .help
  | [word] => if level.hasCommand word then .help else .unknownCommand
  | _ :: _ :: _ => .unknownCommand

/-- What the rest leads to after the two dashes that end all options; nothing can stand there. -/
def readTrailing (level : Level) (r : Reading) : List String → Except UsageError Reading
  | [] => .ok r
  | word :: _ => .error (if level.hasCommand word then .unknownArgument else level.stray)

/-- Reads arguments up to a command of this level; answers that command, if there is one, and the
arguments after it. -/
def read (level : Level) (r : Reading) :
    List String → Except UsageError (Reading × Option (String × List String))
  | [] => .ok (r, none)
  | arg :: rest =>
    if !r.awaitsValue && level.hasCommand arg then
      if arg = "help" then .error (level.helpOn rest) else .ok (r, some (arg, rest))
    else
      match arg.toList with
      | ['-', '-'] => do return (← level.readTrailing r rest, none)
      | '-' :: '-' :: body => do
        let name := String.ofList (body.takeWhile (· ≠ '='))
        let attached := (body.dropWhile (· ≠ '=')).tail
        let attached := if body.contains '=' then some (String.ofList attached) else none
        read level (← r.readLong level name attached) rest
      | '-' :: letter :: _ => .error (r.readShort level letter)
      | _ =>
        match r.pending with
        | some (name, none) => read level { r with pending := some (name, some arg) } rest
        | _ => .error level.stray

end Level

end SealedPost.CommandLine
