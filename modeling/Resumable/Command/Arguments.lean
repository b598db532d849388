/-!
# Arguments of the command line

A command line has two levels: what stands before the name of a command, and what stands behind
it. On either level options and plain words may mix. A value that was given is settled only when
the next option or word of its level is understood, or at the level's end; so of two mistakes the
one that is settled first is reported. Behind `--` nothing is an option.

This models the command line of `Cli` and `Commands`. A mistake is known by its kind: the texts of
help and of usage errors are not modelled.
-/

namespace Resumable

/-- What the program is asked to do. -/
inductive Command where
  /-- Runs a script, answering its requests from a file of responses. -/
  | run (script : String) (responses : Option String)
  /-- Shows the statements of a script. -/
  | split (script : String)
  /-- Shows the settings. -/
  | config
  deriving DecidableEq

/-- A command and the path of the file of settings. -/
structure Invocation where
  /-- The path of the file of settings, if one is given. -/
  settings : Option String
  /-- The command. -/
  command : Command
  deriving DecidableEq

/-- Why arguments are no invocation. -/
inductive UsageError where
  /-- Help is asked for. -/
  | help
  /-- Nothing is given. -/
  | nothingGiven
  /-- There is no command. -/
  | missingCommand
  /-- There is no script. -/
  | missingScript
  /-- A word in the place of a command is none. -/
  | unknownCommand
  /-- An option or a word has no meaning. -/
  | unknownArgument
  /-- A value is missing or empty. -/
  | badValue
  /-- An option that takes no value has one. -/
  | unwantedValue
  /-- An option is given twice. -/
  | repeated
  deriving DecidableEq

namespace Command

/-! ### What a level knows -/

/-- What a value can be given for. -/
inductive Slot where
  /-- The file of settings. -/
  | settings
  /-- The file of responses. -/
  | responses
  /-- The script. -/
  | script
  deriving DecidableEq

/-- The word that stands for a command. -/
inductive Name where
  /-- Runs a script. -/
  | run
  /-- Shows the statements of a script. -/
  | split
  /-- Shows the settings. -/
  | config
  /-- Shows help. -/
  | help
  deriving DecidableEq

/-- The name that a word is. -/
def Name.ofWord? : String → Option Name
  | "run" => some .run
  | "split" => some .split
  | "config" => some .config
  | "help" => some .help
  | _ => none

/-- What a level understands: before the name of a command, or behind it. -/
inductive Level where
  /-- Before the name of a command. -/
  | outer
  /-- Behind the name of a command. -/
  | inner (name : Name)
  deriving DecidableEq

/-- An option. -/
inductive Flag where
  /-- Asks for help. -/
  | help
  /-- Takes a value. -/
  | value (slot : Slot)
  deriving DecidableEq

/-- The option of a long name. -/
def Level.long? (level : Level) : String → Option Flag
  | "help" => some .help
  | "config" => some (.value .settings)
  | "responses" => if level = .inner .run then some (.value .responses) else none
  | _ => none

/-- The option of a letter. -/
def Level.short? (level : Level) : Char → Option Flag
  | 'h' => some .help
  | 'r' => if level = .inner .run then some (.value .responses) else none
  | _ => none

/-- Whether a level takes a script. -/
def Level.takesScript : Level → Bool
  | .inner .run => true
  | .inner .split => true
  | _ => false

/-! ### What a level was given -/

/-- The values that a level was given. -/
structure Given where
  /-- The file of settings. -/
  settings : Option String := none
  /-- The file of responses. -/
  responses : Option String := none
  /-- The script. -/
  script : Option String := none
  /-- What was given last, with its value unless that is still to come. -/
  pending : Option (Slot × Option String) := none
  deriving DecidableEq

namespace Given

/-- The value of a slot. -/
def get (g : Given) : Slot → Option String
  | .settings => g.settings
  | .responses => g.responses
  | .script => g.script

/-- Fills a slot. -/
def set (g : Given) (slot : Slot) (value : String) : Given :=
  match slot with
  | .settings => { g with settings := some value }
  | .responses => { g with responses := some value }
  | .script => { g with script := some value }

/-- Whether an option still waits for its value. -/
def isWaiting (g : Given) : Bool :=
  match g.pending with
  | some (_, none) => true
  | _ => false

/-- Whether a script was given, settled or not. -/
def hasScript (g : Given) : Bool :=
  g.script.isSome || (g.pending.map (·.1)) == some .script

/-- Settles what was given last. -/
def settle (g : Given) : Except UsageError Given :=
  match g.pending with
  | none => .ok g
  | some (_, none) => .error .badValue
  | some (slot, some value) =>
    if (g.get slot).isSome then .error .repeated
    else if value = "" then .error .badValue
    else .ok ({ g with pending := none }.set slot value)

/-- Takes a slot with its value, or with a value to come. -/
def take (g : Given) (slot : Slot) (value : Option String) : Except UsageError Given := do
  let g ← g.settle
  .ok { g with pending := some (slot, value) }

/-- Takes a slot with a value that is joined to its option, which settles it at once. -/
def takeJoined (g : Given) (slot : Slot) (value : String) : Except UsageError Given := do
  let g ← g.take slot (some value)
  g.settle

/-- Takes the value that an option waits for. -/
def fill (g : Given) (value : String) : Given :=
  { g with pending := g.pending.map fun (slot, _) => (slot, some value) }

/-- Asks for help, unless what was given last is a mistake. -/
def askHelp (g : Given) : Except UsageError Given := do
  let _ ← g.settle
  .error .help

end Given

/-! ### Options -/

/-- A long option, with the value behind its equals sign if there is one. -/
def readLong (level : Level) (g : Given) (name : String) (value : Option String) :
    Except UsageError Given :=
  match level.long? name, value with
  | none, _ => .error .unknownArgument
  | some .help, some _ => .error .unwantedValue
  | some .help, none => g.askHelp
  | some (.value slot), some value => g.takeJoined slot value
  | some (.value slot), none => g.take slot none

/-- Short options that share a dash. One that takes a value takes all that follows it, without an
equals sign at its start. -/
def readShort (level : Level) (g : Given) : List Char → Except UsageError Given
  | [] => .ok g
  | c :: cs =>
    match level.short? c with
    | none => .error .unknownArgument
    | some .help => g.askHelp
    | some (.value slot) => match cs with
      | [] => g.take slot none
      | '=' :: cs => g.takeJoined slot (String.ofList cs)
      | cs => g.takeJoined slot (String.ofList cs)

/-- What an argument looks like. -/
inductive Shape where
  /-- The mark behind which nothing is an option. -/
  | divider
  /-- A long option. -/
  | long (name : String) (value : Option String)
  /-- Short options. -/
  | short (letters : List Char)
  /-- A plain word. -/
  | word
  deriving DecidableEq

/-- The shape of an argument. A single dash is a word. -/
def shape (arg : String) : Shape :=
  match arg.toList with
  | ['-', '-'] => .divider
  | '-' :: '-' :: cs =>
    match cs.span (· != '=') with
    | (name, []) => .long (String.ofList name) none
    | (name, _ :: value) => .long (String.ofList name) (some (String.ofList value))
  | ['-'] => .word
  | '-' :: cs => .short cs
  | _ => .word

/-! ### Levels -/

/-- A word that is no value of an option. `isBehind` says whether it stands behind `--`. -/
def readWord (level : Level) (isBehind : Bool) (g : Given) (word : String) :
    Except UsageError Given :=
  if level.takesScript && !g.hasScript then g.take .script (some word)
  else match level with
    | .outer =>
      if isBehind ∧ (Name.ofWord? word).isSome then .error .unknownArgument
      else .error .unknownCommand
    | .inner _ => .error .unknownArgument

/-- The name of a command that an argument is, where one may stand. -/
def nameAt (level : Level) (g : Given) (arg : String) : Option Name :=
  if level = .outer ∧ !g.isWaiting then Name.ofWord? arg else none

/-- Reads the arguments of a level: what it was given, and, on the outer one, the name of a command
with the arguments behind it. `isBehind` says whether `--` came before. -/
def readLevel (level : Level) (isBehind : Bool) (g : Given) :
    List String → Except UsageError (Given × Option (Name × List String))
  | [] => .ok (g, none)
  | arg :: args =>
    if isBehind then do
      let g ← readWord level true g arg
      readLevel level true g args
    else match nameAt level g arg with
      | some name => .ok (g, some (name, args))
      | none => match shape arg with
        | .divider => readLevel level true g args
        | .long name value => do
          let g ← readLong level g name value
          readLevel level false g args
        | .short letters => do
          let g ← readShort level g letters
          readLevel level false g args
        | .word =>
          if g.isWaiting then readLevel level false (g.fill arg) args
          else do
            let g ← readWord level false g arg
            readLevel level false g args

/-- The command of a name with what it was given. -/
def ofGiven (name : Name) (g : Given) : Except UsageError Command :=
  match name, g.script with
  | .run, some script => .ok (.run script g.responses)
  | .split, some script => .ok (.split script)
  | .config, _ => .ok .config
  | .help, _ => .error .help
  | _, none => .error .missingScript

/-- Help on what the words behind `help` name: nothing, or one command. -/
def helpOn : List String → UsageError
  | [] => .help
  | [word] => if (Name.ofWord? word).isSome then .help else .unknownCommand
  | _ => .unknownCommand

/-- Reads the arguments behind the name of a command: the command and the file of settings. -/
def readInner (name : Name) (args : List String) :
    Except UsageError (Command × Option String) :=
  if name = .help then .error (helpOn args)
  else do
    let (g, _) ← readLevel (.inner name) false {} args
    let g ← g.settle
    let command ← ofGiven name g
    .ok (command, g.settings)

end Command

/-- The invocation that arguments are, the program's own name apart. A file of settings given behind
the command overrides one given before it. -/
def Invocation.parse (args : List String) : Except UsageError Invocation := do
  match ← Command.readLevel .outer false {} args with
  | (g, some (name, rest)) =>
    let (command, settings) ← Command.readInner name rest
    let g ← g.settle
    .ok ⟨settings <|> g.settings, command⟩
  | (g, none) =>
    let g ← g.settle
    .error (if g.settings.isSome then .missingCommand else .nothingGiven)

end Resumable
