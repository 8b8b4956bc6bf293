import Imageboard.Number.Read

/-!
# Arguments

The arguments of a command: options, which begin with two hyphens and may be shortened as long as
only one is meant, and at most one plain argument. An argument that begins with a hyphen is plain if
it is a negative number, or has a blank in it and does not begin an option; after two hyphens alone
all arguments are plain.
-/

namespace Imageboard.CommandLine

/-- What follows an option. -/
inductive OptionKind where
  | text
  | integer
  /-- Nothing: the option is a switch. -/
  | switch
  /-- Nothing: the option asks for help. -/
  | help
  deriving DecidableEq, Repr

/-- An option of a command. -/
structure OptionRule where
  name : String
  kind : OptionKind
  required : Bool
  deriving DecidableEq, Repr

/-- The arguments that a command takes. -/
structure Grammar where
  options : List OptionRule
  /-- Whether it takes, and needs, a plain argument. -/
  takesPlain : Bool
  deriving DecidableEq, Repr

/-- Why no command is run. -/
inductive Refusal where
  /-- The arguments are wrong. -/
  | usage
  /-- Help was asked for. -/
  | help
  deriving DecidableEq, Repr

/-- The arguments of a command as they were given. -/
structure Arguments where
  texts : List (String × String)
  integers : List (String × Int)
  switches : List String
  plain : Option String
  deriving DecidableEq, Repr

namespace Arguments

/-- No arguments. -/
def none : Arguments := ⟨[], [], [], .none⟩

/-- The text given last for an option. -/
def text? (a : Arguments) (name : String) : Option String :=
  (a.texts.find? (·.1 = name)).map (·.2)

/-- The integer given last for an option. -/
def integer? (a : Arguments) (name : String) : Option Int :=
  (a.integers.find? (·.1 = name)).map (·.2)

/-- Whether a switch was given. -/
def has (a : Arguments) (name : String) : Bool :=
  a.switches.contains name

/-- Whether a value was given for an option. -/
def gives (a : Arguments) (name : String) : Bool :=
  (a.text? name).isSome || (a.integer? name).isSome || a.has name

end Arguments

/-- How an argument is understood. -/
inductive Reading where
  | plain
  /-- Two hyphens alone. -/
  | endOfOptions
  /-- An option, with the value that stands behind an equals sign. -/
  | option (rule : OptionRule) (value : Option String)
  | unknown
  deriving DecidableEq, Repr

/-- The option that asks for help. -/
def helpRule : OptionRule := ⟨"--help", .help, false⟩

/-- Whether a text is a negative number. -/
def isNegativeNumber : List Char → Bool
  | '-' :: cs =>
    let whole := cs.takeWhile Char.isDigit
    match cs.drop whole.length with
    | [] => !whole.isEmpty
    | '.' :: fraction => !fraction.isEmpty && fraction.all Char.isDigit
    | _ => false
  | _ => false

/-- An argument split at its first equals sign. -/
def splitValue (s : String) : String × Option String :=
  let cs := s.toList
  let name := cs.takeWhile (· ≠ '=')
  match cs.drop name.length with
  | [] => (s, none)
  | _ :: value => (String.ofList name, some (String.ofList value))

namespace Grammar

/-- The options of a grammar with the one for help. -/
def rules (g : Grammar) : List OptionRule :=
  helpRule :: g.options

/-- The option that an argument names, in full or shortened. -/
def longOption (g : Grammar) (s : String) : Reading :=
  let (name, value) := splitValue s
  match g.rules.find? (·.name = name) with
  | some rule => .option rule value
  | none =>
    match g.rules.filter (·.name.startsWith name) with
    | [rule] => .option rule value
    | [] => if ' ' ∈ s.toList then .plain else .unknown
    | _ => .unknown

/-- How an argument is understood. -/
def reading (g : Grammar) (s : String) : Reading :=
  match s.toList with
  | ['-', '-'] => .endOfOptions
  | '-' :: '-' :: _ => g.longOption s
  | ['-', 'h'] => .option helpRule none
  | '-' :: 'h' :: _ => .unknown
  | '-' :: _ :: _ =>
    if isNegativeNumber s.toList || ' ' ∈ s.toList then .plain else .unknown
  | _ => .plain

/-- Adds a plain argument. -/
def addPlain (g : Grammar) (a : Arguments) (s : String) : Except Refusal Arguments :=
  if g.takesPlain && a.plain.isNone then .ok { a with plain := some s } else .error .usage

/-- Adds an option with its value. -/
def addValue (rule : OptionRule) (a : Arguments) (value : String) : Except Refusal Arguments :=
  match rule.kind with
  | .text => .ok { a with texts := (rule.name, value) :: a.texts }
  | .integer =>
    match readInteger? value with
    | some n => .ok { a with integers := (rule.name, n) :: a.integers }
    | none => .error .usage
  | .switch | .help => .error .usage

/-- Adds arguments that all are plain. -/
def addAll (g : Grammar) : Arguments → List String → Except Refusal Arguments
  | a, [] => .ok a
  | a, s :: rest =>
    match g.addPlain a s with
    | .error e => .error e
    | .ok a => addAll g a rest

/-- Takes arguments one after the other. -/
def take (g : Grammar) : Arguments → List String → Except Refusal Arguments
  | a, [] => .ok a
  | a, s :: rest =>
    match g.reading s with
    | .unknown => .error .usage
    | .endOfOptions => g.addAll a rest
    | .plain =>
      match g.addPlain a s with
      | .error e => .error e
      | .ok a => take g a rest
    | .option rule (some value) =>
      match addValue rule a value with
      | .error e => .error e
      | .ok a => take g a rest
    | .option rule none =>
      match rule.kind, rest with
      | .help, _ => .error .help
      | .switch, rest => take g { a with switches := rule.name :: a.switches } rest
      | _, [] => .error .usage
      | _, value :: rest =>
        if g.reading value = .plain then
          match addValue rule a value with
          | .error e => .error e
          | .ok a => take g a rest
        else .error .usage

/-- Whether nothing is missing. -/
def isComplete (g : Grammar) (a : Arguments) : Bool :=
  (g.options.all fun r => !r.required || a.gives r.name) && (!g.takesPlain || a.plain.isSome)

/-- Reads the arguments of a command. -/
def read (g : Grammar) (args : List String) : Except Refusal Arguments :=
  match g.take .none args with
  | .error e => .error e
  | .ok a => if g.isComplete a then .ok a else .error .usage

end Grammar

end Imageboard.CommandLine
