/-!
The arguments of the program: options first, then at most one command with arguments of its own.

What is wrong with an option whose value is a word of its own shows only at the next option or at the
end, so help for a command is still given behind such an option.
-/

set_option autoImplicit false

namespace NodeTelemetry.CommandLine

inductive Command where
  /-- Serve, without a recording that the arguments name. -/
  | serve
  | replay (path : String)
  | version
  deriving Repr, DecidableEq

inductive Setting where
  | config
  | logLevel
  deriving Repr, DecidableEq

structure Options where
  config : Option String := none
  logLevel : Option String := none
  deriving Repr, DecidableEq

structure Invocation where
  options : Options
  command : Command
  deriving Repr, DecidableEq

inductive Reading (β : Type) where
  | refused
  | help
  | accepted (result : β)
  deriving Repr, DecidableEq

inductive Word where
  | separator
  | help
  /-- An option, with its value if that belongs to the same word. -/
  | setting (setting : Setting) (value : Option String)
  | unknown
  | plain (text : String)
  deriving Repr, DecidableEq

def valueBehindEquals : List Char → Option String
  | '=' :: value => some (String.ofList value)
  | _ => none

/-- The value that follows the letter of an option, if it is not empty. An equals sign before it does
not count. -/
def attachedValue : List Char → Option String
  | [] => none
  | '=' :: value => some (String.ofList value)
  | value => some (String.ofList value)

def longWord (word : List Char) : Word :=
  let value := valueBehindEquals (word.dropWhile (· != '='))
  match String.ofList (word.takeWhile (· != '=')), value with
  | "help", none => .help
  | "config", value => .setting .config value
  | "log-level", value => .setting .logLevel value
  | _, _ => .unknown

def Word.of (text : String) : Word :=
  match text.toList with
  | ['-', '-'] => .separator
  | '-' :: '-' :: word => longWord word
  | ['-'] => .plain text
  | '-' :: 'h' :: _ => .help
  | '-' :: 'c' :: value => .setting .config (attachedValue value)
  | '-' :: _ => .unknown
  | _ => .plain text

/-- Gives an option its value, unless it has one. A path is not empty. -/
def Options.give? (options : Options) (value : String) : Setting → Option Options
  | .config =>
    if options.config.isSome || value.isEmpty then none
    else some { options with config := some value }
  | .logLevel =>
    if options.logLevel.isSome then none else some { options with logLevel := some value }

/-- An option that was read last, and the word that is its value, if there was one. -/
structure Pending where
  setting : Setting
  value : Option String

def Options.settle? (options : Options) : Option Pending → Option Options
  | none => some options
  | some ⟨setting, value⟩ => value.bind fun value => options.give? value setting

def readReplay (path : Option String) : List String → Reading Command
  | [] => finish path
  | word :: rest =>
    match Word.of word, path, rest with
    | .separator, none, [only] => finish (some only)
    | .separator, path, [] => finish path
    | .help, path, _ => if path = some "" then .refused else .help
    | .plain text, none, rest => readReplay (some text) rest
    | _, _, _ => .refused
where
  finish : Option String → Reading Command
    | some path => if path.isEmpty then .refused else .accepted (.replay path)
    | none => .refused

def readVersion : List String → Reading Command
  | [] => .accepted .version
  | word :: rest =>
    match Word.of word, rest with
    | .help, _ => .help
    | .separator, [] => .accepted .version
    | _, _ => .refused

/-- The arguments of the command that tells how the program is used: at most the name of a command. -/
def readHelp : List String → Reading Command
  | [] | ["replay"] | ["version"] | ["help"] => .help
  | _ => .refused

def readCommand (name : String) (arguments : List String) : Reading Command :=
  match name with
  | "replay" => readReplay none arguments
  | "version" => readVersion arguments
  | "help" => readHelp arguments
  | _ => .refused

def readFrom (options : Options) (pending : Option Pending) : List String → Reading Invocation
  | [] => finish options pending .serve
  | word :: rest =>
    match Word.of word, pending with
    | .plain text, some ⟨setting, none⟩ => readFrom options (some ⟨setting, some text⟩) rest
    | .plain name, pending =>
      match readCommand name rest with
      | .accepted command => finish options pending command
      | .help => .help
      | .refused => .refused
    | .separator, pending => if rest.isEmpty then finish options pending .serve else .refused
    | .help, pending =>
      match options.settle? pending with
      | some _ => .help
      | none => .refused
    | .setting setting value, pending =>
      match options.settle? pending, value with
      | none, _ => .refused
      | some options, none => readFrom options (some ⟨setting, none⟩) rest
      | some options, some value =>
        match options.give? value setting with
        | some options => readFrom options none rest
        | none => .refused
    | .unknown, _ => .refused
where
  finish (options : Options) (pending : Option Pending) (command : Command) : Reading Invocation :=
    match options.settle? pending with
    | some options => .accepted ⟨options, command⟩
    | none => .refused

def read (arguments : List String) : Reading Invocation := readFrom {} none arguments

end NodeTelemetry.CommandLine
