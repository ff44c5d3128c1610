/-!
# Arguments of the command line

An invocation is a list of options and words.  Options may have their value attached, by an equals
sign or, after a single letter, directly; otherwise it is the next argument.  After two dashes
everything is a word.  The first word names a command, whose own options and words follow it.
-/

namespace CellFilter.CommandLine

/-- What is to be done. -/
inductive Command where
  /-- List the message types of the descriptor resources. -/
  | types
  /-- Encode the schema of a type. -/
  | payload (typeName : String) (output? : Option String)
  /-- Describe the schema in a payload. -/
  | inspect (file : String)
  /-- Show the configuration in force. -/
  | config (save? : Option String)
  deriving DecidableEq, Repr

/-- A command with the options that stand before it. -/
structure Invocation where
  config? : Option String
  roots : List String
  command : Command
  deriving DecidableEq, Repr

/-- The names of the commands. -/
inductive Topic where
  | types
  | payload
  | inspect
  | config
  deriving DecidableEq, Repr

/-- The command of a name. -/
def Topic.ofName? : String → Option Topic
  | "types" => some .types
  | "payload" => some .payload
  | "inspect" => some .inspect
  | "config" => some .config
  | _ => none

/-- Why arguments name nothing to be run. -/
inductive Refusal where
  /-- Help was asked for, on one command or on all of them. -/
  | help (topic? : Option Topic)
  /-- The arguments are not well formed. -/
  | misuse
  deriving DecidableEq, Repr

/-- An option that takes a value. -/
structure OptionKind where
  long : String
  short? : Option Char
  /-- Whether it may be given more than once. -/
  repeats : Bool
  /-- Whether its value may be empty. -/
  mayBeEmpty : Bool
  deriving DecidableEq, Repr

/-- The option that names a configuration file. -/
def configOption : OptionKind := ⟨"config", some 'c', false, true⟩

/-- The option that names a directory of descriptor resources. -/
def rootOption : OptionKind := ⟨"root", some 'r', true, false⟩

/-- The option that names the file to which a payload is written. -/
def outputOption : OptionKind := ⟨"output", some 'o', false, false⟩

/-- The option that names the file to which a configuration is written. -/
def saveOption : OptionKind := ⟨"save", none, false, true⟩

/-- What one argument is. -/
inductive Token where
  | word (text : String)
  /-- An option with the value that is attached to it. -/
  | option (kind : OptionKind) (attached? : Option String)
  /-- Two dashes. -/
  | wordsOnly
  | help
  | unknown

/-- What one argument is where the given options are known. -/
def Token.of (kinds : List OptionKind) (argument : String) : Token :=
  match argument.toList with
  | ['-', '-'] => .wordsOnly
  | '-' :: '-' :: cs =>
    let name := String.ofList (cs.takeWhile (· != '='))
    let attached? := match cs.dropWhile (· != '=') with
      | [] => none
      | _ :: value => some (String.ofList value)
    if name == "help" then if attached?.isSome then .unknown else .help
    else match kinds.find? fun k => k.long == name with
      | some kind => .option kind attached?
      | none => .unknown
  | '-' :: c :: cs =>
    let attached? := match cs with
      | [] => none
      | '=' :: value => some (String.ofList value)
      | value => some (String.ofList value)
    if c == 'h' then .help
    else match kinds.find? fun k => k.short? == some c with
      | some kind => .option kind attached?
      | none => .unknown
  | _ => .word argument

/-- Whether an argument can be the value of the option before it. -/
def isValue (argument : String) : Bool :=
  match argument.toList with
  | '-' :: _ :: _ => false
  | _ => true

/-- Options with their values, in the order given. -/
abbrev Given := List (OptionKind × String)

/-- The options so far and one more. -/
def Given.add (given : Given) (kind : OptionKind) (value : String) : Except Refusal Given :=
  if value.isEmpty && !kind.mayBeEmpty then .error .misuse
  else if !kind.repeats && given.any (fun g => g.1 == kind) then .error .misuse
  else .ok (given ++ [(kind, value)])

/-- The values of an option. -/
def Given.values (given : Given) (kind : OptionKind) : List String :=
  (given.filter fun g => g.1 == kind).map Prod.snd

/-- Options, words, and the arguments after the last word that was asked for. -/
structure Parsed where
  given : Given
  words : List String
  rest : List String

/-- Reads options and words off the front of arguments, until `limit` words are read if the
reading is `stopping`; a word beyond the limit is refused otherwise. -/
def parse (kinds : List OptionKind) (topic? : Option Topic) (stopping : Bool) (limit : Nat) :
    (given : Given) → (words : List String) → List String → Except Refusal Parsed
  | given, words, [] => .ok ⟨given, words, []⟩
  | given, words, argument :: rest =>
    match Token.of kinds argument with
    | .help => .error (.help topic?)
    | .unknown => .error .misuse
    | .wordsOnly =>
      let all := words ++ rest
      if (stopping && !rest.isEmpty) || limit < all.length then .error .misuse
      else .ok ⟨given, all, []⟩
    | .word text =>
      if limit ≤ words.length then .error .misuse
      else if stopping && words.length + 1 = limit then .ok ⟨given, words ++ [text], rest⟩
      else parse kinds topic? stopping limit given (words ++ [text]) rest
    | .option kind (some value) => do
      parse kinds topic? stopping limit (← given.add kind value) words rest
    | .option kind none =>
      match rest with
      | [] => .error .misuse
      | value :: rest =>
        if isValue value then do
          parse kinds topic? stopping limit (← given.add kind value) words rest
        else .error .misuse

/-- The only word of a command. -/
def soleWord (words : List String) (mayBeEmpty : Bool) : Except Refusal String :=
  match words with
  | [word] => if word.isEmpty && !mayBeEmpty then .error .misuse else .ok word
  | _ => .error .misuse

/-- The command of a name with its own arguments. -/
def parseCommand (topic : Topic) (arguments : List String) : Except Refusal Command :=
  match topic with
  | .types => do
    let _ ← parse [] (some topic) false 0 [] [] arguments
    return .types
  | .payload => do
    let parsed ← parse [outputOption] (some topic) false 1 [] [] arguments
    return .payload (← soleWord parsed.words true) (parsed.given.values outputOption).head?
  | .inspect => do
    let parsed ← parse [] (some topic) false 1 [] [] arguments
    return .inspect (← soleWord parsed.words false)
  | .config => do
    let parsed ← parse [saveOption] (some topic) false 0 [] [] arguments
    return .config (parsed.given.values saveOption).head?

/-- The help that the words after the command for help ask for. -/
def parseHelp : List String → Refusal
  | [] => .help none
  | [name] =>
    match Topic.ofName? name with
    | some topic => .help (some topic)
    | none => if name == "help" then .help none else .misuse
  | _ => .misuse

/-- The invocation that arguments ask for. -/
def Invocation.ofArguments (arguments : List String) : Except Refusal Invocation := do
  let parsed ← parse [configOption, rootOption] none true 1 [] [] arguments
  match parsed.words with
  | [name] =>
    if name == "help" then throw (parseHelp parsed.rest)
    else match Topic.ofName? name with
      | some topic =>
        let command ← parseCommand topic parsed.rest
        return {
          config? := (parsed.given.values configOption).head?
          roots := parsed.given.values rootOption
          command }
      | none => throw .misuse
  | _ => throw .misuse

end CellFilter.CommandLine
