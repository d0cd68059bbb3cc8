import Workflow.Value

/-!
# Arguments of a command

Arguments are words and options. An option has a long name behind two hyphens and may have a letter behind one;
letters can be joined. A value follows its option, or an equals sign behind a long name, or the letter itself.
Two hyphens alone end the options.
-/

namespace Workflow

structure OptionForm where
  name : String
  letter : Option Char
  /-- Whether a value follows. -/
  valued : Bool
  deriving DecidableEq

inductive UsageFault where
  | noCommand
  | unknownCommand (name : String)
  | unknownOption (name : String)
  | noValue (option : String)
  | needlessValue (option : String)
  | noWord
  | needlessWord (word : String)
  deriving DecidableEq

def UsageFault.message : UsageFault → String
  | noCommand => "a command is missing"
  | unknownCommand name => s!"no such command: {name}"
  | unknownOption name => s!"no such option: {name}"
  | noValue option => s!"option --{option} needs a value"
  | needlessValue option => s!"option --{option} takes no value"
  | noWord => "a manifest is missing"
  | needlessWord word => s!"unexpected argument: {word}"

structure Arguments where
  words : List String
  /-- The options with their values; a flag has an empty one. -/
  options : Index String

namespace Arguments

def none : Arguments := ⟨[], []⟩

def addWords (a : Arguments) (words : List String) : Arguments := { a with words := a.words ++ words }

def addOptions (a : Arguments) (options : List (String × String)) : Arguments :=
  { a with options := options.foldl (fun index (name, value) => index.put name value) a.options }

def value? (a : Arguments) (name : String) : Option String := a.options.get? name

def flag (a : Arguments) (name : String) : Bool := (a.value? name).isSome

end Arguments

inductive ArgumentKind where
  | word
  | ending
  | options (given : List (String × String))
  /-- Options of which the last still needs its value. -/
  | unfinished (given : List (String × String)) (name : String)
  | wrong (f : UsageFault)
  deriving DecidableEq

namespace ArgumentKind

def letters (forms : List OptionForm) (given : List (String × String)) : List Char → ArgumentKind
  | [] => options given
  | c :: rest =>
    match forms.find? fun f => f.letter == some c with
    | none => wrong (.unknownOption (String.ofList ['-', c]))
    | some f =>
      if f.valued then
        if rest = [] then .unfinished given f.name else options (given ++ [(f.name, String.ofList rest)])
      else letters forms (given ++ [(f.name, "")]) rest

def long (forms : List OptionForm) (cs : List Char) : ArgumentKind :=
  let name := String.ofList (cs.takeWhile (· != '='))
  match forms.find? fun f => f.name == name with
  | none => wrong (.unknownOption ("--" ++ name))
  | some f =>
    match cs.dropWhile (· != '='), f.valued with
    | [], true => .unfinished [] name
    | [], false => options [(name, "")]
    | _ :: value, true => options [(name, String.ofList value)]
    | _ :: _, false => wrong (.needlessValue name)

def of (forms : List OptionForm) (argument : String) : ArgumentKind :=
  match argument.toList with
  | ['-', '-'] => ending
  | '-' :: '-' :: cs => long forms cs
  | '-' :: c :: cs => letters forms [] (c :: cs)
  | _ => word

end ArgumentKind

def Arguments.read (forms : List OptionForm) (before : Arguments) : List String → Except UsageFault Arguments
  | [] => .ok before
  | a :: rest =>
    match ArgumentKind.of forms a, rest with
    | .word, rest => read forms (before.addWords [a]) rest
    | .ending, rest => .ok (before.addWords rest)
    | .options given, rest => read forms (before.addOptions given) rest
    | .unfinished given name, value :: rest => read forms (before.addOptions (given ++ [(name, value)])) rest
    | .unfinished _ name, [] => .error (.noValue name)
    | .wrong f, _ => .error f

end Workflow
