/-
# Arguments of a tool

A tool has options with a long name and perhaps a one-letter name. An option is a flag, or takes
a value: after `=`, after the letter in the same argument, or as the next argument, which then
may not look like an option. Letters of flags may stand together after one dash. An option is
given at most once, a path is never empty, and there are no arguments beside options. Arguments
are read from left to right, and reading ends at the first mistake or where help or the version
is asked for.

Key definitions: `Choice`, `Given`, `readArguments`.
-/

namespace StackScript
namespace CommandLine

/-- What an option is for. -/
inductive Role where
  | flag
  | text
  | path
  | help
  | version
  deriving DecidableEq, Repr

/-- Whether an option comes with a value. -/
def Role.takesValue : Role → Bool
  | text | path => true
  | flag | help | version => false

/-- An option of a tool. -/
structure Choice where
  long : String
  letter? : Option Char
  role : Role
  about : String
  deriving DecidableEq, Repr

/-- The options that every tool has. -/
def commonChoices : List Choice :=
  [⟨"help", some 'h', .help, "Print help"⟩, ⟨"version", some 'V', .version, "Print version"⟩]

/-- What is wrong with the arguments. -/
inductive Misuse where
  | unexpected (argument : String)
  | repeated (long : String)
  | valueMissing (long : String)
  | valueUnwanted (long : String)
  | valueEmpty (long : String)
  | required (long : String)
  deriving DecidableEq, Repr

/-- The wording of a mistake. -/
def Misuse.message : Misuse → String
  | unexpected argument => "error: unexpected argument '" ++ argument ++ "' found"
  | repeated long => "error: the argument '--" ++ long ++ "' cannot be used multiple times"
  | valueMissing long => "error: a value is required for '--" ++ long ++ "' but none was supplied"
  | valueUnwanted long => "error: unexpected value for '--" ++ long ++ "' found"
  | valueEmpty long => "error: a value is required for '--" ++ long ++ "' but none was supplied"
  | required long => "error: the required argument '--" ++ long ++ "' was not provided"

/-- Why reading ended early. -/
inductive Stop where
  | misuse (cause : Misuse)
  | help
  | version
  deriving DecidableEq, Repr

/-- The options given so far, by long name; the value of a flag is empty. -/
abbrev Given := List (String × String)

namespace Given

/-- Whether an option was given. -/
def has (given : Given) (long : String) : Bool := (given.lookup long).isSome

/-- The value of an option that was given. -/
def value? (given : Given) (long : String) : Option String := given.lookup long

/-- The value of an option that has to be given. -/
def required (given : Given) (long : String) : Except Stop String :=
  match given.value? long with
  | some value => .ok value
  | none => .error (.misuse (.required long))

/-- Adds an option and its value. -/
def add (given : Given) (choice : Choice) (value : String) : Except Stop Given :=
  if given.has choice.long then .error (.misuse (.repeated choice.long))
  else if choice.role = .path ∧ value = "" then .error (.misuse (.valueEmpty choice.long))
  else .ok ((choice.long, value) :: given)

/-- Adds an option that takes no value. -/
def addFlag (given : Given) (choice : Choice) : Except Stop Given :=
  match choice.role with
  | .help => .error .help
  | .version => .error .version
  | _ => given.add choice ""

end Given

/-! ### One argument

An argument gives the options after it, and the option that waits for the next argument as its
value. -/

/-- Reads what follows one dash. -/
def readLetters (choices : List Choice) (given : Given) :
    List Char → Except Stop (Given × Option Choice)
  | [] => .ok (given, none)
  | c :: rest =>
    match choices.find? fun choice => choice.letter? = some c with
    | none => .error (.misuse (.unexpected ("-" ++ String.singleton c)))
    | some choice =>
      if choice.role.takesValue then
        match rest with
        | [] => .ok (given, some choice)
        | '=' :: value => (given.add choice (String.ofList value)).map (·, none)
        | value => (given.add choice (String.ofList value)).map (·, none)
      else
        match given.addFlag choice with
        | .error stop => .error stop
        | .ok given => readLetters choices given rest

/-- The name before the first `=` and the value after it, if there is one. -/
def splitValue : List Char → List Char × Option (List Char)
  | [] => ([], none)
  | c :: cs =>
    if c = '=' then ([], some cs)
    else
      let (name, value?) := splitValue cs
      (c :: name, value?)

/-- Reads what follows two dashes. -/
def readLong (choices : List Choice) (given : Given) (cs : List Char) :
    Except Stop (Given × Option Choice) :=
  let (name, value?) := splitValue cs
  match choices.find? fun choice => choice.long = String.ofList name with
  | none => .error (.misuse (.unexpected ("--" ++ String.ofList name)))
  | some choice =>
    match choice.role.takesValue, value? with
    | true, none => .ok (given, some choice)
    | true, some value => (given.add choice (String.ofList value)).map (·, none)
    | false, none => (given.addFlag choice).map (·, none)
    | false, some _ => .error (.misuse (.valueUnwanted choice.long))

/-- Reads an argument that is no value. -/
def readArgument (choices : List Choice) (given : Given) :
    List Char → Except Stop (Given × Option Choice)
  | '-' :: '-' :: cs => readLong choices given cs
  | '-' :: c :: cs => readLetters choices given (c :: cs)
  | cs => .error (.misuse (.unexpected (String.ofList cs)))

/-- Whether an argument starts like an option, which a lone dash does not. -/
def looksLikeOption : List Char → Bool
  | '-' :: _ :: _ => true
  | _ => false

/-! ### All arguments -/

/-- Reads arguments after those that gave the options `given`. Two dashes alone end the options,
and nothing may follow them. -/
def readFrom (choices : List Choice) (given : Given) : List String → Except Stop Given
  | [] => .ok given
  | argument :: rest =>
    if argument = "--" then
      match rest with
      | [] => .ok given
      | extra :: _ => .error (.misuse (.unexpected extra))
    else
      match readArgument choices given argument.toList with
      | .error stop => .error stop
      | .ok (given, none) => readFrom choices given rest
      | .ok (given, some choice) =>
        match rest with
        | [] => .error (.misuse (.valueMissing choice.long))
        | value :: rest =>
          if looksLikeOption value.toList then .error (.misuse (.valueMissing choice.long))
          else
            match given.add choice value with
            | .error stop => .error stop
            | .ok given => readFrom choices given rest

/-- The options that arguments give. -/
def readArguments (choices : List Choice) (arguments : List String) : Except Stop Given :=
  readFrom (choices ++ commonChoices) [] arguments

/-! ### Help -/

/-- The left column of an option in a help text. -/
def Choice.usage (choice : Choice) : String :=
  let letter := match choice.letter? with
    | some c => "-" ++ String.singleton c ++ ", "
    | none => "    "
  let value := if choice.role.takesValue then " <" ++ choice.long.toUpper ++ ">" else ""
  "  " ++ letter ++ "--" ++ choice.long ++ value

/-- The lines of a help text about options, the right column two blanks after the widest entry
of the left one. -/
def usageLines (choices : List Choice) : List String :=
  let widest := choices.foldl (fun n choice => max n choice.usage.length) 0
  choices.map fun choice => String.ofList (choice.usage.toList.rightpad (widest + 2) ' ') ++ choice.about

/-- The help text of a tool whose option `input` is required. -/
def helpText (name about : String) (choices : List Choice) : String :=
  about ++ "\n\nUsage: " ++ name ++ " [OPTIONS] --input <INPUT>\n\nOptions:\n"
    ++ String.join ((usageLines (choices ++ commonChoices)).map (· ++ "\n"))

end CommandLine
end StackScript
