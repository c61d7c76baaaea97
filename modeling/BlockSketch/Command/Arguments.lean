/-
The command line: a subcommand with its options, after options that every subcommand knows.

`expandShorthand` makes a program's file alone stand for generating from it. `Invocation.ofArguments` then reads the
arguments from left to right, and the first thing that is wrong, or that asks for help, ends the reading. An option may
be given once before the subcommand and once after it, where the later one counts; only categories may be repeated.
-/
import BlockSketch.Board.Basic
import BlockSketch.Text.Pieces

namespace BlockSketch

/-! ## The file shorthand -/

def subcommands : List String := ["generate", "check", "boards", "test", "help"]

/-- an argument that is an option, or looks like one -/
def isDashed (arg : String) : Bool := Text.startsWith arg "-"

/-- arguments with `generate` before the first one that is neither an option nor the value of `--config`, unless that
one names a subcommand -/
def expandShorthand : List String → List String
  | [] => []
  | [arg] => if isDashed arg || subcommands.contains arg then [arg] else ["generate", arg]
  | arg :: next :: rest =>
    if arg == "--config" then arg :: next :: expandShorthand rest
    else if isDashed arg then arg :: expandShorthand (next :: rest)
    else if subcommands.contains arg then arg :: next :: rest
    else "generate" :: arg :: next :: rest

/-! ## Options -/

inductive Opt where
  | noColor
  | verbose
  | config
  | board
  | output
  | role
  | category
  | listCategories
  | help
  | version
  deriving DecidableEq, Repr

namespace Opt

/-- the name of an option, written after two dashes -/
def name : Opt → String
  | .noColor => "no-color"
  | .verbose => "verbose"
  | .config => "config"
  | .board => "board"
  | .output => "output"
  | .role => "role"
  | .category => "category"
  | .listCategories => "list-categories"
  | .help => "help"
  | .version => "version"

/-- the letter of an option, written after one dash -/
def letter? : Opt → Option Char
  | .verbose => some 'v'
  | .board => some 'b'
  | .output => some 'o'
  | .role => some 'r'
  | .category => some 'c'
  | .help => some 'h'
  | .version => some 'V'
  | _ => none

def takesValue : Opt → Bool
  | .config | .board | .output | .role | .category => true
  | _ => false

/-- a value that an option can have: paths are not empty and roles are known -/
def admits (o : Opt) (value : String) : Bool :=
  match o with
  | .config | .output => !value.isEmpty
  | .role => (Role.ofName? value).isSome
  | _ => true

end Opt

/-! ## Subcommands -/

/-- what to do -/
inductive Verb where
  | generate
  | check
  | boards
  | test
  deriving DecidableEq, Repr

namespace Verb

def ofName? : String → Option Verb
  | "generate" => some .generate
  | "check" => some .check
  | "boards" => some .boards
  | "test" => some .test
  | _ => none

def options : Verb → List Opt
  | .generate => [.board, .output]
  | .check => [.board]
  | .boards => [.role]
  | .test => [.category, .listCategories]

def wordCount : Verb → Nat
  | .boards => 0
  | _ => 1

end Verb

/-- the options that every subcommand knows -/
def commonOptions : List Opt := [.noColor, .verbose, .config, .help]

/-- the options known before a subcommand, or after it -/
def knownOptions : Option Verb → List Opt
  | none => commonOptions ++ [.version]
  | some verb => commonOptions ++ verb.options

/-! ## Reading -/

/-- why arguments name nothing to do -/
inductive Halt where
  | misuse
  | help
  | version
  deriving DecidableEq, Repr

/-- options with their values and words, in the order they were given -/
structure Given where
  options : List (Opt × String) := []
  words : List String := []
  deriving DecidableEq, Repr

namespace Given

def has (g : Given) (o : Opt) : Bool := g.options.any (·.1 == o)

def value? (g : Given) (o : Opt) : Option String := g.options.lookup o

/-- the values of an option that may be repeated -/
def values (g : Given) (o : Opt) : List String := (g.options.filter (·.1 == o)).map (·.2)

/-- one more option -/
def accept (g : Given) (o : Opt) (value : String) : Except Halt Given :=
  match o with
  | .help => .error .help
  | .version => .error .version
  | _ =>
    if (g.has o && o != .category) || !o.admits value then .error .misuse
    else .ok { g with options := g.options ++ [(o, value)] }

/-- the option written as a name, perhaps with its value after an equals sign; an option that still waits for its value
is handed back -/
def acceptNamed (known : List Opt) (g : Given) (written : List Char) : Except Halt (Given × Option Opt) :=
  let (name, value?) := Text.cut '=' written
  match known.find? (·.name.toList == name), value? with
  | none, _ => .error .misuse
  | some o, none => if o.takesValue then .ok (g, some o) else (g.accept o "").map (·, none)
  | some o, some value =>
    if o.takesValue then (g.accept o (String.ofList value)).map (·, none) else .error .misuse

/-- options written as letters, the last one perhaps with its value right after it -/
def acceptLetters (known : List Opt) (g : Given) : List Char → Except Halt (Given × Option Opt)
  | [] => .ok (g, none)
  | letter :: rest =>
    match known.find? (·.letter? == some letter) with
    | none => .error .misuse
    | some o =>
      if o.takesValue then
        match rest with
        | [] => .ok (g, some o)
        | '=' :: value => (g.accept o (String.ofList value)).map (·, none)
        | value => (g.accept o (String.ofList value)).map (·, none)
      else
        match g.accept o "" with
        | .ok g => acceptLetters known g rest
        | .error halt => .error halt

/-- the options in one argument that starts with a dash -/
def acceptDashed (known : List Opt) (g : Given) (arg : String) : Except Halt (Given × Option Opt) :=
  match arg.toList with
  | '-' :: '-' :: written => g.acceptNamed known written
  | '-' :: letters => g.acceptLetters known letters
  | _ => .error .misuse

/-- words to the end of the arguments -/
def acceptWords (count : Nat) (g : Given) (words : List String) : Except Halt Given :=
  if g.words.length + words.length ≤ count then .ok { g with words := g.words ++ words } else .error .misuse

end Given

/-- an argument that is a word; a single dash is one -/
def isWord (arg : String) : Bool := !isDashed arg || arg == "-"

/-- the options before a subcommand, and the arguments from the first word on -/
def readCommon (g : Given) : List String → Except Halt (Given × List String)
  | [] => .ok (g, [])
  | arg :: rest =>
    if arg == "--" then .ok (g, [])
    else if isWord arg then .ok (g, arg :: rest)
    else
      match g.acceptDashed (knownOptions none) arg with
      | .error halt => .error halt
      | .ok (g, none) => readCommon g rest
      | .ok (g, some o) =>
        match rest with
        | [] => .error .misuse
        | value :: rest =>
          if isWord value then
            match g.accept o value with
            | .ok g => readCommon g rest
            | .error halt => .error halt
          else .error .misuse

/-- the options and words of a subcommand; after two dashes there are only words -/
def readOwn (verb : Verb) (g : Given) : List String → Except Halt Given
  | [] => .ok g
  | arg :: rest =>
    if arg == "--" then g.acceptWords verb.wordCount rest
    else if isWord arg then
      match g.acceptWords verb.wordCount [arg] with
      | .ok g => readOwn verb g rest
      | .error halt => .error halt
    else
      match g.acceptDashed (knownOptions (some verb)) arg with
      | .error halt => .error halt
      | .ok (g, none) => readOwn verb g rest
      | .ok (g, some o) =>
        match rest with
        | [] => .error .misuse
        | value :: rest =>
          if isWord value then
            match g.accept o value with
            | .ok g => readOwn verb g rest
            | .error halt => .error halt
          else .error .misuse

/-! ## Invocations -/

/-- something to do, with all it needs -/
inductive Job where
  | generate (file : String) (board output : Option String)
  | check (file : String) (board : Option String)
  | boards (role : Option Role)
  | test (path : String) (categories : List String)
  | listCategories (path : String)
  deriving DecidableEq, Repr

/-- the job of a subcommand with its options and words -/
def Verb.job (verb : Verb) (g : Given) : Except Halt Job :=
  match verb, g.words with
  | .generate, [file] => .ok (.generate file (g.value? .board) (g.value? .output))
  | .check, [file] => .ok (.check file (g.value? .board))
  | .boards, [] => .ok (.boards ((g.value? .role).bind Role.ofName?))
  | .test, [path] =>
    .ok (if g.has .listCategories then .listCategories path else .test path (g.values .category))
  | _, _ => .error .misuse

/-- a job and how to go about it -/
structure Invocation where
  noColor : Bool
  verbose : Bool
  config : Option String
  job : Job
  deriving DecidableEq, Repr

/-- what arguments ask for, without the file shorthand -/
def Invocation.ofExpanded (args : List String) : Except Halt Invocation := do
  let (common, rest) ← readCommon {} args
  match rest with
  | [] => .error .misuse
  | ["help"] => .error .help
  | ["help", topic] => .error (if subcommands.contains topic then .help else .misuse)
  | word :: rest =>
    let some verb := Verb.ofName? word | .error .misuse
    let own ← readOwn verb {} rest
    return {
      noColor := common.has .noColor || own.has .noColor
      verbose := common.has .verbose || own.has .verbose
      config := own.value? .config <|> common.value? .config
      job := ← verb.job own }

def Invocation.ofArguments (args : List String) : Except Halt Invocation := ofExpanded (expandShorthand args)

end BlockSketch
