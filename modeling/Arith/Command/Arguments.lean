/-! Command-line arguments.

This is how a list of words becomes a request, as a library for arguments would have it. What
the command then does depends on the request alone, and nothing that is proved of a run rests
on how its options were given.

Arguments are read from the left. The first one that asks for help or the version, or
that cannot stand where it does, settles the request; those after it are not looked at.
-/

set_option autoImplicit false

namespace Arith.Command

inductive Flag where
  | file
  | tree
  | tokens
  | help
  | version
  deriving DecidableEq, Repr

namespace Flag

def name : Flag → String
  | .file => "--file"
  | .tree => "--tree"
  | .tokens => "--tokens"
  | .help => "--help"
  | .version => "--version"

/-- Names are taken whole, never by their first letters. -/
def ofName? : String → Option Flag
  | "--file" => some .file
  | "--tree" => some .tree
  | "--tokens" => some .tokens
  | "--help" => some .help
  | "--version" => some .version
  | _ => none

def ofLetter? : Char → Option Flag
  | 'f' => some .file
  | 't' => some .tree
  | 'h' => some .help
  | 'V' => some .version
  | _ => none

end Flag

inductive UsageError where
  | unexpectedArgument (argument : String)
  | unexpectedValue (value : String) (flag : Flag)
  | repeatedFlag (flag : Flag)
  | missingContents
  deriving DecidableEq, Repr

def UsageError.message : UsageError → String
  | .unexpectedArgument argument => s!"error: unexpected argument '{argument}' found"
  | .unexpectedValue value flag =>
    s!"error: unexpected value '{value}' for '{flag.name}' found; no more were expected"
  | .repeatedFlag flag => s!"error: the argument '{flag.name}' cannot be used multiple times"
  | .missingContents => "error: the following required arguments were not provided:"

/-- With `file` set, `contents` is the path of the file that holds the expression;
otherwise it is the expression. -/
structure Options where
  file : Bool
  tree : Bool
  tokens : Bool
  contents : String
  deriving DecidableEq, Repr

inductive Request where
  | run (options : Options)
  | help
  | version
  | refuse (error : UsageError)
  deriving DecidableEq, Repr

structure Given where
  flags : List Flag
  contents : Option String
  deriving DecidableEq, Repr

namespace Given

def raise (given : Given) (flag : Flag) : Except Request Given :=
  match flag with
  | .help => .error .help
  | .version => .error .version
  | flag =>
    if flag ∈ given.flags then .error (.refuse (.repeatedFlag flag))
    else .ok { given with flags := flag :: given.flags }

def addContents (given : Given) (argument : String) : Except Request Given :=
  match given.contents with
  | none => .ok { given with contents := some argument }
  | some _ => .error (.refuse (.unexpectedArgument argument))

/-- A flag by its name. No flag takes a value, not even an empty one. -/
def addNamed (given : Given) (argument : List Char) : Except Request Given :=
  let name := String.ofList (argument.takeWhile (· != '='))
  match Flag.ofName? name, argument.dropWhile (· != '=') with
  | none, _ => .error (.refuse (.unexpectedArgument name))
  | some flag, [] => given.raise flag
  | some flag, _ :: value => .error (.refuse (.unexpectedValue (String.ofList value) flag))

def addLetter (given : Given) (letter : Char) : Except Request Given :=
  match Flag.ofLetter? letter with
  | none => .error (.refuse (.unexpectedArgument ("-" ++ letter.toString)))
  | some flag => given.raise flag

/-- Two dashes lead in a name, one dash leads in letters, and a dash by itself is no flag. -/
def addArgument (given : Given) (argument : String) : Except Request Given :=
  match argument.toList with
  | '-' :: '-' :: rest => given.addNamed ('-' :: '-' :: rest)
  | '-' :: letter :: letters => (letter :: letters).foldlM addLetter given
  | _ => given.addContents argument

/-- Behind an argument of two dashes nothing is a flag. -/
def addAll (given : Given) : List String → Except Request Given
  | [] => .ok given
  | argument :: rest =>
    if argument = "--" then rest.foldlM addContents given
    else
      match given.addArgument argument with
      | .error request => .error request
      | .ok given => given.addAll rest

def request (given : Given) : Request :=
  match given.contents with
  | none => .refuse .missingContents
  | some contents =>
    .run ⟨Flag.file ∈ given.flags, Flag.tree ∈ given.flags, Flag.tokens ∈ given.flags, contents⟩

end Given

def Request.ofArguments (arguments : List String) : Request :=
  match Given.addAll ⟨[], none⟩ arguments with
  | .error request => request
  | .ok given => given.request

end Arith.Command
