import Arith.Command.Arguments
import Arith.Parse

/-! What a request prints and with which code it exits.

Code 0 stands for an answer, 1 for a file that cannot be read, 2 for arguments or an
expression that cannot be accepted.
-/

set_option autoImplicit false

namespace Arith.Command

/-- What is written, without the lines of a logger: they go to standard error as well, but
only where the environment of the command asks for them. -/
structure Output where
  exitCode : UInt8
  stdout : String
  stderr : String
  deriving DecidableEq, Repr

inductive ReadError where
  | notFound
  | isDirectory
  | notDirectory
  | permissionDenied
  | invalidUtf8
  | other (reason : String)
  deriving DecidableEq, Repr

def ReadError.reason : ReadError → String
  | .notFound => "No such file or directory (os error 2)"
  | .isDirectory => "Is a directory (os error 21)"
  | .notDirectory => "Not a directory (os error 20)"
  | .permissionDenied => "Permission denied (os error 13)"
  | .invalidUtf8 => "stream did not contain valid UTF-8"
  | .other reason => reason

def decode (bytes : ByteArray) : Except ReadError String :=
  match String.fromUTF8? bytes with
  | some text => .ok text
  | none => .error .invalidUtf8

def tokenLine (tokens : List Token) : String :=
  String.intercalate " " (tokens.map Token.kindName) ++ "\n"

def answer (tree : Bool) (tokens : List Token) : Except ParseError String :=
  if tree then (parseTree tokens).map Expr.prefixForm
  else (parse tokens).map fun value => toString value.toInt

/-- Tokens are listed before the answer, and also where there is none. -/
def runSource (tree listTokens : Bool) (source : String) : Output :=
  let tokens := lex source
  let listing := if listTokens then tokenLine tokens else ""
  match answer tree tokens with
  | .ok text => ⟨0, listing ++ text ++ "\n", ""⟩
  | .error cause => ⟨2, listing, cause.message ++ "\n"⟩

/-- Here `file` is what reading the file named by the contents gave; it is looked at only
if the options ask for a file. -/
def run (options : Options) (file : Except ReadError String) : Output :=
  match if options.file then file else .ok options.contents with
  | .ok source => runSource options.tree options.tokens source
  | .error cause =>
    ⟨1, "", s!"Failed to read the input file '{options.contents}': {cause.reason}\n"⟩

def versionText : String :=
  "calcfront 0.1.0\n"

def helpLines : List String :=
  ["A tokenizer and precedence-climbing parser for dense integer arithmetic expressions.",
    "",
    "Usage: calcfront [OPTIONS] <CONTENTS>",
    "",
    "Arguments:",
    "  <CONTENTS>  ",
    "",
    "Options:",
    "  -f, --file     Tells calcfront to read the expression from a file instead of the command line",
    "  -t, --tree     Print the parsed tree as an s-expression instead of its value",
    "      --tokens   Print the token sequence before parsing",
    "  -h, --help     Print help",
    "  -V, --version  Print version"]

def helpText : String :=
  String.join (helpLines.map (· ++ "\n"))

def respond (request : Request) (file : Except ReadError String) : Output :=
  match request with
  | .run options => run options file
  | .help => ⟨0, helpText, ""⟩
  | .version => ⟨0, versionText, ""⟩
  | .refuse error => ⟨2, "", error.message ++ "\n"⟩

end Arith.Command
