import Treewalk.Directory
import Treewalk.Session
import Treewalk.Text.Typed
import Treewalk.Tree.Dump.Json
import Treewalk.Tree.Sexpr

/-! # The command line

`Command.ofArgs?` reads the arguments of the program and `Command.answer` says what it writes to its
standard output and how it exits. What a command needs from outside, the bytes of its file and of
the standard input, is handed to it; `Command.answerIn` takes the file from a directory. Diagnostics
do not belong to the answer. -/

namespace Treewalk

/-- How `ast` shows a tree. -/
inductive Format where
  | sexpr
  | json
deriving DecidableEq, Repr

/-- What the program can be asked to do. -/
inductive Command where
  | run (file : String)
  | tokens (file : String)
  | ast (file : String) (format : Format)
  | repl
  | info
  | version
deriving DecidableEq, Repr

/-- A part of the arguments: an option of one letter, an option with a name and perhaps a value, or
a text, which may stand behind the mark that ends all options. -/
inductive Word where
  | letter (c : Char)
  | option (name : String) (value : Option String)
  | text (text : String)
  | escaped (text : String)
deriving DecidableEq

namespace Word

/-- Splits an option at its first equals sign. -/
def ofOption (chars : List Char) : Word :=
  match Number.splitFirst (· == '=') chars with
  | (name, value) => option (String.ofList name) (value.map String.ofList)

/-- The parts of the arguments. -/
def all : List String → List Word
  | [] => []
  | arg :: rest =>
    -- A single dash is a text, and two dashes end the options.
    match arg.toList with
    | ['-', '-'] => rest.map escaped
    | '-' :: '-' :: name => ofOption name :: all rest
    | '-' :: c :: letters => letter c :: (letters.map letter ++ all rest)
    | _ => text arg :: all rest

end Word

/-- What has been read of the arguments of a subcommand. -/
structure Arguments where
  verbose : Bool
  file : Option String
  format : Option Format
deriving DecidableEq

namespace Arguments

/-- Nothing has been read. -/
def none : Arguments := ⟨false, .none, .none⟩

/-- Adds the option that asks for more messages, which may be given once. -/
def addVerbose (a : Arguments) : Option Arguments :=
  if a.verbose then .none else some { a with verbose := true }

/-- Adds a file, of which there can be one, and whose name is not empty. -/
def addFile (a : Arguments) (name : String) : Option Arguments :=
  if a.file.isSome || name.isEmpty then .none else some { a with file := some name }

/-- Adds a format, which may be given once. -/
def addFormat (a : Arguments) (name : String) : Option Arguments :=
  if a.format.isSome then .none
  else if name = "sexpr" then some { a with format := some .sexpr }
  else if name = "json" then some { a with format := some .json }
  else .none

/-- Reads the arguments of a subcommand. -/
def read (a : Arguments) : List Word → Option Arguments
  | [] => some a
  | .letter 'v' :: rest => a.addVerbose.bind fun a => a.read rest
  | .option "verbose" .none :: rest => a.addVerbose.bind fun a => a.read rest
  | .option "format" (some value) :: rest => (a.addFormat value).bind fun a => a.read rest
  | .option "format" .none :: .text value :: rest => (a.addFormat value).bind fun a => a.read rest
  | .text name :: rest => (a.addFile name).bind fun a => a.read rest
  | .escaped name :: rest => (a.addFile name).bind fun a => a.read rest
  | _ => .none

end Arguments

namespace Command

/-- The command that the name and the arguments of a subcommand ask for. Only `ast` takes a format,
and a subcommand takes a file if and only if it needs one. -/
def ofSubcommand? (name : String) (a : Arguments) : Option Command :=
  match name, a.file, a.format with
  | "run", some file, none => some (run file)
  | "tokens", some file, none => some (tokens file)
  | "ast", some file, format => some (ast file (format.getD .sexpr))
  | "repl", none, none => some repl
  | "info", none, none => some info
  | _, _, _ => none

/-- The command that the parts of the arguments ask for. `verbose` says whether the option that asks
for more messages has been given. -/
def ofWords? (verbose : Bool) : List Word → Option Command
  | .letter 'V' :: _ => some version
  | .option "version" none :: _ => some version
  | .letter 'v' :: rest => if verbose then none else ofWords? true rest
  | .option "verbose" none :: rest => if verbose then none else ofWords? true rest
  | .text name :: rest => (Arguments.none.read rest).bind (ofSubcommand? name)
  | _ => none

/-- The command that the arguments ask for, if they can be understood. -/
def ofArgs? (args : List String) : Option Command := ofWords? false (Word.all args)

/-- The file that a command needs. -/
def file? : Command → Option String
  | run file => some file
  | tokens file => some file
  | ast file _ => some file
  | _ => none

end Command

/-- Does a command take anything from the standard input? -/
def Command.readsInput : Command → Bool
  | run _ => true
  | repl => true
  | _ => false

/-- What a command leaves behind: its exit code and what it wrote to standard output. -/
structure Answer where
  exit : Nat
  output : String
deriving DecidableEq, Repr

namespace Answer

/-- The answer to arguments that cannot be understood. -/
def usage : Answer := ⟨2, ""⟩

/-- The answer if the file of a command cannot be read as text. -/
def unreadable : Answer := ⟨66, ""⟩

end Answer

namespace Command

/-- The number of this version of the language. -/
def versionText : String := "0.4.0"

/-- Pads a text with spaces to a width, in front of it. -/
def padLeft (width : Nat) (text : String) : String :=
  String.ofList (List.replicate (width - text.length) ' ') ++ text

/-- Pads a text with spaces to a width, behind it. -/
def padRight (width : Nat) (text : String) : String :=
  text ++ String.ofList (List.replicate (width - text.length) ' ')

/-- A token in a token listing: its line, its kind and its text. -/
def tokenLine (t : Token) : String :=
  padLeft 4 (toString t.line) ++ "  " ++ padRight 14 t.kind.name ++ " " ++ t.lexeme

/-- Puts lines together, each with a line break behind it. -/
def joinLines (lines : List String) : String := String.join (lines.map (· ++ "\n"))

/-- Lists the tokens of a source, also if it has lexical faults. -/
def listTokens (source : String) : Answer :=
  let lexed := Lexed.ofSource source
  ⟨if lexed.diagnostics.isEmpty then 0 else Ending.staticExit,
    joinLines (lexed.tokens.map tokenLine)⟩

/-- Shows the tree of a source. -/
def showTree (format : Format) (source : String) : Answer :=
  match Program.ofSource source with
  | .error _ => ⟨Ending.staticExit, ""⟩
  | .ok program =>
    match format with
    | .sexpr => ⟨0, program.outline ++ "\n"⟩
    | .json => ⟨0, program.dump.json ++ "\n"⟩

/-- Runs a source. -/
def runFile (fuel : Nat) (source : String) (input : List UInt8) : Answer :=
  match (Machine.start input .unlimited).runSource fuel source with
  | (ending, m) => ⟨ending.exitCode, m.sink.written⟩

/-- What `info` shows. -/
def infoLines : List String :=
  ["Luria interpreter", "Version: " ++ versionText, "", "Language:",
    "  - Dynamic values: null, booleans, numbers, strings, arrays, functions",
    "  - Block scoping with shadowing", "  - Recursive functions with fixed arity",
    "  - readnumber / readstring / readboolean from standard input", "", "Exit codes:",
    "  " ++ toString Ending.staticExit ++ "  lexical or syntax error",
    "  " ++ toString Answer.unreadable.exit ++ "  unreadable input file",
    "  " ++ toString Ending.runtimeExit ++ "  runtime error"]

/-! ### The interactive session -/

/-- What the interactive session shows first. -/
def bannerLines : List String :=
  ["Luria REPL v" ++ versionText, "Type :help for help, :quit to exit", ""]

/-- What the interactive session shows when it is asked for help. -/
def helpLines : List String :=
  ["Commands:", "  :help, :h    Show this help", "  :quit, :q    Exit the REPL", "",
    "Anything else is run as Luria source. Globals persist between lines."]

/-- What a line of an interactive session asks for. -/
inductive Entry where
  | nothing
  | quit
  | help
  | source (text : String)
deriving DecidableEq

/-- Reads a typed line, without the white space around it. -/
def Entry.ofLine (line : String) : Entry :=
  match String.ofList (Text.trim (Text.typed line.toList)) with
  | "" => nothing
  | ":quit" => quit
  | ":q" => quit
  | ":help" => help
  | ":h" => help
  | text => source text

/-- Runs the lines of an interactive session up to a line that ends it, or to the first one that is
not UTF-8. The help goes to the sink of the machine, as all that is printed does. -/
def interact (fuel : Nat) (m : Machine) : List (List UInt8) → Machine
  | [] => m
  | line :: rest =>
    match (Input.decode? line).map Entry.ofLine with
    | none => m
    | some .quit => m
    | some .nothing => interact fuel m rest
    | some .help => interact fuel { m with sink := (m.sink.write (joinLines helpLines)).1 } rest
    | some (.source text) => interact fuel (m.runSource fuel text).2.clearLog rest

/-- Runs an interactive session. Its programs have no input of their own. -/
def interactive (fuel : Nat) (input : List UInt8) : Answer :=
  let m := interact fuel (.start [] .unlimited) (Input.lines input)
  ⟨0, joinLines bannerLines ++ m.sink.written ++ "Goodbye!\n"⟩

/-- What a command does. `contents` are the bytes of its file, if there is one and it can be
    read. -/
def answer (fuel : Nat) (command : Command) (contents : Option (List UInt8)) (input : List UInt8) :
    Answer :=
  let withSource (f : String → Answer) : Answer :=
    match contents.bind Input.decode? with
    | some source => f source
    | none => .unreadable
  match command with
  | run _ => withSource fun source => runFile fuel source input
  | tokens _ => withSource listTokens
  | ast _ format => withSource (showTree format)
  | repl => interactive fuel input
  | info => ⟨0, joinLines infoLines⟩
  | version => ⟨0, "luria " ++ versionText ++ "\n"⟩

/-- What a command does in a directory. -/
def answerIn (fuel : Nat) (command : Command) (d : Directory) (input : List UInt8) : Answer :=
  command.answer fuel (command.file?.bind d.read?) input

end Command

end Treewalk
