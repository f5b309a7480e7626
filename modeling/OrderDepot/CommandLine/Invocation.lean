/-!
The arguments of the operators' tool. Words before a command may only ask for help or for the version; a
command takes one operand. After a double dash every word is an operand.
-/

namespace OrderDepot.CommandLine

def programName : String := "of-cli"

def version : String := "0.1.0"

inductive Command where
  | validate
  | lookUp
  deriving DecidableEq, Repr

namespace Command

def all : List Command := [.validate, .lookUp]

def name : Command → String
  | .validate => "validate"
  | .lookUp => "show"

def about : Command → String
  | .validate => "Decode and validate an order payload"
  | .lookUp => "Print a stored order as JSON"

def operand : Command → String
  | .validate => "<FILE>"
  | .lookUp => "<ORDER_UID>"

def operandAbout : Command → String
  | .validate => "Path to a JSON payload, or `-` for stdin"
  | .lookUp => "Order id"

def ofName? (s : String) : Option Command :=
  all.find? (·.name = s)

def accepts (c : Command) (operand : String) : Bool :=
  match c with
  | .validate => !operand.isEmpty
  | .lookUp => true

end Command

inductive Invocation where
  | run (command : Command) (operand : String)
  | help (command : Option Command)
  | version
  | misuse
  deriving DecidableEq, Repr

namespace Invocation

def isOption (word : String) : Bool :=
  match word.toList with
  | '-' :: _ :: _ => true
  | _ => false

def asksForHelp (word : String) : Bool :=
  match word.toList with
  | '-' :: 'h' :: _ => true
  | _ => word == "--help"

def asksForVersion (word : String) : Bool :=
  match word.toList with
  | '-' :: 'V' :: _ => true
  | _ => word == "--version"

def ofOperands (c : Command) : Option String → Bool → List String → Invocation
  | some operand, _, [] => .run c operand
  | none, _, [] => .misuse
  | found, true, word :: rest =>
    if found.isNone ∧ c.accepts word then ofOperands c (some word) true rest else .misuse
  | found, false, word :: rest =>
    if word = "--" then ofOperands c found true rest
    else if isOption word then if asksForHelp word then .help c else .misuse
    else if found.isNone ∧ c.accepts word then ofOperands c (some word) false rest
    else .misuse

def parse : List String → Invocation
  | [] => .misuse
  | word :: rest =>
    if isOption word then
      if asksForHelp word then .help none
      else if asksForVersion word then .version
      else .misuse
    else
      match Command.ofName? word with
      | some c => ofOperands c none false rest
      | none =>
        match rest.map Command.ofName? with
        | [] => if word = "help" then .help none else .misuse
        | [some c] => if word = "help" then .help c else .misuse
        | _ => .misuse

end Invocation

def table (rows : List (String × String)) : String :=
  let width := rows.foldl (fun w r => max w r.1.length) 0
  String.join (rows.map fun (left, right) =>
    "  " ++ left ++ String.ofList (List.replicate (width - left.length + 2) ' ') ++ right ++ "\n")

def helpText : Option Command → String
  | none =>
    "Orderflow operator tools\n\nUsage: " ++ programName ++ " <COMMAND>\n\nCommands:\n" ++
      table (Command.all.map (fun c => (c.name, c.about)) ++
        [("help", "Print this message or the help of the given subcommand(s)")]) ++
      "\nOptions:\n" ++ table [("-h, --help", "Print help"), ("-V, --version", "Print version")]
  | some c =>
    c.about ++ "\n\nUsage: " ++ programName ++ " " ++ c.name ++ " " ++ c.operand ++ "\n\nArguments:\n" ++
      table [(c.operand, c.operandAbout)] ++ "\nOptions:\n" ++ table [("-h, --help", "Print help")]

end OrderDepot.CommandLine
