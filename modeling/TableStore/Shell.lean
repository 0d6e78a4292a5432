import TableStore.Log

/-!
# Shell

Running single lines, scripts and conversations on a session. What is printed and what is recorded
are part of the result, in order; records go to the stream of errors.
-/
namespace TableStore

inductive Output where
  | out (s : String)
  | err (s : String)
  | log (e : Event)
  deriving DecidableEq

namespace Output

def outText : Output → String
  | out s => s
  | _ => ""

/-- The output goes to the stream of errors. -/
def isError : Output → Bool
  | out _ => false
  | _ => true

/-- The stream of errors, after these records. -/
def errorText (logger : Logger) (past : List Event) : List Output → String
  | [] => ""
  | out _ :: os => errorText logger past os
  | err s :: os => s ++ errorText logger past os
  | log e :: os => logger.line past e ++ errorText logger (past ++ [e]) os

end Output

namespace Shell

/-- What a line asks for. -/
inductive Line where
  | ignored
  | unfinished
  | leave
  | statement (text : String)
  deriving DecidableEq

/-- A line without the white space around it is a comment or nothing, has no semicolon at its end,
asks to leave, or is a statement. -/
def Line.ofText (text : String) : Line :=
  let line := Text.trim text
  if Sql.isIgnorable line then .ignored
  else match line.toList.reverse with
    | ';' :: command =>
      let word := Text.upper (Text.trim (String.ofList command.reverse))
      if word = "EXIT" ∨ word = "QUIT" then .leave else .statement line
    | _ => .unfinished

/-- An error as a conversation shows it. -/
def errorText : Error → String
  | .ofStorage e => (Error.ofStorage e).text ++ " (in-memory state may be ahead of disk)"
  | e => e.text

def printReply : Except Error (Option Reply) → List Output
  | .ok (some r) => [.out (r.text ++ "\n")]
  | .ok none => []
  | .error e => [.err (errorText e ++ "\n")]

/-- The session after a line, what is printed, and whether the shell goes on. -/
def runLine (s : Session) (text : String) : Session × List Output × Bool :=
  match Line.ofText text with
  | .ignored => (s, [], true)
  | .unfinished =>
    (s, [.err "Multi-line statements are not supported, end each statement with ';'.\n"], true)
  | .leave => (s, [], false)
  | .statement line =>
    let r := s.executeLine line
    (r.1, printReply r.2, true)

def Line.log (s : Session) : Line → List Event
  | .statement line => s.executeLineLog line
  | _ => []

/-- What a line records, and then what it prints. -/
def lineOutput (s : Session) (text : String) : List Output :=
  ((Line.ofText text).log s).map .log ++ (runLine s text).2.1

/-- Runs lines up to one that leaves. -/
def runScript (s : Session) : List String → Session × List Output
  | [] => (s, [])
  | line :: lines =>
    let r := runLine s line
    if r.2.2 then
      let rest := runScript r.1 lines
      (rest.1, lineOutput s line ++ rest.2)
    else (r.1, lineOutput s line)

def banner : Output := .out "jsondb - type HELP; for commands, EXIT; to quit\n"

def prompt (s : Session) : Output := .out ("jsondb (" ++ s.selected.getD "none" ++ ")> ")

def farewell : Output := .out "Goodbye!\n"

def notText : String := "stream did not contain valid UTF-8"

/-- Prompts for lines and runs them. A line that is no text ends the conversation as an error. -/
def converse (s : Session) : List (Option String) → Session × List Output × Except String Unit
  | [] => (s, [prompt s, .out "\n", farewell], .ok ())
  | none :: _ => (s, [prompt s], .error notText)
  | some line :: lines =>
    let r := runLine s line
    if r.2.2 then
      let rest := converse r.1 lines
      (rest.1, prompt s :: (lineOutput s line ++ rest.2.1), rest.2.2)
    else (r.1, prompt s :: (lineOutput s line ++ [farewell]), .ok ())

/-- Where the lines come from. -/
inductive Source where
  | command (line : String)
  /-- A script, or none if there is no such file. -/
  | script (content : Option Content)
  | conversation (input : Content)

/-- The session after all lines, what is printed, and the error that stopped the run, if one did. -/
def runSource (s : Session) : Source → Session × List Output × Except String Unit
  | .command line => ((runLine s line).1, lineOutput s line, .ok ())
  | .script none => (s, [], .error StorageError.noSuchFile.message)
  | .script (some (.binary _)) => (s, [], .error notText)
  | .script (some (.text t)) =>
    let r := runScript s (Content.linesOfText t)
    (r.1, r.2, .ok ())
  | .conversation input =>
    let r := converse s input.lines
    (r.1, banner :: r.2.1, r.2.2)

/-- What a run leaves behind. -/
structure Outcome where
  storage : Storage
  output : List Output
  failed : Bool

namespace Outcome

def code (o : Outcome) : Nat := if o.failed then 1 else 0

def standardOutput (o : Outcome) : String := String.join (o.output.map Output.outText)

/-- All that goes to the stream of errors, in order. -/
def errors (o : Outcome) : List Output := o.output.filter Output.isError

/-- The stream of errors as a logger shows it. -/
def standardError (o : Outcome) (logger : Logger := .silent) : String :=
  Output.errorText logger [] o.output

end Outcome

def failure (message : String) : Output := .err ("Error: " ++ message ++ "\n")

/-- A run that got to its end stores every database. -/
def finish (r : Session × List Output × Except String Unit) : Outcome :=
  match r.2.2 with
  | .error message => ⟨r.1.storage, r.2.1 ++ [failure message], true⟩
  | .ok () =>
    let f := r.1.flush
    let output := r.2.1 ++ r.1.flushLog.map .log
    match f.2 with
    | .error e => ⟨f.1.storage, output ++ [failure e.text], true⟩
    | .ok () => ⟨f.1.storage, output, false⟩

/-- A whole run on a storage. -/
def run (storage : Storage) (source : Source) : Outcome :=
  match Session.open storage with
  | .error e => ⟨storage, [failure e.text], true⟩
  | .ok s =>
    let o := finish (runSource s source)
    { o with output := storage.openLog.map .log ++ o.output }

end Shell

end TableStore
