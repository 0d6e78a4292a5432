import TableStore.Proofs.Bytes
import TableStore.Shell

/-!
# Conversations

A conversation runs the same lines as a script of the same text, up to the first one that leaves,
and so ends with the same storage. It records the same, and prints the same between its banner and
its farewell, with a prompt before each line.
-/
namespace TableStore.Shell

/-- A line that is run: the session before it, and what it records and prints. -/
structure Turn where
  before : Session
  printed : List Output

/-- The session after some lines, none of which leaves. -/
def after (s : Session) (lines : List String) : Session :=
  lines.foldl (fun s line => (runLine s line).1) s

def turns (s : Session) : List String → List Turn
  | [] => []
  | line :: lines => ⟨s, lineOutput s line⟩ :: turns (runLine s line).1 lines

def leaves (line : String) : Bool := Line.ofText line = .leave

/-- The lines before the first one that leaves. -/
def staying (lines : List String) : List String := lines.takeWhile fun line => !leaves line

/-- How a conversation ends that has these lines. -/
def ending (lines : List String) : List Output :=
  if lines.any leaves then [farewell] else [.out "\n", farewell]

variable {s : Session} {line : String} {lines : List String}

/-! Single lines -/

theorem runLine_of_leaves (h : leaves line = true) : runLine s line = (s, [], false) := by
  rw [runLine, of_decide_eq_true h]

theorem lineOutput_of_leaves (h : leaves line = true) : lineOutput s line = [] := by
  rw [lineOutput, runLine_of_leaves h, of_decide_eq_true h]
  rfl

theorem runLine_goesOn (h : leaves line = false) : (runLine s line).2.2 = true := by
  have hl := of_decide_eq_false h
  unfold runLine
  split
  · rfl
  · rfl
  · rename_i he
    exact absurd he hl
  · rfl

theorem staying_of_leaves (h : leaves line = true) (lines : List String) :
    staying (line :: lines) = [] := by
  rw [staying, List.takeWhile_cons_of_neg (by simp [h])]

theorem staying_cons (h : leaves line = false) (lines : List String) :
    staying (line :: lines) = line :: staying lines := by
  rw [staying, List.takeWhile_cons_of_pos (by simp [h]), staying]

/-! Scripts and conversations -/

theorem after_cons (s : Session) (line : String) (lines : List String) :
    after s (line :: lines) = after (runLine s line).1 lines := by
  rw [after, List.foldl_cons, after]

theorem runScript_eq (s : Session) (lines : List String) : runScript s lines =
    (after s (staying lines), (turns s (staying lines)).flatMap Turn.printed) := by
  induction lines generalizing s with
  | nil => rfl
  | cons line lines ih =>
    rw [runScript]
    cases h : leaves line with
    | true =>
      rw [runLine_of_leaves h, lineOutput_of_leaves h, staying_of_leaves h]
      rfl
    | false =>
      dsimp only
      rw [runLine_goesOn h, if_pos rfl, ih, staying_cons h, after_cons, turns, List.flatMap_cons]

theorem converse_eq (s : Session) (lines : List String) : converse s (lines.map some) =
    (after s (staying lines),
      (turns s (staying lines)).flatMap (fun turn => prompt turn.before :: turn.printed) ++
        prompt (after s (staying lines)) :: ending lines, .ok ()) := by
  induction lines generalizing s with
  | nil => rfl
  | cons line lines ih =>
    rw [List.map_cons, converse]
    cases h : leaves line with
    | true =>
      have he : ending (line :: lines) = [farewell] := by
        rw [ending, List.any_cons, h, Bool.true_or, if_pos rfl]
      rw [runLine_of_leaves h, lineOutput_of_leaves h, staying_of_leaves h, he]
      rfl
    | false =>
      have he : ending (line :: lines) = ending lines := by
        rw [ending, List.any_cons, h, Bool.false_or, ending]
      dsimp only
      rw [runLine_goesOn h, if_pos rfl, ih, staying_cons h, he, after_cons, turns,
        List.flatMap_cons, List.cons_append, List.cons_append, List.append_assoc]

/-- What comes after a line that leaves is not looked at. -/
theorem staying_append (h : leaves line = true) (lines rest rest' : List String) :
    staying (lines ++ line :: rest) = staying (lines ++ line :: rest') := by
  induction lines with
  | nil => rw [List.nil_append, List.nil_append, staying_of_leaves h, staying_of_leaves h]
  | cons l lines ih =>
    rw [List.cons_append, List.cons_append]
    cases hl : leaves l with
    | true => rw [staying_of_leaves hl, staying_of_leaves hl]
    | false => rw [staying_cons hl, staying_cons hl, ih]

theorem ending_append (h : leaves line = true) (lines rest : List String) :
    ending (lines ++ line :: rest) = [farewell] := by
  rw [ending, List.any_append, List.any_cons, h, Bool.true_or, Bool.or_true, if_pos rfl]

/-! Texts -/

def Turn.text (turn : Turn) : String := String.join (turn.printed.map Output.outText)

theorem join_map_flatMap {α β : Type} (g : β → String) (f : α → List β) (xs : List α) :
    String.join ((xs.flatMap f).map g) =
      String.join (xs.map fun x => String.join ((f x).map g)) := by
  induction xs with
  | nil => rfl
  | cons x xs ih =>
    rw [List.flatMap_cons, List.map_append, String.join_append, ih, List.map_cons, String.join_cons]

theorem outText_log (events : List Event) :
    String.join ((events.map Output.log).map Output.outText) = "" := by
  induction events with
  | nil => rfl
  | cons e events ih =>
    rw [List.map_cons, List.map_cons, String.join_cons, ih]
    rfl

/-- Before its lines and after them, a run that is not broken off prints nothing to the standard
output, and does not depend on where the lines come from. -/
theorem run_eq {storage : Storage} (ho : Session.open storage = .ok s) (s' : Session) :
    ∃ opening st report failed, String.join (opening.map Output.outText) = "" ∧
      String.join (report.map Output.outText) = "" ∧
      ∀ source output, runSource s source = (s', output, .ok ()) →
        run storage source = ⟨st, opening ++ (output ++ report), failed⟩ := by
  obtain ⟨st, report, failed, hreport, hf⟩ : ∃ st report failed,
      String.join (report.map Output.outText) = "" ∧
      ∀ output, finish (s', output, .ok ()) = ⟨st, output ++ report, failed⟩ := by
    unfold finish
    dsimp only
    cases s'.flush.2 with
    | error e =>
      have hjoin : String.join
          ((s'.flushLog.map Output.log ++ [failure e.text]).map Output.outText) = "" := by
        rw [List.map_append, String.join_append, outText_log]
        rfl
      exact ⟨_, _, true, hjoin, fun output =>
        congrArg (Outcome.mk _ · true) (List.append_assoc output _ _)⟩
    | ok _ => exact ⟨_, s'.flushLog.map .log, false, outText_log _, fun _ => rfl⟩
  refine ⟨storage.openLog.map .log, st, report, failed, outText_log _, hreport, ?_⟩
  intro source output hs
  rw [run, ho]
  dsimp only
  rw [hs, hf]

/-- A script with this text. -/
def scripted (storage : Storage) (t : String) : Outcome :=
  run storage (.script (some (.ofBytes t.toUTF8)))

/-- A conversation whose input is this text. -/
def conversed (storage : Storage) (t : String) : Outcome :=
  run storage (.conversation (.ofBytes t.toUTF8))

theorem runSource_script (s : Session) (t : String) :
    runSource s (.script (some (.ofBytes t.toUTF8))) =
      (after s (staying (Content.linesOfText t)),
        (turns s (staying (Content.linesOfText t))).flatMap Turn.printed, .ok ()) := by
  rw [Content.ofBytes_toUTF8]
  dsimp only [runSource]
  rw [runScript_eq]

theorem runSource_conversation (s : Session) (t : String) :
    runSource s (.conversation (.ofBytes t.toUTF8)) =
      (after s (staying (Content.linesOfText t)),
        banner :: ((turns s (staying (Content.linesOfText t))).flatMap
            (fun turn => prompt turn.before :: turn.printed) ++
          prompt (after s (staying (Content.linesOfText t))) :: ending (Content.linesOfText t)),
        .ok ()) := by
  rw [Content.ofBytes_toUTF8]
  dsimp only [runSource, Content.lines]
  rw [converse_eq]

/-- The input of a conversation is divided into lines by its bytes. -/
theorem conversed_eq_binary (storage : Storage) (t : String) :
    conversed storage t = run storage (.conversation (.binary t.toUTF8)) := by
  rw [conversed, Content.ofBytes_toUTF8, run, run]
  dsimp only [runSource]
  rw [Content.lines_binary_toUTF8]

theorem outText_turns (s : Session) (lines : List String) :
    String.join (((turns s lines).flatMap Turn.printed).map Output.outText) =
      String.join ((turns s lines).map Turn.text) :=
  join_map_flatMap _ _ _

theorem outText_prompted (s : Session) (lines : List String) :
    String.join (((turns s lines).flatMap fun turn => prompt turn.before :: turn.printed).map
        Output.outText) =
      String.join ((turns s lines).map fun turn => (prompt turn.before).outText ++ turn.text) := by
  rw [join_map_flatMap]
  simp only [List.map_cons, String.join_cons, Turn.text]

theorem filter_prompted (ts : List Turn) :
    (ts.flatMap fun turn => prompt turn.before :: turn.printed).filter Output.isError =
      (ts.flatMap Turn.printed).filter Output.isError := by
  induction ts with
  | nil => rfl
  | cons turn ts ih =>
    have hprompt : ¬(prompt turn.before).isError = true := by simp [prompt, Output.isError]
    rw [List.flatMap_cons, List.cons_append, List.filter_cons_of_neg hprompt, List.filter_append,
      ih, List.flatMap_cons, List.filter_append]

theorem filter_ending (lines : List String) : (ending lines).filter Output.isError = [] := by
  unfold ending
  split <;> rfl

/-- What a logger shows depends on nothing but what goes to the stream of errors. -/
theorem errorText_filter (logger : Logger) (past : List Event) (os : List Output) :
    Output.errorText logger past (os.filter Output.isError) = Output.errorText logger past os := by
  induction os generalizing past with
  | nil => rfl
  | cons o os ih =>
    cases o with
    | out text => exact ih past
    | err text => exact congrArg (text ++ ·) (ih past)
    | log e => exact congrArg (logger.line past e ++ ·) (ih (past ++ [e]))

theorem standardError_congr {o o' : Outcome} (h : o.errors = o'.errors) (logger : Logger) :
    o.standardError logger = o'.standardError logger := by
  have he := congrArg (Output.errorText logger []) h
  rwa [Outcome.errors, Outcome.errors, errorText_filter, errorText_filter] at he

/-- Every error stands among the records of what was done before and after it. -/
example : (scripted { store := .directory (.holding ["data"] .empty) }
      "CREATE DATABASE d;\nUSE d").errors =
    [.log (.parsed (.createDatabase "d")), .log (.databaseCreated "d"), .log (.written "d"),
      .err "Multi-line statements are not supported, end each statement with ';'.\n",
      .log (.written "d"), .log (.saved "d")] := by
  rw [scripted, Content.ofBytes_toUTF8]
  decide +kernel

/-- Lines of every kind, one that leaves among them. -/
def visit (farewell : String) : String :=
  "CREATE DATABASE d;\r\n\nUSE d;\n-- two tables\nSHOW TABLES\nSHOW TABLES;\n Quit ; \r\n" ++ farewell

theorem lines_visit :
    Content.linesOfText (visit "DROP DATABASE d;") =
        ["CREATE DATABASE d;", "", "USE d;", "-- two tables", "SHOW TABLES", "SHOW TABLES;"] ++
          " Quit ; " :: ["DROP DATABASE d;"] ∧
      Content.linesOfText (visit "") =
        ["CREATE DATABASE d;", "", "USE d;", "-- two tables", "SHOW TABLES", "SHOW TABLES;"] ++
          " Quit ; " :: [] := by
  decide +kernel

theorem outputs_visit :
    (scripted { store := .memory .empty } (visit "")).standardOutput =
        "Database 'd' created.\nNow using database 'd'.\nNo tables found in database 'd'.\n" ∧
      (conversed { store := .memory .empty } (visit "")).standardOutput =
        "jsondb - type HELP; for commands, EXIT; to quit\n" ++
        "jsondb (none)> Database 'd' created.\n" ++ "jsondb (none)> " ++
        "jsondb (none)> Now using database 'd'.\n" ++ "jsondb (d)> " ++ "jsondb (d)> " ++
        "jsondb (d)> No tables found in database 'd'.\n" ++ "jsondb (d)> Goodbye!\n" := by
  rw [scripted, conversed, Content.ofBytes_toUTF8]
  decide +kernel

end TableStore.Shell
