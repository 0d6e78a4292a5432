import TableStore.Proofs.Padding
import TableStore.Proofs.Parsing
import TableStore.Shell

/-!
# Lines that are statements

The tests that a line passes before it is parsed never come between a statement and the session. A
text that is parsed starts with a keyword and ends with a semicolon, so that its line is no comment,
is finished, and does not ask to leave; and what is run is the statement of the whole line.
-/
namespace TableStore

open Sql Text

/-! Texts that are parsed -/

namespace Sql

theorem Keyword.exists_head (k : Keyword) :
    ∃ c cs, k.spelling.toList = c :: cs ∧ c ∉ ['-', '/', 'E', 'Q'] := by
  cases k <;> exact ⟨_, _, rfl, by decide⟩

/-- No word for a keyword goes on as a word that starts with one of these. -/
theorem Keyword.ne_of_spelling {k : Keyword} {w : List Char}
    (hk : upper (String.ofList w) = k.spelling) (more : List Char) {c : Char} (cs : List Char)
    (hc : c ∈ ['-', '/', 'E', 'Q']) :
    upper (String.ofList (w ++ more)) ≠ String.ofList (c :: cs) := by
  intro h
  obtain ⟨d, ds, hd, hnot⟩ := k.exists_head
  rw [← hk, upper, String.toList_ofList, String.toList_ofList] at hd
  rw [upper, String.toList_ofList, String.ofList_inj, List.flatMap_append, hd] at h
  exact hnot ((List.cons.inj h).1 ▸ hc)

/-- Trimming a text that starts with a word leaves the word. -/
theorem exists_trim_append {w : List Char} (h : IsWord w) (u : List Char) :
    ∃ more, (trim (String.ofList (w ++ u))).toList = w ++ more := by
  have hskip : skipBlanks (w ++ u) = w ++ u := by
    obtain ⟨c, w', rfl⟩ := List.exists_cons_of_ne_nil h.1
    exact skipBlanks_cons_of_not (isBlank_of_isWordChar (h.2 c List.mem_cons_self)) (w' ++ u)
  rw [trim, String.toList_ofList, String.toList_ofList, hskip, dropTrailingBlanks,
    List.reverse_append, skipBlanks, List.dropWhile_append]
  split
  · refine ⟨[], ?_⟩
    rw [List.append_nil]
    exact dropTrailingBlanks_of_isWord h
  · exact ⟨_, by rw [List.reverse_append, List.reverse_reverse]⟩

/-- What is laid out up to a semicolon has it right before the rest. -/
theorem Laid.exists_semicolon {ls : List Lexeme} {cs rest : List Char}
    (h : Laid Spells (ls ++ [.token .semicolon]) cs rest) : ∃ u, cs = u ++ ';' :: rest := by
  obtain ⟨mid, hl, hs⟩ := Laid.append_iff.1 h
  obtain ⟨blanks, w, after, rfl, -, hw, rfl⟩ := hs
  obtain rfl := hw.eq_text (by simp)
  have hsuffix : ∀ {ls : List Lexeme} {cs mid : List Char}, Laid Spells ls cs mid →
      ∃ u, cs = u ++ mid := by
    intro ls
    induction ls with
    | nil => exact fun h => ⟨[], h⟩
    | cons l ls ih =>
      rintro cs mid ⟨blanks, w, after, rfl, -, -, h⟩
      obtain ⟨u, rfl⟩ := ih h
      exact ⟨blanks ++ (w ++ u), by simp⟩
  obtain ⟨u, rfl⟩ := hsuffix hl
  exact ⟨u ++ blanks, by simp [Token.text]⟩

namespace Statement

/-- A text that is parsed is a keyword, something more and a semicolon. -/
theorem exists_of_parse {text : String} {s : Statement} (h : parse text = .ok s) :
    ∃ w u, (trim text).toList = w ++ (u ++ [';']) ∧ IsWord w ∧
      upper (String.ofList w) = s.command.spelling := by
  obtain ⟨-, rest, hl, hr⟩ := parse_eq_ok_iff.1 h
  obtain ⟨after, hb, hl⟩ := Laid.cons_iff.1 hl
  obtain ⟨w, hw, hk⟩ := begins_keyword_iff.1 hb
  obtain ⟨hskip, hword, -⟩ := begins_name_iff.1 hw
  obtain ⟨u, rfl⟩ := hl.exists_semicolon
  refine ⟨w.toList, u, ?_, hword, ?_⟩
  · have hend : dropTrailingBlanks (w.toList ++ (u ++ [';'])) = w.toList ++ (u ++ [';']) := by
      refine List.rdropWhile_eq_self_iff.2 fun hne => ?_
      simp [isBlank]
    have hsplit : w.toList ++ (u ++ ';' :: rest) = w.toList ++ (u ++ [';']) ++ rest := by simp
    rw [trim, String.toList_ofList, hskip, hsplit, dropTrailingBlanks_append hr, hend]
  · rw [String.ofList_toList]
    exact Keyword.ofWord?_eq_some_iff.1 hk

/-- A text that is parsed is no comment. -/
theorem isIgnorable_of_parse {text : String} {s : Statement} (h : parse text = .ok s) :
    isIgnorable text = false := by
  obtain ⟨w, u, ht, ⟨hne, -⟩, hk⟩ := exists_of_parse h
  have hcomment : ∀ {c : Char} {cs : List Char}, c ∈ ['-', '/'] → upperChar c = [c] →
      w ++ (u ++ [';']) ≠ c :: cs := by
    intro c cs hc hu he
    obtain ⟨d, w', rfl⟩ := List.exists_cons_of_ne_nil hne
    obtain ⟨rfl, -⟩ := List.cons.inj he
    have hd : d ∈ ['-', '/', 'E', 'Q'] := List.mem_append_left ['E', 'Q'] hc
    refine Keyword.ne_of_spelling hk [] (w'.flatMap upperChar) hd ?_
    rw [List.append_nil, upper, String.toList_ofList, List.flatMap_cons, hu, List.singleton_append]
  unfold isIgnorable
  rw [ht]
  split
  · rename_i he
    exact absurd he (by simp)
  · rename_i he
    exact absurd he (hcomment (by simp) (by decide))
  · rename_i he
    exact absurd he (hcomment (by simp) (by decide))
  · rfl

end Statement

end Sql

/-! Lines -/

namespace Shell

theorem Line.ofText_of_parse {line : String} {s : Statement} (h : Statement.parse line = .ok s) :
    Line.ofText line = .statement (trim line) := by
  have h' : Statement.parse (trim line) = .ok s := by rw [Statement.parse_trim, h]
  obtain ⟨w, u, ht, hw, hk⟩ := Statement.exists_of_parse h
  have hreverse : (trim line).toList.reverse = ';' :: (w ++ u).reverse := by
    rw [ht, ← List.append_assoc, List.reverse_append, List.reverse_singleton, List.singleton_append]
  have hleave : ∀ (c : Char) (cs : List Char), c ∈ ['-', '/', 'E', 'Q'] →
      upper (trim (String.ofList (w ++ u))) ≠ String.ofList (c :: cs) := by
    intro c cs hc
    obtain ⟨more, hm⟩ := exists_trim_append hw u
    rw [← String.ofList_toList (s := trim _), hm]
    exact Keyword.ne_of_spelling hk more cs hc
  unfold Line.ofText
  dsimp only
  rw [Statement.isIgnorable_of_parse h', if_neg Bool.false_ne_true, hreverse]
  simp only [List.reverse_reverse]
  rw [if_neg]
  rintro (he | he)
  · exact hleave 'E' ['X', 'I', 'T'] (by simp) he
  · exact hleave 'Q' ['U', 'I', 'T'] (by simp) he

/-- White space around a line changes nothing in what it is parsed to, and a line that is parsed is
run as that statement, both from a line of a shell and on a session. -/
theorem runLine_of_statement (line : String) :
    Statement.parse (trim line) = Statement.parse line ∧
      ∀ statement, Statement.parse line = .ok statement →
        isIgnorable line = false ∧ Line.ofText line = .statement (trim line) ∧
          ∀ s : Session,
            s.executeLine line = ((s.execute line).1, (s.execute line).2.map some) ∧
            s.execute line = ((s.change statement.run).1, (s.change statement.run).2.bind id) ∧
            runLine s line = ((s.execute line).1, printReply ((s.execute line).2.map some), true) := by
  refine ⟨Statement.parse_trim line, fun statement h => ?_⟩
  have h' : Statement.parse (trim line) = .ok statement := by rw [Statement.parse_trim, h]
  have hline : ∀ {l : String}, Statement.parse l = .ok statement → ∀ s : Session,
      s.executeLine l = ((s.execute l).1, (s.execute l).2.map some) := by
    intro l hl s
    rw [Session.executeLine, Statement.isIgnorable_of_parse hl, if_neg Bool.false_ne_true]
  refine ⟨Statement.isIgnorable_of_parse h, Line.ofText_of_parse h, fun s => ⟨hline h s, ?_, ?_⟩⟩
  · rw [Session.execute, h]
  · have hs : s.execute (trim line) = s.execute line := by
      rw [Session.execute, Session.execute, h, h']
    rw [runLine, Line.ofText_of_parse h]
    dsimp only
    rw [hline h' s, hs]

/-- A line that has, between quotes, what would end it and make it a comment or a farewell. -/
def farewells : String := "\u3000Delete from a where b= \"; -- exit\" ;\u00a0\t"

theorem runLine_of_statement_farewells :
    Statement.parse farewells = .ok (.delete "a" (some ⟨"b", .text "; -- exit"⟩)) ∧
      isIgnorable farewells = false ∧
        let s : Session := ⟨.ofDatabases [], { store := .memory .empty }⟩
        runLine s farewells = (s, printReply (.error (.ofValidation .noSelection)), true) := by
  have h : Statement.parse farewells = .ok (.delete "a" (some ⟨"b", .text "; -- exit"⟩)) := rfl
  obtain ⟨hi, -, hs⟩ := (runLine_of_statement farewells).2 _ h
  refine ⟨h, hi, ?_⟩
  intro s
  obtain ⟨-, he, hr⟩ := hs s
  rw [hr, he]
  rfl

end Shell

end TableStore
