import Formula.Proofs.CommandLine.Record
import Formula.Proofs.CommandLine.Standard.Read
import Formula.Proofs.CommandLine.Standard.Output
import Formula.Proofs.Reading.Bracketed

namespace Formula

/- Written formulas take one line. -/

theorem Notation.mem_arrange {n : Notation} {op : Operation} {operands : List Token} {t : Token}
    (mem : t ∈ n.arrange op operands) :
    t = .opening ∨ t = .closing ∨ t = .run op.token ∨ t ∈ operands := by
  cases n <;> simp only [arrange, List.mem_cons, List.mem_append, List.not_mem_nil, or_false] at mem <;>
    grind

theorem Expr.no_break_tokens (n : Notation) (e : Expr) : ∀ t ∈ e.tokens n, '\n' ∉ t.chars := by
  induction e using Expr.node_induction with
  | leaf e none =>
    obtain ⟨text, term, tokens⟩ := tokens_leaf (n := n) none
    intro t mem
    rw [tokens, List.mem_singleton] at mem
    subst mem
    exact term.printable.no_break
  | node e op operation ih =>
    intro t mem
    rw [tokens_node operation] at mem
    rcases Notation.mem_arrange mem with rfl | rfl | rfl | inner
    · decide
    · decide
    · exact op.printable.no_break
    · obtain ⟨ts, tokens, inner⟩ := List.mem_flatten.mp inner
      obtain ⟨f, operand, rfl⟩ := List.mem_map.mp tokens
      exact ih f operand t inner

theorem Token.mem_spell {ts : List Token} {c : Char} (mem : c ∈ spell ts) :
    c = ' ' ∨ ∃ t ∈ ts, c ∈ t.chars := by
  induction ts using spell.induct with
  | case1 => cases mem
  | case2 t => exact .inr ⟨t, List.mem_singleton_self t, mem⟩
  | case3 t u rest ih =>
    rw [spell, List.mem_append, List.mem_append] at mem
    rcases mem with (first | space) | later
    · exact .inr ⟨t, List.mem_cons_self, first⟩
    · left
      unfold gap at space
      split at space
      · cases space
      · cases space
      · exact List.mem_singleton.mp space
    · rcases ih later with space | ⟨v, token, inner⟩
      · exact .inl space
      · exact .inr ⟨v, List.mem_cons_of_mem t token, inner⟩

theorem Expr.no_break_render (n : Notation) (e : Expr) : '\n' ∉ (e.render n).toList := by
  intro mem
  rw [render, String.toList_ofList] at mem
  rcases Token.mem_spell mem with space | ⟨t, token, inner⟩
  · cases space
  · exact no_break_tokens n e t token inner

namespace CommandLine

theorem shown_parse {p : Packages} (writes : WritesLog p.log) {env : Environment}
    (unset : env.filter = none) (n : Notation) (limit : Option Nat) (text : String) :
    p.shown env 0 (.catalogue :: Record.parse n limit text) = "" := by
  have hidden : (Record.catalogue :: Record.parse n limit text).filter
      (p.log.admits none (.ofVerbosity 0)) = [] := by
    rw [List.filter_eq_nil_iff]
    intro r mem
    rw [writes.admits]
    exact Nat.not_le_of_lt (Record.rank_of_parse mem)
  rw [Packages.shown, unset, writes.silent, hidden]
  rfl

namespace Packages

variable (p : Packages) (env : Environment) {r : Request}

theorem carryOut_ok {e : Expr} (accepted : parse r.form r.maxDepth r.formula = .ok e) :
    p.carryOut env r =
      ⟨0, r.command.task.answer r.form e ++ "\n",
        p.shown env r.verbosity (.catalogue :: Record.parse r.form r.maxDepth r.formula ++
          r.command.task.records e)⟩ := by
  simp only [carryOut, accepted]

theorem carryOut_error {err : ParseError}
    (refused : parse r.form r.maxDepth r.formula = .error err) :
    p.carryOut env r =
      ⟨1, "", p.shown env r.verbosity (.catalogue :: Record.parse r.form r.maxDepth r.formula) ++
        p.failure env r.form err⟩ := by
  simp only [carryOut, refused]

end Packages

namespace Line

/- What holds without an option. -/

def reading (line : Line) : Notation :=
  (line.notation? .reading).getD .usual

def coordinate (line : Line) (v : Variable) : Float :=
  (line.coordinate? v).getD 0

def wrt (line : Line) : Variable :=
  line.wrt?.getD .x

def output (line : Line) : Notation :=
  (line.notation? .output).getD line.reading

def target (line : Line) : Notation :=
  (line.notation? .target).getD .usual

def answer (line : Line) (e : Expr) : String :=
  match line.subcommand with
  | .evaluate =>
    Number.write (e.evaluate [line.coordinate .x, line.coordinate .y, line.coordinate .z])
  | .differentiate => (e.derivative line.wrt.name).render line.output
  | .render => e.render line.target

theorem answer_eq {line : Line} {command : Command} (told : line.command? = some command)
    (e : Expr) : command.task.answer line.reading e = line.answer e := by
  unfold command? at told
  unfold answer
  cases sub : line.subcommand with
  | evaluate =>
    rw [sub] at told
    cases told
    rfl
  | differentiate =>
    rw [sub] at told
    cases told
    rfl
  | render =>
    rw [sub] at told
    obtain ⟨target, found, rfl⟩ := Option.map_eq_some_iff.mp told
    rw [Line.target, found]
    rfl

theorem no_break_answer (line : Line) (e : Expr) : '\n' ∉ (line.answer e).toList := by
  unfold answer
  cases line.subcommand with
  | evaluate => exact (Number.printable_of_read? (Number.read?_write _)).no_break
  | differentiate => exact Expr.no_break_render _ _
  | render => exact Expr.no_break_render _ _

variable {p : Packages} (reads : ReadsArguments p.readArguments) (env : Environment) {line : Line}
  {text : String} {arguments : List String} (written : line.Written arguments)
  (proper : line.Proper text)

include reads written proper

theorem run_line :
    ∃ request, p.run env arguments = p.carryOut env request ∧ line.Tells text request ∧
      request.form = line.reading := by
  obtain ⟨request, read, tells⟩ := reads.accepts written proper
  refine ⟨request, ?_, tells, ?_⟩
  · rw [Packages.run, read]
  · rw [Request.form, tells.reading, reading]

theorem run_accepted {e : Expr} (accepted : parse line.reading line.limit text = .ok e) :
    (p.run env arguments).code = 0 ∧ (p.run env arguments).out = line.answer e ++ "\n" := by
  obtain ⟨request, run, tells, reading⟩ := run_line reads env written proper
  rw [← reading, ← tells.limit, ← tells.formula] at accepted
  rw [run, p.carryOut_ok env accepted, reading, answer_eq tells.command]
  exact ⟨rfl, rfl⟩

theorem run_refused {err : ParseError}
    (refused : parse line.reading line.limit text = .error err) :
    (p.run env arguments).code = 1 ∧ (p.run env arguments).out = "" ∧
      ∃ log, (p.run env arguments).err = log ++ p.failure env line.reading err ∧
        (WritesLog p.log → env.filter = none → line.Quiet → log = "") := by
  obtain ⟨request, run, tells, reading⟩ := run_line reads env written proper
  rw [← reading, ← tells.limit, ← tells.formula] at refused
  rw [run, p.carryOut_error env refused, reading]
  refine ⟨rfl, rfl, _, rfl, ?_⟩
  intro writes unset quiet
  rw [tells.quiet quiet, shown_parse writes unset]

end Line

theorem DescribesErrors.described {describe : Bool → String → String → String}
    (describes : DescribesErrors describe) (backtrace : Bool) (context cause : String) :
    ∃ trace, describe backtrace context cause =
        context ++ "\n\nCaused by:\n" ++ indented cause ++ trace ∧
      (backtrace = false → trace = "") := by
  cases backtrace with
  | false =>
    exact ⟨"", by rw [describes.layout, String.append_empty], fun _ => rfl⟩
  | true =>
    obtain ⟨trace, traced⟩ := describes.traced context cause
    exact ⟨trace, by rw [traced, describes.layout], Bool.noConfusion⟩

/-- A command line answers as its options tell, in whatever order and spelling they are given. For a
formula the output is one line: the value at the coordinates, which are zero if not given, the
derivative, or the formula in another notation. For a text that is no formula there is no output, and
the message tells the notation, the cause and the place. -/
theorem run_answers {p : Packages} (reads : ReadsArguments p.readArguments)
    (describes : DescribesErrors p.describeError) (writes : WritesLog p.log) (env : Environment)
    {line : Line} {text : String} {arguments : List String} (written : line.Written arguments)
    (proper : line.Proper text) :
    match parse line.reading line.limit text with
    | .ok e =>
      (p.run env arguments).code = 0 ∧ (p.run env arguments).out = line.answer e ++ "\n" ∧
        '\n' ∉ (line.answer e).toList
    | .error err =>
      (p.run env arguments).code = 1 ∧ (p.run env arguments).out = "" ∧
        ∃ log trace, (p.run env arguments).err = log ++ ("Error: failed to parse " ++
            line.reading.name ++ " expression\n\nCaused by:\n" ++
            indented (err.kind.name ++ ": " ++ err.message ++ "\n" ++ err.pointer) ++ trace ++
            "\n") ∧
          (env.filter = none → line.Quiet → log = "") ∧ (env.backtrace = false → trace = "") := by
  cases parsed : parse line.reading line.limit text with
  | ok e =>
    obtain ⟨code, out⟩ := Line.run_accepted reads env written proper parsed
    exact ⟨code, out, line.no_break_answer e⟩
  | error err =>
    obtain ⟨code, out, log, shown, quiet⟩ := Line.run_refused reads env written proper parsed
    obtain ⟨trace, described, traceless⟩ := describes.described env.backtrace
      ("failed to parse " ++ line.reading.name ++ " expression") err.report
    refine ⟨code, out, log, trace, ?_, quiet writes, traceless⟩
    rw [shown, Packages.failure, described, ParseError.report]
    have heading : " expression\n\nCaused by:\n" = " expression" ++ "\n\nCaused by:\n" := rfl
    have start : "Error: failed to parse " = "Error: " ++ "failed to parse " := rfl
    rw [heading, start]
    simp only [String.append_assoc]

/-- The line break in the text stands in the message too, and moves in with it. -/
theorem run_answers_broken :
    let line : Line := ⟨[], .evaluate,
      [.setting (.coordinate .y) "-1.5", .setting .reading "Postfix", .formula "(x\ny +)"]⟩
    let arguments := ["eval", "-y", "-1.5", "--notation=Postfix", "--", "(x\ny +)"]
    line.Written arguments ∧ line.Proper "(x\ny +)" ∧
      (run arguments).code = 1 ∧ (run arguments).out = "" ∧
      (run arguments).err = "Error: failed to parse postfix expression\n\nCaused by:\n" ++
        "    InvalidTokenError: Expected number or variable, but got 'x\n" ++
        "    y' at positions 2-4\n" ++ "    (\n" ++ "     ^\n" := by
  intro line arguments
  have coordinate : Spells (some .evaluate) (.setting (.coordinate .y) "-1.5") ["-y", "-1.5"] :=
    .letter (o := ⟨some 'y', "y", .setting (.coordinate .y)⟩)
      (List.mem_of_getElem? (i := 5) rfl) rfl rfl ⟨⟨.y, rfl⟩, rfl⟩
  have reading : Spells (some .evaluate) (.setting .reading "Postfix") ["--notation=Postfix"] :=
    .nameEquals (o := ⟨some 'n', "notation", .setting .reading⟩) List.mem_cons_self rfl
  have written : line.Written arguments :=
    .marked .evaluate "(x\ny +)" .nil (.cons coordinate (.cons reading .nil))
  have proper : line.Proper "(x\ny +)" := by
    refine ⟨rfl, by decide, ?_, Subcommand.noConfusion⟩
    intro s value mem
    simp only [line, List.nil_append, List.mem_cons, List.not_mem_nil, or_false, Part.setting.injEq,
      reduceCtorEq] at mem
    rcases mem with ⟨rfl, rfl⟩ | ⟨rfl, rfl⟩ <;> rfl
  have answers := run_answers (p := standard) Standard.reads_arguments Standard.describes_errors
    Standard.writes_log {} written proper
  have refused : parse line.reading line.limit "(x\ny +)" =
    .error ⟨.invalidTerm "x\ny", ⟨"(", ⟨1, 4⟩⟩⟩ := rfl
  rw [refused] at answers
  obtain ⟨code, out, log, trace, err, quiet, traceless⟩ := answers
  have silent : log = "" := quiet rfl (by simp [Line.Quiet, line])
  subst silent
  rw [traceless rfl] at err
  exact ⟨written, proper, code, out, err.trans (by decide +kernel)⟩

end CommandLine

end Formula
