import Formula.Proofs.CommandLine.Answer
import Formula.Proofs.Reading.Unbracketed

namespace Formula

namespace Expr

theorem hasInnerVariadic_iff {e : Expr} :
    e.hasInnerVariadic = true ↔ ∃ path f, path ≠ [] ∧ e.at? path = some f ∧ f.IsVariadic := by
  rw [hasInnerVariadic, List.any_eq_true]
  constructor
  · rintro ⟨g, mem, inner⟩
    obtain ⟨i, operand⟩ := List.getElem?_of_mem mem
    obtain ⟨path, f, found, variadic⟩ := hasVariadic_iff.mp inner
    exact ⟨i :: path, f, List.cons_ne_nil i path, (at?_cons operand path).trans found, variadic⟩
  · rintro ⟨path, f, below, found, variadic⟩
    cases path with
    | nil => exact absurd rfl below
    | cons i path =>
      obtain ⟨g, operand, inner⟩ := at?_operand found
      exact ⟨g, List.mem_of_getElem? operand, hasVariadic_iff.mpr ⟨path, f, inner, variadic⟩⟩

theorem leading_of_not_hasInnerVariadic {e : Expr} (none : e.hasInnerVariadic = false) :
    e.Leading := by
  intro path f found variadic
  cases path with
  | nil =>
    intro i mem
    cases mem
  | cons i path =>
    have some := hasInnerVariadic_iff.mpr ⟨i :: path, f, List.cons_ne_nil i path, found, variadic⟩
    rw [none] at some
    cases some

end Expr

namespace CommandLine

/-- Some line is a warning. -/
def warned (text : String) : Bool :=
  (text.toList.splitOn '\n').any ("[WARN ".toList.isPrefixOf ·)

theorem splitOn_line {line : List Char} (one : '\n' ∉ line) (rest : List Char) :
    (line ++ '\n' :: rest).splitOn '\n' = line :: rest.splitOn '\n' := by
  induction line with
  | nil => simp [List.splitOn, List.splitOnP_cons_eq_if_modifyHead]
  | cons c line ih =>
    rw [List.mem_cons, not_or] at one
    rw [List.cons_append, List.splitOn, List.splitOnP_cons_eq_if_modifyHead, ← List.splitOn,
      ih one.2, if_neg (by simpa using Ne.symm one.1)]
    rfl

theorem warned_line {line : String} (one : '\n' ∉ line.toList) (rest : String) :
    warned (line ++ "\n" ++ rest) = ("[WARN ".toList.isPrefixOf line.toList || warned rest) := by
  have chars : (line ++ "\n" ++ rest).toList = line.toList ++ '\n' :: rest.toList := by simp
  rw [warned, chars, splitOn_line one, List.any_cons, warned]

theorem warned_format {log : Log} (writes : WritesLog log) {r : Record} (clear : r.Clear)
    (rest : String) :
    warned (log.format false r ++ rest) = (decide (r.severity = .warn) || warned rest) := by
  have label : '\n' ∉ r.severity.label.toList := by cases r.severity <;> decide
  have one : '\n' ∉ ("[" ++ r.severity.label ++ " " ++ r.source ++ "] " ++ r.message).toList := by
    simp [label, clear.source.no_break, clear.message.no_break]
  rw [writes.format r clear, warned_line one]
  congr 1
  cases r.severity <;> simp [Severity.label, List.isPrefixOf]

theorem warned_join {log : Log} (writes : WritesLog log) {records : List Record}
    (clear : ∀ r ∈ records, r.Clear) :
    warned (String.join (records.map (log.format false))) = true ↔
      ∃ r ∈ records, r.severity = .warn := by
  -- each record is one line, so the lines of the log are those of its records
  induction records with
  | nil =>
    rw [List.map_nil]
    exact iff_of_false (by decide) (by simp)
  | cons r records ih =>
    rw [List.forall_mem_cons] at clear
    rw [List.map_cons, String.join_cons, warned_format writes clear.1, Bool.or_eq_true, ih clear.2]
    simp

/-- Warnings are shown, and not in colors. -/
structure Packages.Warns (p : Packages) (env : Environment) : Prop where
  plain : env.colors = false
  silent : p.log.notice env.filter = ""
  admits : p.log.admits env.filter .warn .ambiguity = true

def conversion (n target : Notation) (text : String) : List String :=
  ["-n", n.name, "render", "-t", target.name, "--", text]

namespace Line

/-- The other line asks the same, maybe of another text in another notation. -/
structure Alike (line other : Line) : Prop where
  subcommand : line.subcommand = other.subcommand
  value : ∀ s, s ≠ .reading → line.value? s = other.value? s

/-- The notation of a derivative is told, and not left to be the one that is read. -/
def Explicit (line : Line) : Prop :=
  line.subcommand = .differentiate → (line.value? .output).isSome

variable {line other : Line} {text : String}

theorem Proper.takes_value (proper : line.Proper text) {s : Setting} {value : String}
    (found : line.value? s = some value) : s.Takes value :=
  proper.takes s value (mem_of_valueIn? found)

theorem Proper.output_told (proper : line.Proper text) (told : (line.value? .output).isSome) :
    ∃ n, line.notation? .output = some n := by
  obtain ⟨value, found⟩ := Option.isSome_iff_exists.mp told
  rw [← Option.isSome_iff_exists, notation?, found]
  exact proper.takes_value found

theorem Alike.notation? (alike : line.Alike other) {s : Setting} (ne : s ≠ .reading) :
    line.notation? s = other.notation? s := by
  rw [Line.notation?, Line.notation?, alike.value s ne]

theorem Alike.limit (alike : line.Alike other) : line.limit = other.limit := by
  rw [Line.limit, Line.limit, alike.value .maxDepth Setting.noConfusion]

theorem Alike.answer (alike : line.Alike other) (proper : line.Proper text)
    (explicit : line.Explicit) (e : Expr) : line.answer e = other.answer e := by
  have same := alike.subcommand
  cases sub : line.subcommand with
  | evaluate =>
    have coordinate (v : Variable) : line.coordinate v = other.coordinate v := by
      rw [Line.coordinate, Line.coordinate, coordinate?, coordinate?,
        alike.value _ Setting.noConfusion]
    simp only [Line.answer, sub, ← same, coordinate]
  | differentiate =>
    obtain ⟨n, told⟩ := proper.output_told (explicit sub)
    have wrt : line.wrt = other.wrt := by
      rw [Line.wrt, Line.wrt, wrt?, wrt?, alike.value _ Setting.noConfusion]
    have output : line.output = other.output := by
      rw [Line.output, Line.output, ← alike.notation? Setting.noConfusion, told]
      rfl
    simp only [Line.answer, sub, ← same, wrt, output]
  | render =>
    have target : line.target = other.target := by
      rw [Line.target, Line.target, alike.notation? Setting.noConfusion]
    simp only [Line.answer, sub, ← same, target]

def converting (n target : Notation) (text : String) : Line :=
  ⟨[.setting .reading n.name], .render, [.setting .target target.name, .formula text]⟩

theorem converting_written (n target : Notation) (text : String) :
    (converting n target text).Written (conversion n target text) := by
  have reading : Spells none (.setting .reading n.name) ["-n", n.name] :=
    .letter (o := ⟨some 'n', "notation", .setting .reading⟩) List.mem_cons_self rfl rfl
      (by cases n <;> trivial)
  have told : Spells (some .render) (.setting .target target.name) ["-t", target.name] :=
    .letter (o := ⟨some 't', "to", .setting .target⟩) (List.mem_of_getElem? (i := 4) rfl) rfl rfl
      (by cases target <;> trivial)
  exact .marked .render text (.cons reading .nil) (.cons told .nil)

theorem converting_proper (n target : Notation) (text : String) :
    (converting n target text).Proper text where
  formula := rfl
  once := by
    have settings : [Setting.reading, .target].Nodup := by decide
    exact settings
  takes := by
    intro s value mem
    simp only [converting, List.cons_append, List.nil_append, List.mem_cons, List.not_mem_nil,
      or_false, Part.setting.injEq, reduceCtorEq] at mem
    rcases mem with ⟨rfl, rfl⟩ | ⟨rfl, rfl⟩
    · cases n <;> rfl
    · cases target <;> rfl
  required := fun _ => ⟨_, List.mem_cons_self⟩

theorem converting_reading (n target : Notation) (text : String) :
    (converting n target text).reading = n := by
  cases n <;> rfl

theorem converting_command (n target : Notation) (text : String) :
    (converting n target text).command? = some (.render target) := by
  cases target <;> rfl

end Line

theorem run_conversion {p : Packages} (reads : ReadsArguments p.readArguments) (env : Environment)
    {n : Notation} {text : String} {e : Expr} (accepted : parse n none text = .ok e)
    (target : Notation) :
    p.run env (conversion n target text) =
      ⟨0, e.render target ++ "\n", p.shown env 0 (.catalogue :: Record.parse n none text ++
        if target = .bare ∧ e.hasInnerVariadic then [.ambiguity] else [])⟩ := by
  obtain ⟨request, run, tells, reading⟩ := Line.run_line reads env
    (Line.converting_written n target text) (Line.converting_proper n target text)
  have command : request.command = .render target :=
    (Option.some.inj ((Line.converting_command n target text).symm.trans tells.command)).symm
  have quiet : request.verbosity = 0 := tells.quiet (by simp [Line.Quiet, Line.converting])
  have limit : request.maxDepth = none := tells.limit
  rw [Line.converting_reading] at reading
  rw [← reading, ← limit, ← tells.formula] at accepted
  rw [run, p.carryOut_ok env accepted, command, quiet, reading, limit, tells.formula]
  rfl

theorem mem_conversion {read : List Record} {ambiguous : Prop} [Decidable ambiguous] {r : Record} :
    (r ∈ read ++ if ambiguous then [.ambiguity] else []) ↔
      r ∈ read ∨ ambiguous ∧ r = .ambiguity := by
  split <;> simp_all

theorem warned_conversion {p : Packages} (reads : ReadsArguments p.readArguments)
    (writes : WritesLog p.log) {env : Environment} (warns : p.Warns env) {n : Notation}
    {text : String} {e : Expr} (accepted : parse n none text = .ok e) (target : Notation) :
    warned (p.run env (conversion n target text)).err = true ↔
      target = .bare ∧ e.hasInnerVariadic = true := by
  rw [run_conversion reads env accepted, Packages.shown, warns.silent, String.empty_append,
    warns.plain, warned_join writes]
  · constructor
    · rintro ⟨r, mem, warning⟩
      rcases mem_conversion.mp (List.mem_filter.mp mem).1 with read | ⟨ambiguous, -⟩
      · have lower := Record.rank_of_parse read
        rw [warning] at lower
        exact absurd lower (Nat.lt_irrefl _)
      · exact ambiguous
    · intro ambiguous
      refine ⟨.ambiguity, List.mem_filter.mpr ⟨?_, warns.admits⟩, rfl⟩
      exact mem_conversion.mpr (.inr ⟨ambiguous, rfl⟩)
  · intro r mem
    rcases mem_conversion.mp (List.mem_filter.mp mem).1 with read | ⟨-, rfl⟩
    · exact Record.clear_parse accepted read
    · exact Record.clear_ambiguity

theorem warns_of_unset {p : Packages} (writes : WritesLog p.log) {env : Environment}
    (unset : env.filter = none) (plain : env.colors = false) : p.Warns env where
  plain := plain
  silent := by rw [unset, writes.silent]
  admits := by
    rw [unset, writes.admits]
    decide

/-- The line that a run prints for a formula in another notation answers there all that the formula
answered in its own, unless the other notation is the bare one and the run warns. Where warnings are
shown, as they are without a filter, it warns exactly if an operation over any number of operands
then stands below the root. -/
theorem run_converted {p : Packages} (reads : ReadsArguments p.readArguments)
    (writes : WritesLog p.log) (env : Environment) {n target : Notation} {text : String} {e : Expr}
    (accepted : parse n none text = .ok e) :
    ∃ written,
      (p.run env (conversion n target text)).code = 0 ∧
      (p.run env (conversion n target text)).out = written ++ "\n" ∧ '\n' ∉ written.toList ∧
      (env.filter = none → env.colors = false → p.Warns env) ∧
      (p.Warns env → (warned (p.run env (conversion n target text)).err = true ↔
        target = .bare ∧ ∃ path f, path ≠ [] ∧ e.at? path = some f ∧ f.IsVariadic)) ∧
      ((target = .bare → p.Warns env ∧
          warned (p.run env (conversion n target text)).err = false) →
        ∀ (line other : Line) (arguments others : List String),
          line.Written arguments → line.Proper text → line.reading = n →
          other.Written others → other.Proper written → other.reading = target →
          line.Alike other → line.Explicit → line.value? .maxDepth = none →
          (p.run env others).code = (p.run env arguments).code ∧
            (p.run env others).out = (p.run env arguments).out) := by
  have code := congrArg Report.code (run_conversion reads env accepted target)
  have out := congrArg Report.out (run_conversion reads env accepted target)
  refine ⟨e.render target, code, out, e.no_break_render target, warns_of_unset writes, ?_, ?_⟩
  · intro warns
    rw [warned_conversion reads writes warns accepted, Expr.hasInnerVariadic_iff]
  · intro unwarned line other arguments others written proper reading otherWritten otherProper
      otherReading alike explicit unlimited
    have clear : target = .bare → e.hasInnerVariadic = false := by
      intro bare
      obtain ⟨warns, silent⟩ := unwarned bare
      rw [Bool.eq_false_iff, ne_eq, warned_conversion reads writes warns accepted, not_and] at silent
      exact Bool.eq_false_iff.mpr (silent bare)
    have limit : line.limit = none := by rw [Line.limit, unlimited]; rfl
    have here : parse line.reading line.limit text = .ok e := by rw [reading, limit, accepted]
    -- what was printed is read back: no operation in it takes operands that wait for another
    have there : parse other.reading other.limit (e.render target) = .ok e := by
      rw [otherReading, ← alike.limit, limit]
      exact parse_leading fun bare => Expr.leading_of_not_hasInnerVariadic (clear bare)
    obtain ⟨code, out⟩ := Line.run_accepted reads env written proper here
    obtain ⟨otherCode, otherOut⟩ := Line.run_accepted reads env otherWritten otherProper there
    exact ⟨otherCode.trans code.symm, by rw [otherOut, out, alike.answer proper explicit]⟩

theorem run_converted_mean :
    let asked := ["diff", "--wrt=z", "-o", "postfix", "(mean x (- y z))"]
    let again := ["-n", "rpn", "diff", "--wrt=z", "-opostfix", "x y z - mean"]
    parse .operatorFirst none "(mean x (- y z))" = .ok (.mean [.var .x, .var .y - .var .z]) ∧
      (run (conversion .operatorFirst .bare "(mean x (- y z))")).out = "x y z - mean\n" ∧
      warned (run (conversion .operatorFirst .bare "(mean x (- y z))")).err = false ∧
      (run again).code = (run asked).code ∧ (run again).out = (run asked).out := by
  intro asked again
  have accepted : parse .operatorFirst none "(mean x (- y z))" =
    .ok (.mean [.var .x, .var .y - .var .z]) := rfl
  obtain ⟨written, -, out, -, unset, warns, answers⟩ := @run_converted standard
    Standard.reads_arguments Standard.writes_log {} _ .bare _ _ accepted
  have shown : standard.Warns {} := unset rfl rfl
  have silent : warned (run (conversion .operatorFirst .bare "(mean x (- y z))")).err = false := by
    rw [Bool.eq_false_iff, ne_eq, run, warns shown, ← Expr.hasInnerVariadic_iff]
    decide
  have printed : (run (conversion .operatorFirst .bare "(mean x (- y z))")).out =
    "x y z - mean\n" := by decide +kernel
  obtain rfl : written = "x y z - mean" :=
    (String.append_left_inj "\n").mp (out.symm.trans printed)
  let own : List Part := [.setting .wrt "z", .setting .output "postfix"]
  let line : Line := ⟨[], .differentiate, own ++ [.formula "(mean x (- y z))"]⟩
  let other : Line := ⟨[.setting .reading "rpn"], .differentiate, own ++ [.formula "x y z - mean"]⟩
  have wrt : Spells (some .differentiate) (.setting .wrt "z") ["--wrt=z"] :=
    .nameEquals (o := ⟨none, "wrt", .setting .wrt⟩) (List.mem_of_getElem? (i := 4) rfl) rfl
  have option : ⟨some 'o', "output", .setting .output⟩ ∈ options (some .differentiate) :=
    List.mem_of_getElem? (i := 5) rfl
  have output : Spells (some .differentiate) (.setting .output "postfix") ["-o", "postfix"] :=
    .letter option rfl rfl trivial
  have joined : Spells (some .differentiate) (.setting .output "postfix") ["-opostfix"] :=
    .letterJoined option rfl rfl
  have reading : Spells none (.setting .reading "rpn") ["-n", "rpn"] :=
    .letter (o := ⟨some 'n', "notation", .setting .reading⟩) List.mem_cons_self rfl rfl trivial
  have takes (s : Setting) (value : String) (mem : .setting s value ∈ own) : s.Takes value := by
    simp only [own, List.mem_cons, List.not_mem_nil, or_false, Part.setting.injEq] at mem
    rcases mem with ⟨rfl, rfl⟩ | ⟨rfl, rfl⟩ <;> rfl
  have lineWritten : line.Written asked :=
    .inline .differentiate .nil (.cons wrt (.cons output (.cons (.formula rfl (by decide)) .nil)))
  have otherWritten : other.Written again :=
    .inline .differentiate (.cons reading .nil)
      (.cons wrt (.cons joined (.cons (.formula rfl (by decide)) .nil)))
  have lineProper : line.Proper "(mean x (- y z))" := by
    refine ⟨rfl, by decide, ?_, Subcommand.noConfusion⟩
    intro s value mem
    simp only [line, List.nil_append, List.mem_append, List.mem_singleton, reduceCtorEq,
      or_false] at mem
    exact takes s value mem
  have otherProper : other.Proper "x y z - mean" := by
    refine ⟨rfl, by decide, ?_, Subcommand.noConfusion⟩
    intro s value mem
    simp only [other, List.singleton_append, List.mem_cons, List.mem_append, Part.setting.injEq,
      List.not_mem_nil, reduceCtorEq, or_false] at mem
    rcases mem with ⟨rfl, rfl⟩ | mem
    · rfl
    · exact takes s value mem
  have alike : line.Alike other := by
    refine ⟨rfl, ?_⟩
    intro s ne
    cases s <;> first | rfl | exact absurd rfl ne
  exact ⟨accepted, printed, silent, answers (fun _ => ⟨shown, silent⟩) line other asked again lineWritten
    lineProper rfl otherWritten otherProper rfl alike (fun _ => rfl) rfl⟩

end CommandLine

end Formula
