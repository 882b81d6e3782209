import Mathlib.Algebra.BigOperators.Group.List.Basic
import Formula.Proofs.CommandLine.Laws
import Formula.Proofs.CommandLine.Standard.Taken

namespace Formula.CommandLine.Standard

theorem setting_none {s : Setting} :
    ∀ o ∈ options none, o.choice = .setting s → s = .reading ∨ s = .maxDepth := by
  intro o option choice
  simp only [options, commonOptions, ownOptions, List.cons_append, List.nil_append,
    List.mem_cons, List.not_mem_nil, or_false] at option
  rcases option with rfl | rfl | rfl | rfl | rfl <;> cases choice
  · exact .inl rfl
  · exact .inr rfl

theorem option_of_spells {place : Option Subcommand} {s : Setting} {value : String}
    {piece : List String} (spells : Spells place (.setting s value) piece) :
    ∃ o ∈ options place, o.choice = .setting s := by
  cases spells with
  | name option choice => exact ⟨_, option, choice⟩
  | nameEquals option choice => exact ⟨_, option, choice⟩
  | letter option choice => exact ⟨_, option, choice⟩
  | letterJoined option choice => exact ⟨_, option, choice⟩
  | letterEquals option choice => exact ⟨_, option, choice⟩

theorem parts_before {before : List Part} {pieces : List (List String)}
    (spells : List.Forall₂ (Spells none) before pieces) :
    before.filterMap Part.formula? = [] ∧
      ∀ s ∈ before.filterMap Part.setting?, s = .reading ∨ s = .maxDepth := by
  induction spells with
  | nil => simp
  | @cons part piece parts pieces first rest ih =>
    obtain ⟨none, settings⟩ := ih
    cases part with
    | setting s value =>
      obtain ⟨o, option, choice⟩ := option_of_spells first
      exact ⟨none, List.forall_mem_cons.mpr ⟨setting_none o option choice, settings⟩⟩
    | verbose steps => exact ⟨none, settings⟩
    | formula text => cases first with | formula placed => cases placed

/- What the two places give together. -/

variable {line : Line} {text : String}

theorem value?_own {pieces : List (List String)}
    (spells : List.Forall₂ (Spells none) line.before pieces) {s : Setting} (reading : s ≠ .reading)
    (limit : s ≠ .maxDepth) : line.value? s = valueIn? line.after s := by
  have absent : s ∉ line.before.filterMap Part.setting? := by
    intro mem
    rcases (parts_before spells).2 s mem with same | same
    · exact reading same
    · exact limit same
  rw [Line.value?, valueIn?_append, valueIn?_eq_none absent, Option.none_or]

/-- An option is given in one place at most, so that it does not matter which place is asked first. -/
theorem value?_bind (proper : line.Proper text) (s : Setting) {α : Type} (f : String → Option α) :
    ((valueIn? line.after s).bind f).or ((valueIn? line.before s).bind f) =
      (line.value? s).bind f := by
  rw [Line.value?, valueIn?_append]
  cases early : valueIn? line.before s with
  | none => simp
  | some value =>
    have mem : s ∈ line.before.filterMap Part.setting? :=
      List.mem_filterMap.mpr ⟨_, mem_of_valueIn? early, rfl⟩
    have once := proper.once
    rw [List.filterMap_append] at once
    have absent := List.disjoint_of_nodup_append once mem
    simp [valueIn?_eq_none absent]

theorem sum_steps {parts : List Part} (quiet : ∀ steps, .verbose steps ∉ parts) :
    (parts.map Part.steps).sum = 0 := by
  refine List.sum_eq_zero fun steps mem => ?_
  obtain ⟨part, told, rfl⟩ := List.mem_map.mp mem
  cases part with
  | setting s value => rfl
  | verbose steps => exact absurd told (quiet steps)
  | formula text => rfl

theorem command?_after {pieces : List (List String)}
    (spells : List.Forall₂ (Spells none) line.before pieces) (outer : Given) (ended : Bool) :
    ({ Progress.after (some line.subcommand) outer line.after with ended := ended }).command? =
      line.command? := by
  have own {s : Setting} (reading : s ≠ .reading) (limit : s ≠ .maxDepth) :
      line.value? s = valueIn? line.after s := value?_own spells reading limit
  have coordinate (v : Variable) := own (s := .coordinate v) Setting.noConfusion Setting.noConfusion
  have wrt := own (s := .wrt) Setting.noConfusion Setting.noConfusion
  have output := own (s := .output) Setting.noConfusion Setting.noConfusion
  have target := own (s := .target) Setting.noConfusion Setting.noConfusion
  unfold Line.command? Line.coordinate? Line.wrt? Line.notation?
  simp only [coordinate, wrt, output, target]
  cases line.subcommand <;> rfl

theorem command?_proper (proper : line.Proper text) : ∃ command, line.command? = some command := by
  unfold Line.command?
  cases sub : line.subcommand with
  | evaluate => exact ⟨_, rfl⟩
  | differentiate => exact ⟨_, rfl⟩
  | render =>
    obtain ⟨value, mem⟩ := proper.required sub
    obtain ⟨other, found⟩ := valueIn?_of_mem (List.mem_append_right line.before mem)
    have takes := proper.takes _ _ (mem_of_valueIn? found)
    obtain ⟨form, read⟩ := Option.isSome_iff_exists.mp takes
    exact ⟨.render form, by simp [Line.notation?, Line.value?, found, read]⟩

theorem finish_line {pieces : List (List String)}
    (spells : List.Forall₂ (Spells none) line.before pieces) (proper : line.Proper text)
    (ended : Bool) :
    ∃ request, ({ Progress.after (some line.subcommand) (given line.before) line.after with
      ended := ended }).finish = .ok request ∧ line.Tells text request := by
  have formula : (given line.after).formula = some text := by
    have head := List.head?_filterMap (f := Part.formula?) (l := line.after)
    rw [proper.formula] at head
    exact head.symm
  obtain ⟨command, told⟩ := command?_proper proper
  have command := command?_after spells (given line.before) ended
  rw [told] at command
  simp only [Progress.finish, command]
  simp only [Progress.after, formula]
  refine ⟨_, rfl, rfl, value?_bind proper .reading _, value?_bind proper .maxDepth _, told, ?_⟩
  intro quiet
  have before := sum_steps fun steps mem => quiet steps (List.mem_append_left line.after mem)
  have after := sum_steps fun steps mem => quiet steps (List.mem_append_right line.before mem)
  simp only [given, before, after, if_true]

theorem take_name_sub (before : List Part) (sub : Subcommand) :
    (Progress.after none {} before).take sub.name =
      .ok (Progress.after (some sub) (given before) []) := by
  cases sub <;> rfl

theorem taken_first {before : List Part} {front : List (List String)}
    (first : List.Forall₂ (Spells none) before front)
    (once : (before.filterMap Part.setting?).Nodup)
    (takes : ∀ s value, .setting s value ∈ before → s.Takes value) (sub : Subcommand) :
    (front.flatten ++ [sub.name]).foldlM Progress.take {} =
      .ok (Progress.after (some sub) (given before) []) := by
  have none := (parts_before first).1
  have taken := Progress.foldlM_pieces {} [] first once takes (by simp [none])
  exact Progress.foldlM_append_ok taken (Progress.foldlM_one (take_name_sub before sub))

theorem read_ok {arguments : List String} {p : Progress} {request : Request}
    (taken : arguments.foldlM Progress.take {} = .ok p) (finished : p.finish = .ok request) :
    read arguments = .ok request := by
  rw [read, taken]
  exact congrArg (Except.mapError Stop.report) finished

theorem reads_arguments : ReadsArguments read where
  accepts := by
    intro line text arguments written proper
    have onces := proper.once
    rw [List.filterMap_append] at onces
    have takes_before : ∀ s value, .setting s value ∈ line.before → s.Takes value :=
      fun s value mem => proper.takes s value (List.mem_append_left _ mem)
    have takes_after : ∀ s value, .setting s value ∈ line.after → s.Takes value :=
      fun s value mem => proper.takes s value (List.mem_append_right _ mem)
    cases written with
    | @inline before after front back sub first second =>
      have start := taken_first first onces.of_append_left takes_before sub
      have rest := Progress.foldlM_pieces (given before) [] second
        onces.of_append_right takes_after (Nat.le_of_eq (congrArg List.length proper.formula))
      obtain ⟨request, finished, tells⟩ := finish_line first proper false
      rw [← List.singleton_append, ← List.append_assoc]
      exact ⟨request, read_ok (Progress.foldlM_append_ok start rest) finished, tells⟩
    | @marked before after front back sub other first second =>
      have start := taken_first first onces.of_append_left takes_before sub
      have formula := proper.formula
      rw [List.filterMap_append] at formula
      obtain ⟨none, rfl⟩ : after.filterMap Part.formula? = [] ∧ other = text := by
        simpa [Part.formula?, List.append_eq_singleton_iff] using formula
      have once := onces.of_append_right
      rw [List.filterMap_append] at once
      have rest := Progress.foldlM_pieces (given before) [] second once.of_append_left
        (fun s value mem => takes_after s value (List.mem_append_left _ mem)) (by simp [none])
      have free : after.findSome? Part.formula? = Option.none := by
        rw [List.findSome?_eq_none_iff]
        exact List.filterMap_eq_nil_iff.mp none
      have last : ["--", other].foldlM Progress.take
          (Progress.after (some sub) (given before) after) =
          .ok { Progress.after (some sub) (given before) (after ++ [.formula other]) with
            ended := true } :=
        Progress.foldlM_two rfl ((Progress.take_formula rfl).trans
          (Progress.takeWord_formula true free other))
      obtain ⟨request, finished, tells⟩ := finish_line first proper true
      rw [← List.singleton_append, ← List.append_assoc]
      exact ⟨request,
        read_ok (Progress.foldlM_append_ok start (Progress.foldlM_append_ok rest last)) finished,
        tells⟩

end Formula.CommandLine.Standard
