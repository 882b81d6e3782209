import Formula.CommandLine.Session
import Formula.Proofs.CommandLine.Record

namespace Formula.CommandLine.Standard

theorem intercalate_append_cons (sep start line : List Char) (more : List (List Char)) :
    sep.intercalate ((start ++ line) :: more) = start ++ sep.intercalate (line :: more) := by
  cases more <;> simp [List.intercalate]

theorem hanging_chars (text : List Char) :
    "    ".toList ++ (text.flatMap fun c => if c = '\n' then "\n    ".toList else [c]) =
      ['\n'].intercalate ((text.splitOn '\n').map ("    ".toList ++ ·)) := by
  induction text with
  | nil => rfl
  | cons c rest ih =>
    obtain ⟨line, lines, split⟩ :=
      List.exists_cons_of_ne_nil (List.splitOnP_ne_nil (· == '\n') rest)
    rw [List.splitOn, split, List.map_cons] at ih
    rw [List.flatMap_cons, List.splitOn, List.splitOnP_cons_eq_if_modifyHead, split]
    -- a break begins a new line, and any other character goes into the first line of the rest
    by_cases ends : c = '\n'
    · subst ends
      rw [if_pos rfl, if_pos (beq_self_eq_true _), List.map_cons, List.map_cons,
        List.intercalate_cons_cons, ← ih]
      rfl
    · rw [intercalate_append_cons, List.append_cancel_left_eq] at ih
      rw [if_neg ends, if_neg (by simpa using ends), List.modifyHead_cons, List.map_cons,
        intercalate_append_cons, ih, ← intercalate_append_cons]
      rfl

theorem indented_eq (text : String) : indented text = "    " ++ hanging text := by
  rw [← String.toList_inj, indented, hanging, String.toList_append]
  simp only [String.toList_ofList]
  exact (hanging_chars text.toList).symm

theorem hanging_eq {text : String} (one : '\n' ∉ text.toList) : hanging text = text := by
  have kept : text.toList.flatMap (fun c => if c = '\n' then "\n    ".toList else [c]) =
      text.toList.flatMap fun c => [c] := by
    refine List.flatMap_congr fun c mem => if_neg ?_
    rintro rfl
    exact one mem
  rw [hanging, kept, List.flatMap_singleton', String.ofList_toList]

theorem step_kept {c : Char} (kept : c = '\n' ∨ 0x20 ≤ c.toNat ∧ c.toNat ≠ 0x7f) :
    (Mode.outside none).step c = (true, .outside none) := by
  rcases kept with rfl | ⟨low, delete⟩
  · rfl
  · have ne (d : Char) (control : d.toNat < 0x20) : c ≠ d := by
      rintro rfl
      omega
    have cancels : ¬ (c = '\x18' ∨ c = '\x1a') :=
      not_or.mpr ⟨ne _ (by decide), ne _ (by decide)⟩
    rw [Mode.step, if_neg cancels, if_neg (ne _ (by decide))]
    rw [Mode.stepOutside]
    split
    · rfl
    · split
      · rfl
      · next ascii =>
        have own : isForeign c = false := by
          simp only [isForeign, Bool.or_eq_false_iff, decide_eq_false_iff_not]
          omega
        rw [own]
        rfl

theorem plainFrom_eq {text : List Char}
    (kept : ∀ c ∈ text, c = '\n' ∨ 0x20 ≤ c.toNat ∧ c.toNat ≠ 0x7f) :
    plainFrom (.outside none) text = text := by
  induction text with
  | nil => rfl
  | cons c rest ih =>
    rw [List.forall_mem_cons] at kept
    rw [plainFrom, step_kept kept.1]
    exact congrArg (c :: ·) (ih kept.2)

theorem kept_of_clear {text : List Char} (clear : Text.Clear text) :
    ∀ c ∈ text, c = '\n' ∨ 0x20 ≤ c.toNat ∧ c.toNat ≠ 0x7f := by
  intro c mem
  have apart := clear c mem
  simp only [Text.isControl, Bool.or_eq_false_iff, Bool.and_eq_false_iff,
    decide_eq_false_iff_not] at apart
  omega

theorem describes_errors : DescribesErrors standard.describeError where
  layout context cause := by
    rw [indented_eq]
    simp only [standard, describeError]
    rw [show "\n\nCaused by:\n    " = "\n\nCaused by:\n" ++ "    " from rfl]
    simp only [String.append_assoc]
  traced _ _ := ⟨"", String.append_empty.symm⟩

theorem writes_log : WritesLog standard.log where
  silent := rfl
  admits least r := decide_eq_true_iff
  format r clear := by
    have label : Text.Clear r.severity.label.toList := by cases r.severity <;> decide
    have opening : Text.Clear "[".toList := by decide
    have space : Text.Clear " ".toList := by decide
    have closing : Text.Clear "] ".toList := by decide
    have shown := ((((opening.append label).append space).append clear.source).append
      closing).append clear.message
    simp only [standard, log, plain, hanging_eq clear.message.no_break]
    rw [plainFrom_eq, String.ofList_toList]
    rw [String.toList_append]
    exact List.forall_mem_append.mpr ⟨kept_of_clear shown, by simp⟩

end Formula.CommandLine.Standard
