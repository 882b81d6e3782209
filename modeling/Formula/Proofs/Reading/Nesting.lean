import Formula.Proofs.Expr.Nesting
import Formula.Proofs.Reading.Bracketed
import Formula.Proofs.Reading.Fault

/-!
A limit on the open brackets only refuses: what it lets through is read as without it. The brackets
that are open at once are those of operations within each other.
-/

namespace Formula

namespace Token

def shift (depth : Nat) : Token → Nat
  | .opening => depth + 1
  | .closing => depth - 1
  | .run _ => depth

/-- The greatest number of brackets that are open at once, if the tokens come inside so many. -/
def peak (depth : Nat) : List Token → Nat
  | [] => depth
  | t :: ts => max depth (peak (t.shift depth) ts)

theorem le_peak (depth : Nat) (ts : List Token) : depth ≤ peak depth ts := by
  cases ts with
  | nil => exact Nat.le_refl _
  | cons t ts => exact Nat.le_max_left ..

theorem peak_opening (depth : Nat) (ts : List Token) :
    peak depth (.opening :: ts) = peak (depth + 1) ts := by
  have := le_peak (depth + 1) ts
  simp only [peak, shift]
  omega

theorem peak_run (depth : Nat) (text : String) (ts : List Token) :
    peak depth (.run text :: ts) = peak depth ts := by
  have := le_peak depth ts
  simp only [peak, shift]
  omega

theorem peak_closing (depth : Nat) (ts : List Token) :
    peak (depth + 1) (.closing :: ts) = max (depth + 1) (peak depth ts) := rfl

theorem peak_operands {p : Place} {parts : List (List Token)} {es : List Expr}
    (derived : List.Forall₂ (Derives p) parts es)
    (one : ∀ e ∈ es, ∀ ts, Derives p ts e → ∀ depth rest,
      peak depth (ts ++ rest) = max (depth + e.nesting) (peak depth rest))
    (depth : Nat) (rest : List Token) :
    peak depth (parts.flatten ++ rest) =
      max (depth + (es.map Expr.nesting).foldr max 0) (peak depth rest) := by
  induction derived with
  | nil =>
    have := le_peak depth rest
    simp only [List.flatten_nil, List.nil_append, List.map_nil, List.foldr_nil]
    omega
  | @cons ts e parts es first more ih =>
    have others := ih fun f mem => one f (List.mem_cons_of_mem e mem)
    simp only [List.flatten_cons, List.append_assoc, one e List.mem_cons_self ts first, others,
      List.map_cons, List.foldr_cons]
    omega

theorem peak_derived {p : Place} {ts : List Token} {e : Expr} (derived : Derives p ts e)
    (depth : Nat) (rest : List Token) :
    peak depth (ts ++ rest) = max (depth + e.nesting) (peak depth rest) := by
  induction e using Expr.operand_induction generalizing ts depth rest with
  | step e ih =>
    rcases derived.cases_bracket with ⟨text, term, rfl⟩ | ⟨op, parts, built, operands, rfl⟩
    · have := le_peak depth rest
      simp only [List.singleton_append, peak_run, Expr.nesting_leaf term.operation?]
      omega
    · have inner := peak_operands operands fun f mem us one depth rest => ih f mem one depth rest
      have node := Expr.nesting_node (Expr.operation?_build? built).1
      have := le_peak depth rest
      cases p with
      | first =>
        simp only [Place.bracket, List.cons_append, List.append_assoc, List.nil_append,
          peak_opening, peak_run, inner, peak_closing, node]
        omega
      | last =>
        simp only [Place.bracket, List.cons_append, List.append_assoc, List.nil_append,
          peak_opening, peak_run, inner, peak_closing, node]
        omega

end Token

namespace Reader

variable {σ : Type}

/-- The reader keeps account of the open brackets. It refuses a bracket only at the limit. -/
structure Counts (r : Reader σ) (limit : Option Nat) (Open : σ → Nat → Prop) : Prop where
  start : Open r.start 0
  step : ∀ {s depth index t next}, Open s depth → r.step s index t = .ok next →
    Open next (t.shift depth) ∧ (t = .opening → ∀ m ∈ limit, depth < m) ∧
      (t = .closing → 0 < depth)
  refuse : ∀ {s depth index t m place}, Open s depth →
    r.step s index t = .error ⟨.tooDeep m, place⟩ →
    m ∈ limit ∧ place = index ∧ t = .opening ∧ m ≤ depth
  finish : ∀ {s index m place}, r.finish s index ≠ .error ⟨.tooDeep m, place⟩

variable {r : Reader σ} {limit : Option Nat} {Open : σ → Nat → Prop}

theorem Counts.reached (counts : r.Counts limit Open) {ts : List Token} {s : σ}
    (reached : r.Reaches ts s) :
    ∃ depth, Open s depth ∧ ts.count .opening = ts.count .closing + depth ∧
      ∀ m ∈ limit, depth ≤ m := by
  induction reached with
  | start => exact ⟨0, counts.start, rfl, fun m _ => Nat.zero_le m⟩
  | @step taken s next t reached ok ih =>
    obtain ⟨depth, isOpen, count, within⟩ := ih
    obtain ⟨later, below, above⟩ := counts.step isOpen ok
    refine ⟨t.shift depth, later, ?_, ?_⟩
    · rw [List.count_append, List.count_append, count]
      cases t with
      | opening => rfl
      | closing =>
        have := above rfl
        change taken.count .closing + depth + 0 = taken.count .closing + 1 + (depth - 1)
        omega
      | run text => rfl
    · intro m bound
      have := within m bound
      cases t with
      | opening => exact below rfl m bound
      | closing =>
        simp only [Token.shift]
        omega
      | run text => exact this

theorem Counts.tooDeep (counts : r.Counts limit Open) {ts : List Token} {m place : Nat}
    (failed : r.read ts = .error ⟨.tooDeep m, place⟩) :
    m ∈ limit ∧ ts[place]? = some .opening ∧
      (ts.take place).count .opening = (ts.take place).count .closing + m := by
  rcases read_error failed with ⟨taken, t, rest, s, rfl, reached, stopped⟩ | ⟨s, -, finished⟩
  · obtain ⟨depth, isOpen, count, within⟩ := counts.reached reached
    obtain ⟨bound, rfl, rfl, deep⟩ := counts.refuse isOpen stopped
    have exact : depth = m := Nat.le_antisymm (within m bound) deep
    rw [List.take_left, count, exact]
    exact ⟨bound, Token.getElem?_cut .., rfl⟩
  · exact absurd finished counts.finish

theorem Counts.peak_le {m : Nat} (counts : r.Counts (some m) Open) {s : σ} {depth index : Nat}
    {ts : List Token} {e : Expr} (isOpen : Open s depth) (within : depth ≤ m)
    (ok : r.readFrom s index ts = .ok e) : Token.peak depth ts ≤ m := by
  induction ts generalizing s depth index with
  | nil => exact within
  | cons t ts ih =>
    simp only [readFrom] at ok
    split at ok
    · next next step =>
      obtain ⟨later, below, -⟩ := counts.step isOpen step
      have stays : t.shift depth ≤ m := by
        cases t with
        | opening => exact below rfl m rfl
        | closing =>
          simp only [Token.shift]
          omega
        | run text => exact within
      exact Nat.max_le.mpr ⟨within, ih later stays ok⟩
    · cases ok

theorem Counts.lt_peak (counts : r.Counts limit Open) {s : σ} {depth index m place : Nat}
    {ts : List Token} (isOpen : Open s depth)
    (failed : r.readFrom s index ts = .error ⟨.tooDeep m, place⟩) : m < Token.peak depth ts := by
  induction ts generalizing s depth index with
  | nil => exact absurd failed counts.finish
  | cons t ts ih =>
    simp only [readFrom] at failed
    split at failed
    · next next step =>
      obtain ⟨later, -⟩ := counts.step isOpen step
      exact Nat.lt_of_lt_of_le (ih later failed) (Nat.le_max_right ..)
    · next fault step =>
      cases failed
      obtain ⟨-, -, rfl, deep⟩ := counts.refuse isOpen step
      rw [Token.peak_opening]
      exact Nat.lt_of_lt_of_le (Nat.lt_succ_of_le deep) (Token.le_peak ..)

/-- The first reader does what the second does, except that it may refuse a bracket. -/
def Restricts (r r' : Reader σ) (m : Nat) : Prop :=
  r.start = r'.start ∧ r.finish = r'.finish ∧ ∀ s index t,
    r.step s index t = r'.step s index t ∨ r.step s index t = .error ⟨.tooDeep m, index⟩

theorem Restricts.readFrom {r r' : Reader σ} {m : Nat} (restricts : r.Restricts r' m) (s : σ)
    (index : Nat) (ts : List Token) :
    r.readFrom s index ts = r'.readFrom s index ts ∨
      ∃ place, r.readFrom s index ts = .error ⟨.tooDeep m, place⟩ := by
  induction ts generalizing s index with
  | nil =>
    left
    simp only [Reader.readFrom, restricts.2.1]
  | cons t ts ih =>
    rcases restricts.2.2 s index t with same | refused
    · simp only [Reader.readFrom, same]
      cases r'.step s index t with
      | ok next => exact ih next (index + 1)
      | error fault => exact .inl rfl
    · right
      simp only [Reader.readFrom, refused]
      exact ⟨index, rfl⟩

theorem Restricts.read {r r' : Reader σ} {m : Nat} (restricts : r.Restricts r' m)
    (ts : List Token) :
    r.read ts = r'.read ts ∨ ∃ place, r.read ts = .error ⟨.tooDeep m, place⟩ := by
  simp only [Reader.read, restricts.1]
  exact restricts.readFrom r'.start 0 ts

end Reader

theorem checkDepth_ok {limit : Option Nat} {depth index : Nat} {u : Unit}
    (ok : Reader.checkDepth limit depth index = .ok u) : ∀ m ∈ limit, depth ≤ m := by
  rintro m rfl
  simp only [Reader.checkDepth] at ok
  split at ok
  · cases ok
  · next shallow => exact Nat.le_of_not_lt shallow

def Weaker (m : Nat) (limit : Option Nat) : Prop :=
  ∀ k ∈ limit, m ≤ k

theorem weaker_none (m : Nat) : Weaker m none := by
  intro k none
  cases none

theorem checkDepth_weaker {m : Nat} {limit : Option Nat} (weaker : Weaker m limit)
    (depth index : Nat) :
    Reader.checkDepth (some m) depth index = Reader.checkDepth limit depth index ∨
      Reader.checkDepth (some m) depth index = .error ⟨.tooDeep m, index⟩ := by
  by_cases deep : m < depth
  · right
    simp only [Reader.checkDepth, if_pos deep]
  · left
    cases limit with
    | none => simp only [Reader.checkDepth, if_neg deep]
    | some k =>
      have wider := weaker k rfl
      have shallow : ¬ k < depth := by omega
      simp only [Reader.checkDepth, if_neg deep, if_neg shallow]

theorem opening_weaker {σ : Type} {m : Nat} {limit : Option Nat} (weaker : Weaker m limit)
    (depth index : Nat) (next : σ) :
    (do Reader.checkDepth (some m) depth index; return next) =
        (do Reader.checkDepth limit depth index; return next) ∨
      (do Reader.checkDepth (some m) depth index; return next) = .error ⟨.tooDeep m, index⟩ := by
  rcases checkDepth_weaker weaker depth index with same | refused
  · left
    rw [same]
  · right
    rw [refused]
    rfl

namespace OperatorFirst

/-- The number of open brackets in a state. -/
def Open : State → Nat → Prop
  | .operand pending, depth => pending.length = depth
  | .operation pending, depth => pending.length + 1 = depth
  | .nothing _, depth => 0 = depth

theorem open_deliver (pending : List Pending) (e : Expr) :
    Open (deliver pending e) pending.length := by
  cases pending <;> rfl

theorem open_step {limit : Option Nat} {s next : State} {depth index : Nat} {t : Token}
    (isOpen : Open s depth) (ok : step limit s index t = .ok next) :
    Open next (t.shift depth) ∧ (t = .opening → ∀ m ∈ limit, depth < m) ∧
      (t = .closing → 0 < depth) := by
  cases s with
  | operand pending =>
    cases isOpen
    cases t with
    | opening =>
      obtain ⟨_, shallow, ok⟩ := ok_bind ok
      cases ok
      exact ⟨rfl, fun _ => checkDepth_ok shallow, Token.noConfusion⟩
    | closing =>
      cases pending with
      | nil => cases ok
      | cons p pending =>
        obtain ⟨e, -, ok⟩ := ok_bind ok
        cases ok
        exact ⟨open_deliver pending e, Token.noConfusion, fun _ => Nat.succ_pos _⟩
    | run text =>
      simp only [step] at ok
      split at ok <;> cases ok
      exact ⟨open_deliver .., Token.noConfusion, Token.noConfusion⟩
  | operation pending =>
    cases isOpen
    simp only [step] at ok
    split at ok <;> cases ok
    next op found =>
    rw [Token.eq_run_of_operation? found]
    exact ⟨rfl, Token.noConfusion, Token.noConfusion⟩
  | nothing whole => cases ok

theorem tooDeep_of_step {limit : Option Nat} {s : State} {depth index m place : Nat} {t : Token}
    (isOpen : Open s depth) (refused : step limit s index t = .error ⟨.tooDeep m, place⟩) :
    m ∈ limit ∧ place = index ∧ t = .opening ∧ m ≤ depth := by
  cases refuses_of_step refused with
  | tooDeep limited deep =>
    cases isOpen
    exact ⟨limited, rfl, rfl, Nat.le_of_lt_succ deep⟩

theorem counts (limit : Option Nat) : (reader limit).Counts limit Open := by
  constructor
  · rfl
  · exact open_step
  · exact tooDeep_of_step
  · intro s index m place refused
    have refuses : Refuses limit s index none _ := refuses_of_finish refused
    cases refuses

theorem restricts {m : Nat} {limit : Option Nat} (weaker : Weaker m limit) :
    (reader (some m)).Restricts (reader limit) m := by
  refine ⟨rfl, rfl, ?_⟩
  intro s index t
  change step (some m) s index t = step limit s index t ∨ step (some m) s index t = _
  cases s with
  | operand pending =>
    cases t with
    | opening => exact opening_weaker weaker ..
    | closing => cases pending <;> exact .inl rfl
    | run text => exact .inl rfl
  | operation pending => exact .inl rfl
  | nothing whole => exact .inl rfl

end OperatorFirst

namespace OperatorLast

/-- The number of open brackets in a state. From doubt no reading goes on, so it does not count. -/
def Open : State → Nat → Prop
  | .operand pending, depth => pending.length = depth
  | .doubt _ _, _ => True
  | .closing pending _, depth => pending.length + 1 = depth
  | .nothing _, depth => 0 = depth

theorem open_deliver (pending : List (List Expr)) (e : Expr) :
    Open (deliver pending e) pending.length := by
  cases pending <;> rfl

theorem open_step {limit : Option Nat} {s next : State} {depth index : Nat} {t : Token}
    (isOpen : Open s depth) (ok : step limit s index t = .ok next) :
    Open next (t.shift depth) ∧ (t = .opening → ∀ m ∈ limit, depth < m) ∧
      (t = .closing → 0 < depth) := by
  cases s with
  | operand pending =>
    cases isOpen
    cases t with
    | opening =>
      obtain ⟨_, shallow, ok⟩ := ok_bind ok
      cases ok
      exact ⟨rfl, fun _ => checkDepth_ok shallow, Token.noConfusion⟩
    | closing => cases pending <;> cases ok
    | run text =>
      refine ⟨?_, Token.noConfusion, Token.noConfusion⟩
      cases pending with
      | nil =>
        simp only [step, stepOutside] at ok
        split at ok <;> cases ok
        rfl
      | cons operands pending =>
        simp only [step, stepInside] at ok
        split at ok
        · obtain ⟨e, -, ok⟩ := ok_bind ok
          cases ok
          rfl
        · split at ok <;> cases ok
          · rfl
          · trivial
  | doubt text place =>
    simp only [step] at ok
    split at ok <;> cases ok
  | closing pending inner =>
    cases isOpen
    simp only [step] at ok
    split at ok <;> cases ok
    next close =>
    subst close
    exact ⟨open_deliver pending inner, Token.noConfusion, fun _ => Nat.succ_pos _⟩
  | nothing whole => cases ok

theorem tooDeep_of_step {limit : Option Nat} {s : State} {depth index m place : Nat} {t : Token}
    (isOpen : Open s depth) (refused : step limit s index t = .error ⟨.tooDeep m, place⟩) :
    m ∈ limit ∧ place = index ∧ t = .opening ∧ m ≤ depth := by
  cases refuses_of_step refused with
  | tooDeep limited deep =>
    cases isOpen
    exact ⟨limited, rfl, rfl, Nat.le_of_lt_succ deep⟩

theorem counts (limit : Option Nat) : (reader limit).Counts limit Open := by
  constructor
  · rfl
  · exact open_step
  · exact tooDeep_of_step
  · intro s index m place refused
    have refuses : Refuses limit s index none _ := refuses_of_finish refused
    cases refuses

theorem restricts {m : Nat} {limit : Option Nat} (weaker : Weaker m limit) :
    (reader (some m)).Restricts (reader limit) m := by
  refine ⟨rfl, rfl, ?_⟩
  intro s index t
  change step (some m) s index t = step limit s index t ∨ step (some m) s index t = _
  cases s with
  | operand pending =>
    cases t with
    | opening => cases pending <;> exact opening_weaker weaker ..
    | closing => cases pending <;> exact .inl rfl
    | run text => cases pending <;> exact .inl rfl
  | doubt text place => exact .inl rfl
  | closing pending inner => exact .inl rfl
  | nothing whole => exact .inl rfl

end OperatorLast

theorem readTokens_weaker (p : Place) {m : Nat} {limit : Option Nat} (weaker : Weaker m limit)
    (ts : List Token) :
    readTokens p.notation (some m) ts = readTokens p.notation limit ts ∨
      ∃ place, readTokens p.notation (some m) ts = .error ⟨.tooDeep m, place⟩ := by
  cases p with
  | first => exact (OperatorFirst.restricts weaker).read ts
  | last => exact (OperatorLast.restricts weaker).read ts

theorem readTokens_counts (p : Place) (limit : Option Nat) :
    ∃ (σ : Type) (r : Reader σ) (Open : σ → Nat → Prop), r.Counts limit Open ∧
      ∀ ts, readTokens p.notation limit ts = r.read ts := by
  cases p with
  | first => exact ⟨_, _, _, OperatorFirst.counts limit, fun _ => rfl⟩
  | last => exact ⟨_, _, _, OperatorLast.counts limit, fun _ => rfl⟩

theorem readTokens_tooDeep (p : Place) {limit : Option Nat} {ts : List Token} {m place : Nat}
    (failed : readTokens p.notation limit ts = .error ⟨.tooDeep m, place⟩) :
    m ∈ limit ∧ ts[place]? = some .opening ∧
      (ts.take place).count .opening = (ts.take place).count .closing + m := by
  obtain ⟨σ, r, Open, counts, reads⟩ := readTokens_counts p limit
  rw [reads] at failed
  exact counts.tooDeep failed

theorem readTokens_limit_iff (p : Place) {m : Nat} {ts : List Token} {e : Expr}
    (ok : readTokens p.notation none ts = .ok e) :
    readTokens p.notation (some m) ts = .ok e ↔ e.nesting ≤ m := by
  have derived := readTokens_iff_derives.mp ok
  have peak : Token.peak 0 ts = e.nesting := by
    have whole := Token.peak_derived derived 0 []
    rw [List.append_nil, Token.peak, Nat.zero_add, Nat.max_zero] at whole
    exact whole
  obtain ⟨σ, r, Open, counts, reads⟩ := readTokens_counts p (some m)
  constructor
  · intro limited
    rw [reads] at limited
    have bounded := counts.peak_le counts.start (Nat.zero_le m) limited
    rwa [peak] at bounded
  · intro within
    rcases readTokens_weaker p (weaker_none m) ts with same | ⟨place, refused⟩
    · rw [same, ok]
    · rw [reads] at refused
      have beyond := counts.lt_peak counts.start refused
      omega

theorem Token.count_found (inside : Bool) (text : List Char) :
    (found inside text).count .opening = text.count '(' ∧
      (found inside text).count .closing = text.count ')' := by
  induction text generalizing inside with
  | nil => exact ⟨rfl, rfl⟩
  | cons c rest ih =>
    cases delimiter : isDelimiter c with
    | true =>
      rcases delimiter_cases delimiter with rfl | rfl | rfl
      · simp [found_space, ih]
      · simp [found_opening, ih]
      · simp [found_closing, ih]
    | false =>
      obtain ⟨-, opening, closing⟩ := solid_ne delimiter
      cases inside with
      | true => simp [found_inside delimiter, ih, List.count_cons_of_ne, opening, closing]
      | false => simp [found_outside delimiter, ih, List.count_cons_of_ne, opening, closing]

theorem parse_eq_of_readTokens_eq {n : Notation} {limit limit' : Option Nat} {text : String}
    (same : readTokens n limit (tokensOf text) = readTokens n limit' (tokensOf text)) :
    parse n limit text = parse n limit' text := by
  rw [tokensOf] at same
  simp only [parse, same]

theorem parse_weaker (p : Place) {m : Nat} {limit : Option Nat} (weaker : Weaker m limit)
    (text : String) :
    parse p.notation (some m) text = parse p.notation limit text ∨
      ∃ place, parse p.notation (some m) text = .error ⟨.tooDeep m, place⟩ := by
  rcases readTokens_weaker p weaker (tokensOf text) with same | ⟨place, refused⟩
  · exact .inl (parse_eq_of_readTokens_eq same)
  · exact .inr ⟨_, parse_eq_error_iff.mpr ⟨_, refused, rfl⟩⟩

theorem parse_tooDeep (p : Place) {limit : Option Nat} {text : String} {l : Nat} {place : Context}
    (failed : parse p.notation limit text = .error ⟨.tooDeep l, place⟩) :
    l ∈ limit ∧ place.PointsAt text (some .opening) ∧
      place.before.toList.count '(' = place.before.toList.count ')' + l := by
  obtain ⟨⟨cause, index⟩, refused, same⟩ := parse_eq_error_iff.mp failed
  cases same
  obtain ⟨bound, -⟩ := fits_of_readTokens_error refused
  obtain ⟨points, earlier⟩ := pointsAt_ofIndex bound
  obtain ⟨limited, opening, count⟩ := readTokens_tooDeep p refused
  rw [opening] at points
  refine ⟨limited, points, ?_⟩
  obtain ⟨openings, closings⟩ := Token.count_found false
    (Context.ofIndex text (Token.scan text) index).before.toList
  rw [← openings, ← closings]
  change (tokensOf _).count _ = (tokensOf _).count _ + l
  rw [earlier]
  exact count

theorem parse_render_limit_iff (p : Place) (e : Expr) (m : Nat) :
    parse p.notation (some m) (e.render p.notation) = .ok e ↔ e.nesting ≤ m := by
  rw [parse_eq_ok_iff]
  exact readTokens_limit_iff p (readTokens_render p e)

theorem parse_render_tooDeep (p : Place) {e : Expr} {m : Nat} (deep : m < e.nesting) :
    ∃ place, parse p.notation (some m) (e.render p.notation) = .error ⟨.tooDeep m, place⟩ := by
  rcases parse_weaker p (weaker_none m) (e.render p.notation) with same | refused
  · have ok := same.trans (parse_eq_ok_iff.mpr (readTokens_render p e))
    have within := (parse_render_limit_iff p e m).mp ok
    omega
  · exact refused

/-- A limit on the open brackets only refuses. What is refused under it is reported at the first
bracket that goes beyond it, and all else is read as without it; a formula is refused if a path from
its root has more operations than the limit allows. Without brackets the limit has no meaning. -/
theorem parse_limit (p : Place) (text : String) (m : Nat) :
    (∀ err, parse p.notation none text = .error err → ∀ l, err.cause ≠ .tooDeep l) ∧
    (parse p.notation (some m) text = parse p.notation none text ∨
      ∃ place, parse p.notation (some m) text = .error ⟨.tooDeep m, place⟩) ∧
    (∀ k, m ≤ k → parse p.notation (some m) text = parse p.notation none text →
      parse p.notation (some k) text = parse p.notation none text) ∧
    (∀ e, parse p.notation none text = .ok e →
      (parse p.notation (some m) text = .ok e ↔
        ∀ path nodes, e.way? path = some nodes → nodes.countP (·.operation?.isSome) ≤ m)) ∧
    (∀ l place, parse p.notation (some m) text = .error ⟨.tooDeep l, place⟩ →
      l = m ∧ place.PointsAt text (some .opening) ∧
        place.before.toList.count '(' = place.before.toList.count ')' + m) ∧
    ∀ limit, parse .bare limit text = parse .bare none text := by
  -- only a limit refuses a bracket for its depth
  have unlimited : ∀ l place, parse p.notation none text ≠ .error ⟨.tooDeep l, place⟩ := by
    intro l place failed
    cases (parse_tooDeep p failed).1
  have none_weaker : Weaker m none := by
    intro k bound
    cases bound
  refine ⟨?_, parse_weaker p none_weaker text, ?_, ?_, ?_, fun _ => rfl⟩
  · rintro ⟨cause, place⟩ failed l rfl
    exact unlimited l place failed
  · intro k wider same
    have weaker : Weaker m (some k) := by
      rintro _ ⟨⟩
      exact wider
    rcases parse_weaker p weaker text with between | ⟨place, refused⟩
    · rw [← between, same]
    · exact absurd (same.symm.trans refused) (unlimited m place)
  · intro e ok
    rw [← Expr.nesting_le_iff, parse_eq_ok_iff]
    exact readTokens_limit_iff p (parse_eq_ok_iff.mp ok)
  · intro l place refused
    obtain ⟨bound, points, count⟩ := parse_tooDeep p refused
    cases bound
    exact ⟨rfl, points, count⟩

theorem parse_limit_two :
    (∃ e, parse .operatorFirst none "(+ (mean) (negate (mean x)))" = .ok e ∧
      parse .operatorFirst (some 3) "(+ (mean) (negate (mean x)))" = .ok e) ∧
    ∃ place, parse .operatorFirst (some 2) "(+ (mean) (negate (mean x)))" =
        .error ⟨.tooDeep 2, place⟩ ∧
      place.PointsAt "(+ (mean) (negate (mean x)))" (some .opening) ∧
      place.before.toList.count '(' = place.before.toList.count ')' + 2 := by
  have ok : parse .operatorFirst none "(+ (mean) (negate (mean x)))" =
    .ok (.add (.mean []) (.negate (.mean [.var .x]))) := rfl
  have refused : parse .operatorFirst (some 2) "(+ (mean) (negate (mean x)))" =
    .error ⟨.tooDeep 2, ⟨"(+ (mean) (negate ", ⟨18, 19⟩⟩⟩ := rfl
  constructor
  · obtain ⟨-, -, -, accepted, -⟩ := parse_limit .first "(+ (mean) (negate (mean x)))" 3
    exact ⟨_, ok, (accepted _ ok).mpr (Expr.nesting_le_iff.mp (by decide))⟩
  · obtain ⟨-, -, -, -, deep, -⟩ := parse_limit .first "(+ (mean) (negate (mean x)))" 2
    exact ⟨_, refused, (deep 2 _ refused).2⟩

end Formula
