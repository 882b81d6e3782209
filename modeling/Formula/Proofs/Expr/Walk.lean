import Formula.Expr.Query
import Formula.Proofs.Expr.Events
import Formula.Proofs.Reading.Unbracketed

namespace Formula

def Token.operator? (t : Token) : Option String :=
  t.operation?.map Operation.token

namespace Expr

theorem nodeCount_eq (e : Expr) : e.nodeCount = (e.operands.map nodeCount).sum + 1 := by
  cases e with
  | statistic s es =>
    simp only [nodeCount, fold, foldAll_eq_map, ← List.sum_eq_foldr]
    exact Nat.add_comm _ _
  | _ => simp [nodeCount, fold, operands, Nat.add_comm]

theorem length_events (e : Expr) : e.events.length = e.nodeCount := by
  induction e using operand_induction with
  | step e ih =>
    rw [events_eq, List.length_cons, List.length_flatMap, nodeCount_eq, List.map_congr_left ih]

theorem length_tokens (e : Expr) : (e.tokens .bare).length = e.nodeCount := by
  induction e using node_induction with
  | leaf e none =>
    obtain ⟨text, -, tokens⟩ := tokens_leaf (n := .bare) none
    rw [tokens]
    cases e <;> cases none <;> rfl
  | node e op operation ih =>
    rw [tokens_node operation, ← List.flatMap_def, Notation.arrange, List.length_append,
      List.length_flatMap, List.map_congr_left ih, nodeCount_eq]
    rfl

theorem event_eq_var_iff {e : Expr} {v : Variable} : e.event = .var v ↔ e = .var v := by
  cases e <;> simp [event]

theorem var_mem_events_iff {e : Expr} {v : Variable} :
    .var v ∈ e.events ↔ e.contains v = true := by
  rw [events_eq_map_subterms, contains_iff_mem_subterms, List.mem_map]
  simp only [event_eq_var_iff, exists_eq_right]

theorem mem_mentioned_iff {e : Expr} {v : Variable} :
    v ∈ e.mentioned ↔ e.contains v = true := by
  rw [mentioned, List.mem_filter, List.contains_iff_mem, var_mem_events_iff]
  exact and_iff_right v.mem_all

theorem event_node {e : Expr} {op : Operation} (operation : e.operation? = some op) :
    e.event = .operation op e.operands.length := by
  cases e <;> cases operation <;> rfl

/-- With the operation first, the operations are written in the order of the walk. -/
theorem operators_tokens (e : Expr) :
    (e.tokens .operatorFirst).filterMap Token.operator? = e.operationTokens := by
  induction e using node_induction with
  | leaf e none =>
    obtain ⟨text, term, tokens⟩ := tokens_leaf (n := .operatorFirst) none
    have plain : (Token.run text).operator? = Option.none := by
      rw [Token.operator?, Token.operation?, term.ofToken?]
      rfl
    rw [tokens, List.filterMap_cons_none plain]
    cases e <;> cases none <;> rfl
  | node e op operation ih =>
    have first : (Token.run op.token).operator? = some op.token := by
      rw [Token.operator?, Token.operation?, Operation.ofToken?_token]
      rfl
    have inner : (e.operands.flatMap (tokens .operatorFirst)).filterMap Token.operator? =
        e.operands.flatMap operationTokens := by
      rw [List.filterMap_flatMap, List.flatMap_congr ih]
    have told : (Event.operation op e.operands.length).token? = some op.token := rfl
    have walked : e.operationTokens = op.token :: e.operands.flatMap operationTokens := by
      rw [operationTokens, events_eq, event_node operation, List.filterMap_cons_some told,
        List.filterMap_flatMap]
      rfl
    rw [tokens_node operation, ← List.flatMap_def, Notation.arrange, List.cons_append,
      List.filterMap_cons_none rfl, List.cons_append, List.filterMap_cons_some first,
      List.filterMap_append, inner, walked]
    exact congrArg _ (List.append_nil _)

section Collectors

variable {σ : Type} {V : Visitor σ}

/-- A visitor that goes on everywhere and looks at the events only takes them in turn. -/
theorem accept_eq_foldl_events (step : σ → Event → σ) (goesOn : V.Skips fun _ => false)
    (reads : ∀ e s, (V.visit e s).1 = step s e.event) (e : Expr) (s : σ) :
    e.accept V s = e.events.foldl step s := by
  rw [accept_eq_foldl goesOn, events, walk_eq_map_places, List.foldl_map]
  simp only [reads]

theorem accept_nodeCounter (e : Expr) : e.accept nodeCounter 0 = e.nodeCount := by
  have counted := accept_eq_foldl_events (V := nodeCounter) (fun count _ => count + 1)
    (fun _ _ _ => rfl) (fun e s => by cases e <;> rfl) e 0
  rw [counted, List.foldl_add_const, length_events, Nat.zero_add, Nat.one_mul]

def collect (before : List Variable) : Event → List Variable
  | .var v => v.insert before
  | _ => before

theorem foldl_collect (p : Variable → Bool) (events : List Event) :
    events.foldl collect (Variable.all.filter p) =
      Variable.all.filter fun v => p v || events.contains (.var v) := by
  induction events generalizing p with
  | nil => simp
  | cons event events ih =>
    rw [List.foldl_cons]
    cases event with
    | var w =>
      have inserted : w.insert (Variable.all.filter p) =
          Variable.all.filter fun v => p v || v == w := by
        apply List.filter_congr
        intro v mem
        simp [mem, Bool.or_comm]
      have compared (v : Variable) : (Event.var v == .var w) = (v == w) := by
        cases v <;> cases w <;> rfl
      simp only [collect, inserted, ih, List.contains_cons, compared, Bool.or_assoc]
    | _ => simp [collect, ih]

theorem accept_variableCollector (e : Expr) : e.accept variableCollector [] = e.mentioned := by
  have collected := accept_eq_foldl_events (V := variableCollector) collect
    (fun _ _ _ => rfl) (fun e s => by cases e <;> rfl) e []
  rw [collected]
  exact foldl_collect (fun _ => false) e.events

theorem accept_tokenCollector (e : Expr) : e.accept tokenCollector [] = e.operationTokens := by
  have collects (e : Expr) (tokens : List String) :
      (tokenCollector.visit e tokens).1 = tokens ++ e.event.token?.toList := by
    cases e with
    | const value => exact (List.append_nil tokens).symm
    | var v => exact (List.append_nil tokens).symm
    | _ => rfl
  have collected := accept_eq_foldl_events (V := tokenCollector)
    (fun tokens event => tokens ++ event.token?.toList) (fun _ _ _ => rfl) collects e []
  rw [collected, operationTokens, List.filterMap_eq_flatMap_toList, List.flatMap_eq_foldl]

end Collectors

/-- A walk calls the visitor at the nodes that have no operation to skip above them, once at each and
in pre-order. A walk through every node finds the size, the variables and the operations of the
formula, and its events determine the formula. -/
theorem walk_preorder (e : Expr) :
    (∀ skip : String → Bool, ∃ places,
      e.InPreorder (fun op => skip op.token) places ∧
        (e.walk fun op => skip op.token) = places.map (fun place => place.2.event) ∧
        ∀ (σ : Type) (V : Visitor σ), V.Skips (fun op => skip op.token) → ∀ s,
          e.accept V s = places.foldl (fun s place => (V.visit place.2 s).1) s) ∧
      (e.accept nodeCounter 0 = e.nodeCount ∧
        (tokensOf (e.render .bare)).length = e.nodeCount) ∧
      (e.accept variableCollector [] = e.mentioned ∧
        ∀ v, v ∈ e.mentioned ↔ e.contains v = true) ∧
      (e.accept tokenCollector [] = e.operationTokens ∧
        (tokensOf (e.render .operatorFirst)).filterMap Token.operator? = e.operationTokens) ∧
      ∀ f : Expr, e.events.map Event.describe = f.events.map Event.describe → e = f := by
  refine ⟨?_, ⟨accept_nodeCounter e, ?_⟩, ⟨accept_variableCollector e, fun v => mem_mentioned_iff⟩,
    ⟨accept_tokenCollector e, ?_⟩, fun f => eq_of_described⟩
  · intro skip
    refine ⟨_, inPreorder_places e, walk_eq_map_places e, ?_⟩
    intro σ V skips s
    exact accept_eq_foldl skips e s
  · rw [tokensOf_render, length_tokens]
  · have written : tokensOf (e.render .operatorFirst) = e.tokens .operatorFirst :=
      Token.scan_spell (words_tokens .first e)
    rw [written, operators_tokens]

def counterOutside (token : String) : Visitor Nat :=
  { nodeCounter with operation := fun op _ count => (count + 1, op.token != token) }

theorem walk_preorder_product :
    (counterOutside "*").Skips (fun op => op.token == "*") ∧
      (mean [variance [], -(var .x * const 2), variance []]).accept (counterOutside "*") 0 = 5 ∧
      ((mean [var .x, const 3]).derivative "x").events.map Event.describe =
        (mean [const 1, const 0]).events.map Event.describe ∧
      (mean [var .x, const 3]).derivative "x" = mean [const 1, const 0] := by
  have skips : (counterOutside "*").Skips fun op => op.token == "*" := fun _ _ _ => rfl
  have one (e : Expr) (s : Nat) : ((counterOutside "*").visit e s).1 = s + 1 := by cases e <;> rfl
  obtain ⟨places, -, walked, calls⟩ :=
    (walk_preorder (mean [variance [], -(var .x * const 2), variance []])).1 (· == "*")
  have number := congrArg List.length walked
  rw [List.length_map] at number
  have texts : ((mean [var .x, const 3]).derivative "x").events.map Event.describe =
      (mean [const 1, const 0]).events.map Event.describe := rfl
  refine ⟨skips, ?_, texts, (walk_preorder _).2.2.2.2 _ texts⟩
  rw [calls Nat (counterOutside "*") skips]
  simp only [one, List.foldl_add_const, ← number]
  rfl

end Expr

end Formula
