import Mathlib.Data.List.Basic
import Formula.Expr.Visitor
import Formula.Proofs.Expr.Variadic

/-!
The nodes a walk comes to, in its order, each with the path to it: those that have no operation to
skip above them, in the lexicographic order of their paths.
-/

namespace Formula

/-- The visitor goes on to the operands of all operations but those to skip. -/
def Visitor.Skips {σ : Type} (V : Visitor σ) (skip : Operation → Bool) : Prop :=
  ∀ op operands s, (V.operation op operands s).2 = !skip op

namespace Expr

def event : Expr → Event
  | .const value => .const value
  | .var v => .var v
  | .binary op _ _ => .operation (.binary op) 2
  | .negate _ => .operation .negate 1
  | .statistic s operands => .operation (.statistic s) operands.length
  | .gauss .. => .operation .gauss 4

/-- No operation above the end of the path is one to skip. -/
def Reached (skip : Operation → Bool) (e : Expr) (path : List Nat) : Prop :=
  ∀ above f op, above <+: path → above ≠ path → e.at? above = some f → f.operation? = some op →
    skip op = false

def inOperand (i : Nat) (place : List Nat × Expr) : List Nat × Expr :=
  (i :: place.1, place.2)

section Places

variable (skip : Operation → Bool)

mutual

def places : Expr → List (List Nat × Expr)
  | .const value => [([], .const value)]
  | .var v => [([], .var v)]
  | .binary op left right =>
    ([], .binary op left right) ::
      if skip (.binary op) then []
      else (places left).map (inOperand 0) ++ (places right).map (inOperand 1)
  | .negate operand =>
    ([], .negate operand) :: if skip .negate then [] else (places operand).map (inOperand 0)
  | .statistic s operands =>
    ([], .statistic s operands) :: if skip (.statistic s) then [] else placesFrom 0 operands
  | .gauss amplitude center width point =>
    ([], .gauss amplitude center width point) ::
      if skip .gauss then []
      else
        (places amplitude).map (inOperand 0) ++ (places center).map (inOperand 1) ++
          (places width).map (inOperand 2) ++ (places point).map (inOperand 3)

def placesFrom (i : Nat) : List Expr → List (List Nat × Expr)
  | [] => []
  | e :: rest => (places e).map (inOperand i) ++ placesFrom (i + 1) rest

end

end Places

/-- The nodes without an operation to skip above them, each once with its path, in pre-order. -/
structure InPreorder (skip : Operation → Bool) (e : Expr) (places : List (List Nat × Expr)) :
    Prop where
  sorted : places.Pairwise fun a b => a.1 < b.1
  mem : ∀ path f, (path, f) ∈ places ↔ e.at? path = some f ∧ e.Reached skip path

variable {skip : Operation → Bool}

theorem places_eq (e : Expr) :
    e.places skip =
      ([], e) :: if e.operation?.any skip then [] else placesFrom skip 0 e.operands := by
  cases e with
  | statistic s es => rfl
  | _ => simp [places, placesFrom, operation?, operands]

theorem walk_eq (e : Expr) :
    e.walk skip =
      e.event :: if e.operation?.any skip then [] else e.operands.flatMap (walk skip) := by
  cases e with
  | statistic s es =>
    simp only [walk, fold, foldAll_eq_map, List.length_map]
    rfl
  | _ => simp [walk, fold, event, operation?, operands]

theorem mem_placesFrom {i : Nat} {es : List Expr} {path : List Nat} {f : Expr} :
    (path, f) ∈ placesFrom skip i es ↔
      ∃ j e rest, es[j]? = some e ∧ path = (i + j) :: rest ∧ (rest, f) ∈ e.places skip := by
  induction es generalizing i with
  | nil => simp [placesFrom]
  | cons e es ih =>
    rw [placesFrom, List.mem_append, ih]
    constructor
    · rintro (head | ⟨j, g, rest, found, rfl, inner⟩)
      · obtain ⟨⟨rest, g⟩, inner, same⟩ := List.mem_map.mp head
        cases same
        exact ⟨0, e, rest, rfl, rfl, inner⟩
      · exact ⟨j + 1, g, rest, found, by rw [Nat.add_assoc, Nat.add_comm 1], inner⟩
    · rintro ⟨j, g, rest, found, rfl, inner⟩
      cases j with
      | zero =>
        cases found
        exact .inl (List.mem_map.mpr ⟨(rest, f), inner, rfl⟩)
      | succ j => exact .inr ⟨j, g, rest, found, by rw [Nat.add_assoc, Nat.add_comm 1], inner⟩

theorem reached_nil (e : Expr) : e.Reached skip [] := by
  intro above f op initial proper
  exact absurd (List.prefix_nil.mp initial) proper

theorem reached_cons {e f : Expr} {i : Nat} (operand : e.operands[i]? = some f)
    (path : List Nat) :
    e.Reached skip (i :: path) ↔ e.operation?.any skip = false ∧ f.Reached skip path := by
  constructor
  · intro reached
    constructor
    · cases operation : e.operation? with
      | none => rfl
      | some op =>
        have root := reached [] e op List.nil_prefix (List.cons_ne_nil i path).symm rfl operation
        simpa using root
    · intro above g op initial proper found
      apply reached (i :: above) g op
      · exact List.cons_prefix_cons.mpr ⟨rfl, initial⟩
      · exact fun same => proper (List.cons.inj same).2
      · exact (at?_cons operand above).trans found
  · rintro ⟨entered, reached⟩ above g op initial proper found operation
    cases above with
    | nil =>
      cases found
      simpa [operation] using entered
    | cons j above =>
      obtain ⟨rfl, deeper⟩ := List.cons_prefix_cons.mp initial
      rw [at?_cons operand] at found
      exact reached above g op deeper (fun same => proper (congrArg _ same)) found operation

/-- A walk comes to the nodes that have no operation to skip above them. -/
theorem mem_places {e : Expr} {path : List Nat} {f : Expr} :
    (path, f) ∈ e.places skip ↔ e.at? path = some f ∧ e.Reached skip path := by
  induction e using operand_induction generalizing path with
  | step e ih =>
    rw [places_eq, List.mem_cons]
    cases path with
    | nil =>
      have root : (([], f) : List Nat × Expr) = ([], e) ↔ e.at? [] = some f := by
        rw [at?, Prod.mk.injEq, Option.some.injEq]
        exact ⟨fun same => same.2.symm, fun same => ⟨rfl, same.symm⟩⟩
      have deeper :
          ([], f) ∉ if e.operation?.any skip then [] else placesFrom skip 0 e.operands := by
        split
        · exact List.not_mem_nil
        · intro inner
          obtain ⟨j, g, rest, -, impossible, -⟩ := mem_placesFrom.mp inner
          cases impossible
      rw [root, or_iff_left deeper, and_iff_left e.reached_nil]
    | cons i path =>
      have other : ((i :: path, f) : List Nat × Expr) ≠ ([], e) := by
        intro same
        cases same
      -- below the root a path goes into one operand, which the walk enters unless it skips the root
      rw [or_iff_right other]
      constructor
      · intro inner
        split at inner
        · cases inner
        · next entered =>
          obtain ⟨j, g, rest, operand, same, inner⟩ := mem_placesFrom.mp inner
          rw [Nat.zero_add] at same
          obtain ⟨rfl, rfl⟩ := List.cons.inj same
          obtain ⟨found, reached⟩ := (ih g (List.mem_of_getElem? operand)).mp inner
          refine ⟨(at?_cons operand path).trans found, ?_⟩
          exact (reached_cons operand path).mpr ⟨Bool.eq_false_iff.mpr entered, reached⟩
      · rintro ⟨found, reached⟩
        obtain ⟨g, operand, found⟩ := at?_operand found
        obtain ⟨entered, reached⟩ := (reached_cons operand path).mp reached
        rw [entered, if_neg Bool.false_ne_true]
        have inner := (ih g (List.mem_of_getElem? operand)).mpr ⟨found, reached⟩
        exact mem_placesFrom.mpr ⟨i, g, path, operand, by rw [Nat.zero_add], inner⟩

theorem sorted_placesFrom {i : Nat} {es : List Expr}
    (each : ∀ e ∈ es, (e.places skip).Pairwise fun a b => a.1 < b.1) :
    (placesFrom skip i es).Pairwise fun a b => a.1 < b.1 := by
  induction es generalizing i with
  | nil => exact .nil
  | cons e es ih =>
    rw [placesFrom, List.pairwise_append]
    refine ⟨?_, ih fun f mem => each f (List.mem_cons_of_mem e mem), ?_⟩
    · rw [List.pairwise_map]
      exact (each e List.mem_cons_self).imp fun less => List.cons_lt_cons_iff.mpr (.inr ⟨rfl, less⟩)
    -- paths into different operands differ at their first number
    · rintro first inside ⟨path, f⟩ later
      obtain ⟨inner, -, rfl⟩ := List.mem_map.mp inside
      obtain ⟨j, g, rest, -, rfl, -⟩ := mem_placesFrom.mp later
      exact List.cons_lt_cons_iff.mpr (.inl (by omega))

/-- A walk comes to a node before its operands, and to the nodes in one operand before those in the
next. -/
theorem sorted_places (e : Expr) : (e.places skip).Pairwise fun a b => a.1 < b.1 := by
  induction e using operand_induction with
  | step e ih =>
    rw [places_eq, List.pairwise_cons]
    split
    · exact ⟨fun _ impossible => absurd impossible List.not_mem_nil, .nil⟩
    · refine ⟨?_, sorted_placesFrom ih⟩
      rintro ⟨path, f⟩ inner
      obtain ⟨j, g, rest, -, rfl, -⟩ := mem_placesFrom.mp inner
      exact List.nil_lt_cons ..

theorem inPreorder_places (e : Expr) : e.InPreorder skip (e.places skip) :=
  ⟨e.sorted_places, fun _ _ => mem_places⟩

theorem flatMap_walk_placesFrom {es : List Expr}
    (each : ∀ e ∈ es, e.walk skip = (e.places skip).map fun place => place.2.event) (i : Nat) :
    es.flatMap (walk skip) = (placesFrom skip i es).map fun place => place.2.event := by
  induction es generalizing i with
  | nil => rfl
  | cons e es ih =>
    have head := each e List.mem_cons_self
    have tail := ih fun f mem => each f (List.mem_cons_of_mem e mem)
    rw [List.flatMap_cons, placesFrom, List.map_append, List.map_map, head, tail (i + 1)]
    rfl

theorem walk_eq_map_places (e : Expr) :
    e.walk skip = (e.places skip).map fun place => place.2.event := by
  induction e using operand_induction with
  | step e ih =>
    rw [walk_eq, places_eq, List.map_cons, flatMap_walk_placesFrom ih 0]
    split <;> rfl

section Accept

variable {σ : Type} {V : Visitor σ}

theorem visit_node {e : Expr} {op : Operation} (operation : e.operation? = some op) :
    V.visit e = V.operation op e.operands := by
  cases e <;> cases operation <;> rfl

theorem acceptAll_eq_foldl (es : List Expr) (s : σ) :
    acceptAll V es s = es.foldl (fun s f => f.accept V s) s := by
  induction es generalizing s with
  | nil => rfl
  | cons e es ih => exact ih (e.accept V s)

theorem accept_eq (e : Expr) (s : σ) :
    e.accept V s = V.enter e (fun s => e.operands.foldl (fun s f => f.accept V s) s) s := by
  cases e with
  | const value => exact (ite_self _).symm
  | var v => exact (ite_self _).symm
  | statistic t es => simp [accept, Visitor.enter, operands, acceptAll_eq_foldl]
  | _ => simp [accept, operands]

theorem foldl_placesFrom {skip : Operation → Bool} {es : List Expr}
    (each : ∀ e ∈ es, ∀ s, e.accept V s =
      (e.places skip).foldl (fun s place => (V.visit place.2 s).1) s) (i : Nat) (s : σ) :
    es.foldl (fun s e => e.accept V s) s =
      (placesFrom skip i es).foldl (fun s place => (V.visit place.2 s).1) s := by
  induction es generalizing i s with
  | nil => rfl
  | cons e es ih =>
    have head := each e List.mem_cons_self s
    have tail := ih fun f mem => each f (List.mem_cons_of_mem e mem)
    rw [List.foldl_cons, placesFrom, List.foldl_append, List.foldl_map, tail (i + 1), head]
    rfl

theorem accept_eq_foldl {skip : Operation → Bool} (skips : V.Skips skip) (e : Expr) (s : σ) :
    e.accept V s = (e.places skip).foldl (fun s place => (V.visit place.2 s).1) s := by
  induction e using operand_induction generalizing s with
  | step e ih =>
    rw [accept_eq, places_eq, List.foldl_cons, Visitor.enter]
    cases operation : e.operation? with
    | none =>
      -- there are no operands, so the answer does not matter
      have noOperands := operands_leaf operation
      simp [noOperands, placesFrom]
    | some op =>
      have answer : (V.visit e s).2 = !skip op := by
        rw [visit_node operation]
        exact skips op e.operands s
      rw [answer, foldl_placesFrom ih 0]
      cases skipped : skip op <;> simp [skipped]

end Accept

end Expr

end Formula
