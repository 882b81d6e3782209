import Formula.Proofs.Arity.Checked
import Formula.Workbench

namespace Formula.Tree

open Formula.Expr (tree)
open Workbench (Command)

def render (n : Notation) (t : Tree) : String :=
  String.ofList <| Token.spell <| t.fold (fun value => [.run (Number.write value)])
    (fun v => [.run v.name]) fun op operands => n.arrange op operands.flatten

/-- Reads a text; without result if it is read but a node of the formula cannot be made. -/
def parsed? (n : Notation) (limit : Option Nat) (text : String) : Option (Option Tree) :=
  match Formula.parse n limit text with
  | .ok e => (assembled? e).map some
  | .error _ => some none

def built? (op? : Option Operation) (count : Nat) (stack : List Tree) : Option (List Tree) :=
  if stack.length < count then some stack
  else
    match op? with
    | some op =>
      if op.accepts count then
        (checked? op (stack.take count).reverse).map (· :: stack.drop count)
      else some stack
    | none => some stack

def run? : Command → List Tree → Option (List Tree)
  | .number value, stack => some (.const value :: stack)
  | .variable name, stack =>
    match Variable.ofName? name with
    | some v => some (.var v :: stack)
    | none => some stack
  | .parse n limit text, stack => (parsed? n limit text).map fun t? => t?.toList ++ stack
  | .call token count, stack => built? (Operation.ofToken? token) count stack
  | .apply op count, stack => built? (some op) count stack
  | .derivative name, t :: rest => (t.derivative? name).map (· :: rest)
  | .gradient, t :: rest =>
    (Variable.all.mapM fun v => t.derivative? v.name).map (·.reverse ++ rest)
  | .copy depth, stack => some (stack[depth]?.toList ++ stack)
  | .operand index, t :: rest => some (t.operands[index]?.toList ++ t :: rest)
  | .reparse n, t :: rest => (parsed? n none (t.render n)).map fun t? => t?.toList ++ rest
  | .drop, _ :: rest => some rest
  | .swap, t :: u :: rest => some (u :: t :: rest)
  | .evaluate point, t :: rest => (t.value? .double point.coordinate).map fun _ => t :: rest
  | _, stack => some stack

def runAll? (commands : List Command) : Option (List Tree) :=
  commands.foldlM (fun stack command => run? command stack) []

theorem render_tree (n : Notation) (e : Expr) : e.tree.render n = e.render n := by
  rw [render, Expr.fold_tree]
  rfl

theorem parsed?_eq (n : Notation) (limit : Option Nat) (text : String) :
    parsed? n limit text = some ((Formula.parse n limit text).toOption.map tree) := by
  unfold parsed?
  cases Formula.parse n limit text with
  | ok e => simp only [assembled?_eq]; rfl
  | error err => rfl

theorem built?_tree (op? : Option Operation) (count : Nat) (stack : Workbench.Stack) :
    built? op? count (stack.map tree) = some ((Workbench.build op? count stack).2.map tree) := by
  unfold built? Workbench.build
  rw [List.length_map]
  split
  · rfl
  · next enough =>
    cases op? with
    | none => rfl
    | some op =>
      have length : (stack.take count).reverse.length = count := by
        rw [List.length_reverse, List.length_take_of_le (Nat.le_of_not_lt enough)]
      have made := Expr.build?_isSome op (stack.take count).reverse
      rw [length] at made
      simp only [Option.bind_some, ← List.map_take, ← List.map_reverse, ← List.map_drop, ← made]
      rw [checked?_map_tree]
      cases Expr.build? op (stack.take count).reverse <;> rfl

theorem run?_tree (command : Command) (stack : Workbench.Stack) :
    run? command (stack.map tree) = some ((Workbench.run command stack).2.map tree) := by
  cases command with
  | number value => rfl
  | «variable» name =>
    simp only [run?, Workbench.run, Variable.read]
    cases Variable.ofName? name <;> rfl
  | parse n limit text =>
    simp only [run?, parsed?_eq, Workbench.run]
    cases Formula.parse n limit text <;> rfl
  | call token count => exact built?_tree ..
  | apply op count => exact built?_tree (some op) count stack
  | derivative name =>
    cases stack with
    | nil => rfl
    | cons e rest => simp only [List.map_cons, run?, derivative?_tree]; rfl
  | gradient =>
    cases stack with
    | nil => rfl
    | cons e rest =>
      simp only [List.map_cons, run?, derivative?_tree, mapM_tree, Workbench.run, Expr.gradient,
        Option.map_some, List.map_append, List.map_reverse]
  | copy depth =>
    simp only [run?, Workbench.run, List.getElem?_map]
    cases stack[depth]? <;> rfl
  | operand index =>
    cases stack with
    | nil => rfl
    | cons e rest =>
      simp only [List.map_cons, run?, Workbench.run, Expr.operands_tree, List.getElem?_map]
      cases e.operands[index]? <;> rfl
  | reparse n =>
    cases stack with
    | nil => rfl
    | cons e rest =>
      simp only [List.map_cons, run?, parsed?_eq, render_tree, Workbench.run]
      cases Formula.parse n none (e.render n) <;> rfl
  | drop => cases stack <;> rfl
  | swap =>
    cases stack with
    | nil => rfl
    | cons e rest => cases rest <;> rfl
  | compare =>
    cases stack with
    | nil => rfl
    | cons e rest => cases rest <;> rfl
  | evaluate point =>
    cases stack with
    | nil => rfl
    | cons e rest => simp only [List.map_cons, run?, value?_tree]; rfl
  | render n => cases stack <;> rfl
  | inspect => cases stack <;> rfl

theorem runAll?_tree (commands : List Command) :
    runAll? commands = some ((Workbench.runAll commands).map tree) := by
  have from_any (stack : Workbench.Stack) :
      commands.foldlM (fun stack command => run? command stack) (stack.map tree) =
        some ((commands.foldl (fun stack command => (Workbench.run command stack).2) stack).map
          tree) := by
    induction commands generalizing stack with
    | nil => rfl
    | cons command commands ih =>
      rw [List.foldlM_cons, run?_tree]
      exact ih _
  exact from_any []

end Formula.Tree

namespace Formula

theorem Expr.call?_eq_none_iff {token : String} {operands : List Expr} :
    call? token operands = none ↔
      ∀ op, Operation.ofToken? token = some op → op.accepts operands.length = false := by
  unfold call?
  cases Operation.ofToken? token with
  | none => simp
  | some op => simp [← build?_isSome]

/-- A reader makes a node exactly if the check allows it. -/
theorem Reader.applied_tree (op : Operation) (operands : List Expr) (index : Nat) :
    (applied op operands index).toOption.map Expr.tree =
      Tree.checked? op (operands.map Expr.tree) := by
  rw [Tree.checked?_map_tree, applied]
  cases Expr.build? op operands <;> rfl

/-- Whatever commands are given, every check succeeds on the way. Every formula that is made is well
formed, with all its derivatives, and its rules find what they ask for at every point. The readers
make a node exactly if the check allows it. A token and operands make no node exactly if the
catalogue does not have the token or has it for another number of operands. -/
theorem Workbench.runAll_arities (commands : List Command) :
    Tree.runAll? commands = some ((runAll commands).map Expr.tree) ∧
    (∀ e ∈ runAll commands, e.tree.WellFormed ∧
      (∀ name, e.tree.derivative? name = some (e.derivative name).tree ∧
        (e.derivative name).tree.WellFormed) ∧
      ∀ point, e.tree.value? .double point.coordinate = some (e.evaluate point)) ∧
    (∀ op operands index, (Reader.applied op operands index).toOption.map Expr.tree =
      Tree.checked? op (operands.map Expr.tree)) ∧
    ∀ token operands, Expr.call? token operands = none ↔
      ∀ op, Operation.ofToken? token = some op → op.accepts operands.length = false := by
  refine ⟨Tree.runAll?_tree commands, ?_, Reader.applied_tree, fun _ _ => Expr.call?_eq_none_iff⟩
  intro e _
  refine ⟨e.wellFormed_tree, ?_, ?_⟩
  · intro name
    exact ⟨Tree.derivative?_tree name e, Expr.wellFormed_tree _⟩
  · intro point
    exact Tree.value?_tree .double point.coordinate e

theorem Workbench.runAll_arities_variance :
    let commands : List Command :=
      [.variable "x", .parse .bare (some 0) "y mean", .call "var" 2, .call "+" 1, .derivative "x"]
    let e := (Expr.variance [.var .x, .mean [.var .y]]).derivative "x"
    e ∈ runAll commands ∧ e.tree.WellFormed ∧
      e.tree.derivative? "y" = some (e.derivative "y").tree ∧
      e.tree.value? .double (Point.coordinate [2]) = some (e.evaluate [2]) := by
  intro commands e
  have made : e ∈ runAll commands := List.mem_singleton.mpr rfl
  obtain ⟨-, each, -⟩ := runAll_arities commands
  obtain ⟨wellFormed, derivatives, values⟩ := each e made
  exact ⟨made, wellFormed, (derivatives "y").1, values [2]⟩

example : (Tree.node (.binary .mul) [.var .x]).derivative? "x" = none := rfl

end Formula
