/-
# Rows of checked queries fail only on data

The stages that work on rows, filtering and grouping, evaluate the expressions of a query.  For
clauses in normal form they come to nothing at most in a way that no check can foresee
(`QueryError.isLate`).

The statements go along the pipeline: a filter (**`Filter.Normal.holds_failsOnly`**) and the rows of a
level (**`GroupOf.Normal.rowsOf_failsOnly`**).  How a bound on errors is handed on from the parts is
said once for any bound.
-/
import GraphQuery.Proofs.Expression.Safety
import GraphQuery.Proofs.Query.NormalForm
import GraphQuery.Rows.Grouping

namespace GraphQuery

/-! ## 1. Errors while a query runs -/

/-- The error is about the data that a query meets: a reference to nothing, an operand or a
pattern. -/
def QueryError.isRunTime : QueryError → Bool
  | danglingReference _ _ _ => true
  | expression e => e.isRunTime
  | _ => false

/-- What no check can foresee: such an error, or a stop. -/
def QueryError.isLate (e : QueryError) : Bool := e.isRunTime || e.isStop

variable {t : OperatorTable} {P : ExprError → Prop}

/-! ## 2. Filters -/

namespace Filter

theorem allHold_failsOnly {parts : List Filter} {row : Value}
    (h : ∀ f ∈ parts, FailsOnly P (f.holds t row)) : FailsOnly P (allHold t row parts) := by
  induction parts with
  | nil => exact .ok
  | cons f rest ih =>
    rw [allHold]
    refine .bind (h f List.mem_cons_self) fun b _ => ?_
    split
    · exact ih fun g hg => h g (List.mem_cons_of_mem _ hg)
    · exact .pure

theorem anyHolds_failsOnly {parts : List Filter} {row : Value}
    (h : ∀ f ∈ parts, FailsOnly P (f.holds t row)) : FailsOnly P (anyHolds t row parts) := by
  induction parts with
  | nil => exact .ok
  | cons f rest ih =>
    rw [anyHolds]
    refine .bind (h f List.mem_cons_self) fun b _ => ?_
    split
    · exact .pure
    · exact ih fun g hg => h g (List.mem_cons_of_mem _ hg)

/-- **A normal filter fails only on data.** -/
theorem Normal.holds_failsOnly (htable : t.FailsOnData) {f : Filter} (h : f.Normal t)
    (row : Value) : FailsOnly (·.isLate) (f.holds t row) := by
  induction h with
  | conjunction _ ih => rw [holds]; exact allHold_failsOnly ih
  | disjunction _ ih => rw [holds]; exact anyHolds_failsOnly ih
  | negation _ ih => rw [holds]; exact ih.map
  | @field path c _ hc =>
    rw [holds]
    cases c with
    | equals expected => exact .ok
    | expression e => exact (hc.evaluate_failsOnly htable _).map
  | expression _ _ haccepts => rw [holds]; exact (haccepts.evaluate_failsOnly htable row).map

theorem passes_failsOnly {f? : Option Filter} {row : Value}
    (h : ∀ f, f? = some f → FailsOnly P (f.holds t row)) : FailsOnly P (passes t row f?) := by
  cases f? with
  | none => exact .ok
  | some f => exact h f rfl

end Filter

/-! ## 3. Group levels -/

/-- Only the expressions of a selection can fail on a context. -/
theorem Select.fromContext_failsOnly {select : Select} {context : Row}
    (h : ∀ key x, (key, .expression x) ∈ select → FailsOnly P (t.evaluate x (.map context))) :
    FailsOnly P (Select.fromContext t context select) := by
  induction select with
  | nil => exact .ok
  | cons e rest ih =>
    obtain ⟨key, s⟩ := e
    have ih := ih fun k x hx => h k x (List.mem_cons_of_mem _ hx)
    cases s with
    | field source =>
      rw [Select.fromContext]
      refine ih.bind fun row _ => ?_
      split <;> exact .pure
    | expression x =>
      rw [Select.fromContext]
      exact (h key x List.mem_cons_self).bind fun _ _ => ih.bind fun _ _ => .pure
    | subquery q => exact ih

namespace GroupOf

variable {g : Group}

/-- **The rows of a level fail within the bound** if its aggregates, its expressions and its filter
do. -/
theorem rowsOf_failsOnly
    (haggregates : ∀ e ∈ g.aggregates, ∀ rows : List Row,
      FailsOnly P (t.evaluateRequired e.2 (.list (rows.map .map))))
    (hselect : ∀ key x, (key, .expression x) ∈ g.select → ∀ context,
      FailsOnly P (t.evaluate x (.map context)))
    (hfilter : ∀ f, g.filter = some f → ∀ row, FailsOnly P (f.holds t row)) (parts : List Part) :
    FailsOnly P (g.rowsOf t parts) := by
  have hrow : ∀ p, FailsOnly P (g.rowOf t p) := fun p =>
    have haggregate : FailsOnly P (g.aggregate t p.members) :=
      .mapM fun e he => (haggregates e he p.members).bind fun _ _ => .pure
    haggregate.bind fun aggregates _ =>
      (Select.fromContext_failsOnly fun key x hx => hselect key x hx _).bind fun _ _ => .pure
  induction parts with
  | nil => exact .ok
  | cons p rest ih =>
    exact (hrow p).bind fun row _ =>
      (Filter.passes_failsOnly fun f hf => hfilter f hf _).bind fun _ _ => ih.bind fun _ _ => .pure

/-- So those of a normal level fail only on data. -/
theorem Normal.rowsOf_failsOnly (htable : t.FailsOnData) (h : g.Normal t) (parts : List Part) :
    FailsOnly (·.isLate) (g.rowsOf t parts) := by
  refine GroupOf.rowsOf_failsOnly (fun e he rows => ?_) (fun key x hx context => ?_)
    (fun f hf row => ?_) parts
  · exact (h.aggregates e he).evaluateRequired_failsOnly htable _
  · have haccepts : t.Accepts x := h.select (key, .expression x) hx
    exact haccepts.evaluate_failsOnly htable _
  · exact (h.filter f hf).holds_failsOnly htable row

end GroupOf

theorem Dialect.GroupsNormal.normal_of_mem {d : Dialect} {depth : Nat} {groups : List Group}
    (h : d.GroupsNormal depth groups) {g : Group} (hg : g ∈ groups) : g.Normal d.operators := by
  induction groups generalizing depth with
  | nil => exact absurd hg List.not_mem_nil
  | cons g' inner ih =>
    obtain ⟨-, hnormal, hinner⟩ := h
    rcases List.mem_cons.mp hg with rfl | hg
    · exact hnormal
    · exact ih hinner hg

end GraphQuery
