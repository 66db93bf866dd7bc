/-
# Which faults of the caller are found before any resource is read

All errors but a dangling reference are faults of the caller, and should not depend on the graph.  For
most of them this holds: what normalization and validation find is found on every graph alike.  But
operands are left to the operators, which look at them only when they are evaluated, so an operand
that its operator cannot take is reported on a graph where some resource leads to it, and passes on
another.

* `QueryOf.operandsFit` is the check that the two passes leave out, made of `OperatorTable.fits`.
* **`execute_callerErrors`**: the faults of the caller are the same on all graphs if they are not about
  expressions, or if the operands of the query fit.  Beyond that little is left, since on the graph
  without resources an admitted query comes upon a fault only in a group level without keys.
* `operand_unnoticed` is a query whose fault comes to light on some graphs only.
-/
import GraphQuery.Proofs.Engine.Growth
import GraphQuery.Proofs.Expression.Operands

namespace GraphQuery

/-! ## 1. Clauses whose operands fit -/

section

variable (t : OperatorTable)

mutual
/-- The expressions of a filter have values on all inputs. -/
def Filter.operandsFit : Filter → Bool
  | .conjunction parts => Filter.partsFit parts
  | .disjunction parts => Filter.partsFit parts
  | .negation part => Filter.operandsFit part
  | .field _ (.equals _) => true
  | .field _ (.expression x) => t.fits false x
  | .expression x => t.fits false x
termination_by structural f => f
/-- So have those of all parts. -/
def Filter.partsFit : List Filter → Bool
  | [] => true
  | f :: rest => Filter.operandsFit f && Filter.partsFit rest
termination_by structural fs => fs
end

/-- The selected expression, if it is one, has a value on all inputs. -/
def Selection.operandsFit : Selection → Bool
  | .expression x => t.fits false x
  | _ => true

/-- The expressions of a group level have values, those of its aggregates on lists. -/
def GroupOf.operandsFit (g : Group) : Bool :=
  g.select.all (fun x => x.2.operandsFit t) &&
    g.aggregates.all (fun x => t.isExpression x.2 && t.fits true x.2) &&
      g.filter.all (Filter.operandsFit t)

/-- The expressions of the clauses of a query have values. -/
def QueryOf.operandsFit (q : Query) : Bool :=
  q.select.all (fun x => x.2.operandsFit t) && q.filter.all (Filter.operandsFit t) &&
    q.groups.all (GroupOf.operandsFit t)

end

variable {t : OperatorTable}

mutual
/-- **A filter whose operands fit tests every row**, unless the program stops. -/
theorem Filter.holds_stopsOnly (row : Value) : (f : Filter) → f.operandsFit t = true →
    FailsOnly (·.isStop) (f.holds t row)
  | .conjunction parts, h => by
    rw [holds]
    exact allHold_failsOnly (parts_stopsOnly row parts (by rwa [operandsFit] at h))
  | .disjunction parts, h => by
    rw [holds]
    exact anyHolds_failsOnly (parts_stopsOnly row parts (by rwa [operandsFit] at h))
  | .negation part, h => by
    rw [holds]
    exact (holds_stopsOnly row part (by rwa [operandsFit] at h)).map
  | .field path (.equals expected), _ => by
    rw [holds]
    exact .ok
  | .field path (.expression x), h => by
    rw [operandsFit] at h
    rw [holds]
    exact (OperatorTable.evaluates_of_fits h _ nofun).map
  | .expression x, h => by
    rw [operandsFit] at h
    rw [holds]
    exact (OperatorTable.evaluates_of_fits h row nofun).map
termination_by structural f => f
theorem Filter.parts_stopsOnly (row : Value) : (parts : List Filter) →
    Filter.partsFit t parts = true → ∀ f ∈ parts, FailsOnly (·.isStop) (f.holds t row)
  | [], _ => fun f hf => absurd hf List.not_mem_nil
  | f :: rest, h => by
    rw [partsFit, Bool.and_eq_true] at h
    exact List.forall_mem_cons.mpr ⟨holds_stopsOnly row f h.1, parts_stopsOnly row rest h.2⟩
termination_by structural fs => fs
end

/-- So do the rows of a level whose operands fit. -/
theorem GroupOf.rowsOf_stopsOnly {g : Group} (h : g.operandsFit t = true) (parts : List Part) :
    FailsOnly (·.isStop) (g.rowsOf t parts) := by
  simp only [operandsFit, Bool.and_eq_true] at h
  obtain ⟨⟨hselect, haggregates⟩, hfilter⟩ := h
  refine rowsOf_failsOnly (fun e he rows => ?_) (fun key x hx context => ?_) (fun f hf row => ?_) parts
  · obtain ⟨hexpression, hfits⟩ := Bool.and_eq_true_iff.mp (List.all_eq_true.mp haggregates e he)
    rw [OperatorTable.evaluateRequired, OperatorTable.checkExpression_eq_ok_iff.mpr hexpression]
    exact OperatorTable.evaluates_of_fits hfits _ fun _ => ⟨_, rfl⟩
  · have hfits : t.fits false x = true := List.all_eq_true.mp hselect (key, .expression x) hx
    exact OperatorTable.evaluates_of_fits hfits _ nofun
  · rw [hf] at hfilter
    exact Filter.holds_stopsOnly row f hfilter

/-- **A query whose operands and slices fit has no clause that fails**, unless the program stops. -/
theorem QueryOf.FailsWithin.of_operandsFit {q : Query}
    (h : q.operandsFit t = true) (hslices : q.SlicesFit) : q.FailsWithin (·.isStop) t := by
  simp only [operandsFit, Bool.and_eq_true] at h
  obtain ⟨⟨hselect, hfilter⟩, hgroups⟩ := h
  refine ⟨.of_eq_ok hslices.slice, ?_, ?_, fun g hg => ⟨.of_eq_ok (hslices.groups g hg), ?_⟩⟩
  · intro key x hx view
    have hfits : t.fits false x = true := List.all_eq_true.mp hselect (key, .expression x) hx
    exact QueryError.ofExpr_failsOnly (OperatorTable.evaluates_of_fits hfits _ nofun)
  · intro f hf view
    rw [hf] at hfilter
    exact QueryError.ofExpr_failsOnly (Filter.holds_stopsOnly _ f hfilter)
  · intro parts
    exact QueryError.ofExpr_failsOnly
      (GroupOf.rowsOf_stopsOnly (List.all_eq_true.mp hgroups g hg) parts)

/-! ## 2. Errors of projection -/

/-- The error is about a reference or comes from an expression. -/
inductive QueryError.IsProjected : QueryError → Prop
  | dangling {source : Ref} {name : String} {target : Ref} :
      IsProjected (.danglingReference source name target)
  | expression {x : ExprError} : IsProjected (.expression x)

theorem QueryError.isCaller_of_isStop {err : QueryError} (h : err.isStop = true) :
    err.isCaller = false := by
  cases err with
  | danglingReference _ _ _ => rfl
  | expression x =>
    have hx : x.isStop = true := h
    rw [isCaller, hx, Bool.not_true]
  | _ => cases h

namespace Engine

variable {e : Engine} {q : Query}

/-- After validation nothing but references and expressions is left to fail.  A stop counts to the
latter. -/
theorem project_isProjected (h : e.schema.validate q = .ok ()) :
    FailsOnly QueryError.IsProjected (e.project q) :=
  project_failsOnly_of .expression (.of_dangling fun _ _ _ => .dangling) fun q' hq' =>
    have hslices := Schema.slicesFit_of_validate h q' hq'
    .of_slices (fun _ => .expression) (.of_eq_ok hslices.slice)
      fun g hg => .of_eq_ok (hslices.groups g hg)

/-- Where all operands fit, no fault of the caller is. -/
theorem project_notCaller (h : e.schema.validate q = .ok ())
    (hfits : ∀ q' ∈ q.queries, q'.operandsFit e.operators = true) :
    FailsOnly (·.isCaller = false) (e.project q) :=
  project_failsOnly_of (P := (·.isCaller = false)) rfl (.of_dangling fun _ _ _ => rfl) fun q' hq' =>
    (QueryOf.FailsWithin.of_operandsFit (hfits q' hq') (Schema.slicesFit_of_validate h q' hq')).mono
      fun _ => QueryError.isCaller_of_isStop

/-- Of no rows, levels with keys make no rows, and evaluate nothing. -/
theorem groupRows_nil {t : OperatorTable} {groups : List Group}
    (h : ∀ g ∈ groups, g.keys ≠ [] ∧ g.slice.check g.order = .ok ()) :
    groupRows t groups [] = .ok [] := by
  induction groups with
  | nil => rfl
  | cons g inner ih =>
    obtain ⟨⟨hkeys, hslice⟩, hinner⟩ := List.forall_mem_cons.mp h
    have hparts : partition g.keys [] = [] := by
      rw [partition, if_neg (by simpa using hkeys)]
      rfl
    have hlevel : g.level t [] = .ok [] := by
      rw [GroupOf.level, hparts]
      exact arrange_nil hslice
    rw [groupRows, hlevel, ok_bind, ih hinner]

/-- On the graph without resources nothing at all fails, unless a level without keys makes a row. -/
theorem exists_project_empty (h : e.schema.validate q = .ok ())
    (hkeys : ∀ g ∈ q.groups, g.keys ≠ []) : ∃ v, (e.withGraph .empty).project q = .ok v := by
  have hslices := Schema.slicesFit_of_validate h q (by rw [QueryOf.queries]; exact .head _)
  unfold project
  cases q.id with
  | some id => exact ⟨.null, rfl⟩
  | none =>
    have hchosen : (e.withGraph .empty).chosen q [] = .ok [] := arrange_nil hslices.slice
    have hgroups : groupRows e.operators q.groups [] = .ok [] :=
      groupRows_nil fun g hg => ⟨hkeys g hg, hslices.groups g hg⟩
    refine ⟨.list [], ?_⟩
    show (e.withGraph .empty).collect _ q [] = _
    rw [collect, hchosen, ok_bind, List.mapM_nil]
    cases hq : q.groups with
    | nil => rfl
    | cons g inner =>
      show (groupRows e.operators _ [] >>= fun made => _) = _
      rw [← hq, hgroups]
      rfl

/-! ## 3. Documents on all graphs -/

/-- The faults of the caller in a document are the same on all graphs. -/
def DecidedUpFront (e : Engine) (document : Value) : Prop :=
  ∀ g g' err, err.isCaller = true →
    ((e.withGraph g).execute document = .error err ↔
      (e.withGraph g').execute document = .error err)

/-- An error that projection does not have on any graph comes out on all graphs alike. -/
theorem execute_eq_error_iff {P : QueryError → Prop} {document : Value} {err : QueryError}
    (h : ∀ g q, e.normalize document = .ok q → e.schema.validate q = .ok () →
      FailsOnly P ((e.withGraph g).project q))
    (herr : ¬ P err) (g g' : Graph) :
    (e.withGraph g).execute document = .error err ↔
      (e.withGraph g').execute document = .error err := by
  have hstatic : ∀ g, (e.withGraph g).execute document = .error err ↔
      (do let q ← e.normalize document; e.schema.validate q) = .error err := by
    intro g
    rw [execute, bind_eq_error, bind_eq_error]
    refine or_congr Iff.rfl (exists_congr fun q => and_congr_right fun hq => ?_)
    rw [run, bind_eq_error]
    refine ⟨fun herror => herror.resolve_right ?_, Or.inl⟩
    rintro ⟨_, hvalid, hproject⟩
    exact herr (h g q hq hvalid err hproject)
  rw [hstatic g, hstatic g']

/-- **Which faults of the caller are found before any resource is read.**  Those that are not about an
expression are, with any table of operators, and so are tags without operators and data in the place
of an expression, where the table fails only on data.  Misfitting operands are not; if there are none,
all faults are.  In an admitted document whose group levels have keys, no fault of the caller is found
on the graph without resources, so the faults are the same on all graphs exactly if no graph brings one
to light. -/
theorem execute_callerErrors (e : Engine) (document : Value) :
    (∀ g g' err, err.isCaller = true → (∀ x, err ≠ .expression x) →
        ((e.withGraph g).execute document = .error err ↔
          (e.withGraph g').execute document = .error err)) ∧
      (e.operators.FailsOnData → ∀ g g' err, err.isCaller = true → err.isRunTime = false →
        ((e.withGraph g).execute document = .error err ↔
          (e.withGraph g').execute document = .error err)) ∧
      ((∀ q, e.normalize document = .ok q →
          ∀ q' ∈ q.queries, q'.operandsFit e.operators = true) → e.DecidedUpFront document) ∧
      ∀ q, e.normalize document = .ok q → e.schema.validate q = .ok () →
        (∀ level ∈ q.groups, level.keys ≠ []) →
          (e.DecidedUpFront document ↔
            ∀ g err, (e.withGraph g).execute document = .error err → err.isCaller = false) := by
  refine ⟨?_, ?_, ?_, ?_⟩
  · intro g g' err hcaller hexpression
    refine execute_eq_error_iff (P := QueryError.IsProjected)
      (fun g q _ hvalid => project_isProjected (e := e.withGraph g) hvalid) ?_ g g'
    rintro ⟨⟩
    · cases hcaller
    · exact hexpression _ rfl
  · intro htable g g' err hcaller hrun
    have hlate : ¬err.isLate = true := by
      simp only [QueryError.isLate, hrun, Bool.false_or]
      exact fun hstop => by simp [QueryError.isCaller_of_isStop hstop] at hcaller
    refine execute_eq_error_iff (P := (·.isLate)) (fun g q hq hvalid => ?_) hlate g g'
    obtain ⟨⟨t, hnormal⟩, -⟩ := Dialect.normalize_normal hq
    exact project_failsOnly (e := e.withGraph g) htable hnormal hvalid
  · intro hfits g g' err hcaller
    exact execute_eq_error_iff (P := (·.isCaller = false))
      (fun g q hq hvalid => project_notCaller (e := e.withGraph g) hvalid (hfits q hq))
      (by simp [hcaller]) g g'
  · intro q hq hvalid hkeys
    constructor
    · intro hsame g err herror
      by_contra hcaller
      rw [Bool.not_eq_false] at hcaller
      obtain ⟨v, hv⟩ := exists_project_empty hvalid hkeys
      have hempty : (e.withGraph .empty).execute document = .ok v := by
        rw [execute, show (e.withGraph .empty).normalize document = .ok q from hq, ok_bind, run,
          show (e.withGraph .empty).schema.validate q = .ok () from hvalid, ok_bind, hv]
      rw [hsame g .empty err hcaller, hempty] at herror
      cases herror
    · intro hnever g g' err hcaller
      have hnone : ∀ g, (e.withGraph g).execute document ≠ .error err := fun g herror =>
        absurd (hnever g err herror) (by simp [hcaller])
      exact iff_of_false (hnone g) (hnone g')

/-- Names of people of some ages. -/
def namesDocument : Value := .map [
  ("select", .map [("x", .map [("$get", .string "name")])]),
  ("type", .string "Person"),
  ("where", .map [("age", .map [("$in", .list [.int 30, .int 40])])])]

/-- The query for them. -/
def namesQuery : Query where
  typeName := "Person"
  select := [("x", .expression (.map [("$get", .string "name")]))]
  filter := some (.field "age" (.expression (.map [("$in", .list [.int 30, .int 40])])))

/-- People whose age passes a test that no operator makes. -/
def unknownTagDocument : Value := .map [
  ("select", .string "name"), ("type", .string "Person"),
  ("where", .map [("age", .map [("$frob", .int 30)])])]

/-- People under an expression whose operand is no path. -/
def strayOperandDocument : Value := .map [
  ("select", .map [("x", .map [("$get", .int 5)])]), ("type", .string "Person")]

/-- The query for them. -/
def strayOperandQuery : Query where
  typeName := "Person"
  select := [("x", .expression (.map [("$get", .int 5)]))]

/-- **A misfitting operand goes unnoticed where no resource leads to it.** -/
theorem operand_unnoticed :
    (office.withGraph .empty).execute strayOperandDocument = .ok (.list []) ∧
      office.execute strayOperandDocument =
        .error (.expression (Operator.refuse (.access .get) (.pathExpected .int))) ∧
      ¬ office.DecidedUpFront strayOperandDocument := by
  have hempty : (office.withGraph .empty).execute strayOperandDocument = .ok (.list []) := by
    decide +kernel
  have hoffice : office.execute strayOperandDocument =
      .error (.expression (Operator.refuse (.access .get) (.pathExpected .int))) := by
    decide +kernel
  refine ⟨hempty, hoffice, fun hsame => ?_⟩
  have herror := (hsame .empty office.graph _ rfl).mpr hoffice
  rw [hempty] at herror
  cases herror

theorem execute_callerErrors_office :
    office.normalize namesDocument = .ok namesQuery ∧ office.DecidedUpFront namesDocument ∧
      office.operators.FailsOnData ∧
      (office.withGraph .empty).execute unknownTagDocument =
        .error (.expression (.unknownOperator "$frob")) ∧
      office.normalize strayOperandDocument = .ok strayOperandQuery ∧
      office.schema.validate strayOperandQuery = .ok () ∧
      ¬ office.DecidedUpFront strayOperandDocument := by
  have hnames : office.normalize namesDocument = .ok namesQuery := by decide +kernel
  have hfits : ∀ q' ∈ namesQuery.queries, q'.operandsFit office.operators = true := by
    decide +kernel
  have htable : office.operators.FailsOnData := OperatorTable.standard_failsOnData
  have hunknown : (office.withGraph office.graph).execute unknownTagDocument =
      .error (.expression (.unknownOperator "$frob")) := by decide +kernel
  have hstray : office.normalize strayOperandDocument = .ok strayOperandQuery := by decide +kernel
  have hvalid : office.schema.validate strayOperandQuery = .ok () := by decide +kernel
  have herror : (office.withGraph office.graph).execute strayOperandDocument =
      .error (.expression (Operator.refuse (.access .get) (.pathExpected .int))) := by
    decide +kernel
  obtain ⟨-, -, hdecided, -⟩ := execute_callerErrors office namesDocument
  obtain ⟨-, htags, -, -⟩ := execute_callerErrors office unknownTagDocument
  obtain ⟨-, -, -, hexact⟩ := execute_callerErrors office strayOperandDocument
  refine ⟨hnames, hdecided fun q hq => ?_, htable, ?_, hstray, hvalid, fun hsame => ?_⟩
  · rwa [← Except.ok.inj (hnames.symm.trans hq)]
  · exact (htags htable .empty office.graph _ rfl rfl).mpr hunknown
  · have hnever := (hexact _ hstray hvalid fun _ h => absurd h List.not_mem_nil).mp hsame
    exact absurd (hnever office.graph _ herror) Bool.noConfusion

end Engine

end GraphQuery
