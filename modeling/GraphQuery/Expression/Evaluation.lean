/-
# The value of an expression

A map with one entry whose key is bound in the table is an expression; everything else is data and
its own value.  An expression is evaluated on an input; its operator decides which parts of the
operand are evaluated, and on what.

Evaluation follows the expression: it never looks at the input, or at a value it has computed, as
an expression.  So it ends, and the definitions recur on the expression alone.  A function from outside
gets its operand as it stands, and its result is taken as it is.

Where a part must be an expression if it looks like one, a tag without operator is refused
(`checkTag`); elsewhere such a map is data.
-/
import GraphQuery.Expression.Comparison
import GraphQuery.Expression.Reduction
import GraphQuery.Value.Json

namespace GraphQuery

namespace OperatorTable

variable (t : OperatorTable)

/-! ## 1. What is an expression -/

/-- The value is a map with one entry whose key has an operator. -/
def isExpression (v : Value) : Bool :=
  match v.singleEntry? with
  | some (tag, _) => t.contains tag
  | none => false

/-- The value is a map with one entry whose key has the form of a tag. -/
def isTagged (v : Value) : Bool :=
  match v.singleEntry? with
  | some (tag, _) => isTag tag
  | none => false

/-- A tagged value must be an expression. -/
def checkTag (v : Value) : Except ExprError Unit :=
  match v.singleEntry? with
  | some (tag, _) => if isTag tag && !t.contains tag then .error (.unknownOperator tag) else .ok ()
  | none => .ok ()

/-- The value must be an expression; a tag without operator is named. -/
def checkExpression (v : Value) : Except ExprError Unit :=
  match v.singleEntry? with
  | some (tag, _) =>
    if t.contains tag then .ok ()
    else if isTag tag then .error (.unknownOperator tag)
    else .error (.notAnExpression v.text)
  | none => .error (.notAnExpression v.text)

mutual
/-- Every tag inside the value has an operator; what is quoted by `$literal` is not looked at. -/
def checkOperators : Value → Except ExprError Unit
  | .map [(tag, operand)] =>
    if tag = "$literal" ∧ t.contains tag then .ok ()
    else if isTag tag && !t.contains tag then .error (.unknownOperator tag)
    else checkOperators operand
  | .map entries => checkOperatorsEntries entries
  | .list items => checkOperatorsItems items
  | _ => .ok ()
/-- Every tag inside the items has an operator. -/
def checkOperatorsItems : List Value → Except ExprError Unit
  | [] => .ok ()
  | v :: rest => do
    checkOperators v
    checkOperatorsItems rest
/-- Every tag inside the values has an operator. -/
def checkOperatorsEntries : List (String × Value) → Except ExprError Unit
  | [] => .ok ()
  | (_, v) :: rest => do
    checkOperators v
    checkOperatorsEntries rest
end

/-! ## 2. Evaluation -/

/-- The items that a reduction makes of the value of its operand. -/
def itemsOf : Value → List Value
  | .list items => items
  | .null => []
  | v => [v]

mutual
/-- The value of an expression on an input; data is its own value. -/
def evaluate : Value → Value → Except ExprError Value
  | .map [(tag, operand)], input =>
    match t.get? tag with
    | none => .ok (.map [(tag, operand)])
    | some (.builtIn (.comparison c)) => do
      let rhs ← evaluate operand input
      return .bool (← c.test input rhs)
    | some (.builtIn .conjunction) =>
      match operand with
      | .list parts => (allTrue parts input).map .bool
      | other => .error (Operator.refuse .conjunction (.expressionsExpected other.kind))
    | some (.builtIn .disjunction) =>
      match operand with
      | .list parts => (anyTrue parts input).map .bool
      | other => .error (Operator.refuse .disjunction (.expressionsExpected other.kind))
    | some (.builtIn .negation) => do
      t.checkTag operand
      let v ← evaluate operand input
      return .bool (!v.isTruthy)
    | some (.builtIn (.access a)) => a.read operand input
    | some (.builtIn .literal) => .ok operand
    | some (.builtIn .conditional) =>
      match operand with
      | .map parts => do
        match Keyed.get? "if" parts with
        | none => .error (Operator.refuse .conditional .conditionMissing)
        | some condition =>
          t.checkTag condition
          let v ← entryValue "if" parts input
          entryValue (if v.isTruthy then "then" else "else") parts input
      | _ => .error (Operator.refuse .conditional .branchesExpected)
    | some (.builtIn .choice) =>
      match operand with
      | .map parts => do
        let subject ←
          if Keyed.contains "value" parts then entryValue "value" parts input else .ok input
        match ← chosenAmong parts subject input with
        | some v => return v
        | none => entryValue "default" parts input
      | _ => .error (Operator.refuse .choice .choiceExpected)
    | some (.builtIn (.reduction r)) =>
      match operand with
      | .list items => r.apply items
      | .null =>
        match input with
        | .list items => r.apply items
        | other => .error (Operator.refuse (.reduction r) (.listInputExpected other.kind))
      | other =>
        if t.isExpression other then do
          let v ← evaluate other input
          r.apply (itemsOf v)
        else .error (Operator.refuse (.reduction r) (.itemsExpected other.kind))
    | some (.custom apply) => apply operand input
  | data, _ => .ok data
termination_by structural x => x
/-- The parts are true, from the first one until one is not. -/
def allTrue : List Value → Value → Except ExprError Bool
  | [], _ => .ok true
  | part :: rest, input => do
    t.checkTag part
    let v ← evaluate part input
    if v.isTruthy then allTrue rest input else return false
termination_by structural x => x
/-- Some part is true, from the first one until one is. -/
def anyTrue : List Value → Value → Except ExprError Bool
  | [], _ => .ok false
  | part :: rest, input => do
    t.checkTag part
    let v ← evaluate part input
    if v.isTruthy then return true else anyTrue rest input
termination_by structural x => x
/-- The value of the part under a key; of none, null. -/
def entryValue (key : String) : List (String × Value) → Value → Except ExprError Value
  | [], _ => .ok .null
  | (k, part) :: rest, input => if k = key then evaluate part input else entryValue key rest input
termination_by structural x => x
/-- The value of the case chosen among those under the key `cases`, if one is. -/
def chosenAmong : List (String × Value) → Value → Value → Except ExprError (Option Value)
  | [], _, _ => .ok none
  | (k, part) :: rest, subject, input =>
    if k = "cases" then
      match part with
      | .list cases => chosen cases subject input
      | _ => .error (Operator.refuse .choice .casesNotAList)
    else chosenAmong rest subject input
termination_by structural x => x
/-- The value of the first case that applies: an expression in its `when` is true of the subject,
or data there equals it.  The `then` is evaluated on the input. -/
def chosen : List Value → Value → Value → Except ExprError (Option Value)
  | [], _, _ => .ok none
  | .map parts :: rest, subject, input => do
    match Keyed.get? "when" parts, Keyed.get? "then" parts with
    | some condition, some _ =>
      let applies ←
        if isTagged condition || t.isExpression condition then do
          t.checkTag condition
          let v ← entryValue "when" parts subject
          pure v.isTruthy
        else pure (subject.looseEq condition)
      if applies then
        let v ← entryValue "then" parts input
        return some v
      else chosen rest subject input
    | _, _ => .error (Operator.refuse .choice .caseIncomplete)
  | _ :: _, _, _ => .error (Operator.refuse .choice .caseIncomplete)
termination_by structural x => x
end

/-- The value of an operand: like that of an expression, but a tag must have an operator. -/
def evaluateOperand (e input : Value) : Except ExprError Value := do
  t.checkTag e
  t.evaluate e input

/-- The value of what must be an expression. -/
def evaluateRequired (e input : Value) : Except ExprError Value := do
  t.checkExpression e
  t.evaluate e input

/-! ## 3. Parts under a key -/

/-- The part under a key is found as entries are found. -/
theorem entryValue_eq (key : String) (parts : List (String × Value)) (input : Value) :
    t.entryValue key parts input =
      match Keyed.get? key parts with
      | some part => t.evaluate part input
      | none => .ok .null := by
  induction parts with
  | nil => rfl
  | cons e rest ih =>
    obtain ⟨k, part⟩ := e
    rw [entryValue, Keyed.get?]
    split
    · rfl
    · exact ih

end OperatorTable

end GraphQuery
