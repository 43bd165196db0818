import DataStream.Event.ChangeEvent
import DataStream.Foundations.Text

/-!
# Filter expressions

`filter.ExpressionFilter`: an expression is cut at every `&&`, each part at every `||`, and what is
left is a comparison of a field with a value. There are no parentheses, and quotes do not protect
the operators. What a comparison says of an event (`createComparisonEvaluator`: regular expressions
and dynamic values) is a parameter.

* `parseExpression_eq`: an expression is a conjunction of disjunctions of comparisons.
-/

namespace DataStream.Filter

open Event Bytes List Text

/-- What a filter says of an event: whether it passes, or an error. -/
abbrev Evaluator := ChangeEvent → Except Bytes Bool

/-- The evaluator of `parseAndExpression`. The first part that fails or is false decides. -/
def conjunction : List Evaluator → Evaluator
  | [], _ => .ok true
  | eval :: evals, e => do if ← eval e then conjunction evals e else pure false

/-- The evaluator of `parseOrExpression`. The first part that fails or is true decides. -/
def disjunction : List Evaluator → Evaluator
  | [], _ => .ok false
  | eval :: evals, e => do if ← eval e then pure true else disjunction evals e

/-- The operators of `parseComparison`, in the order in which they are looked for. -/
def operators : List Bytes :=
  [lit "==", lit "!=", lit ">=", lit "<=", lit ">", lit "<", lit "=~", lit "!~"]

section Parse

variable (createComparisonEvaluator : Bytes → Bytes → Bytes → Except Bytes Evaluator)

/-- `parseComparison`: the first operator of the list that occurs splits the text, where it first
occurs. -/
def parseComparison (expr : Bytes) : Except Bytes Evaluator :=
  match operators.findSome? fun op => (index op expr).map fun place => (op, place) with
  | some (op, place) =>
    createComparisonEvaluator (trimSpace (expr.take place)) op
      (trimSpace (expr.drop (place + op.length)))
  | none => .error (lit "no valid operator found in expression: " ++ expr)

/-- What `parseAndExpression` and `parseOrExpression` share: the parts are parsed from left to
right. -/
def parseParts (word : Bytes) (combine : List Evaluator → Evaluator) (expr : Bytes)
    (parse : ∀ part ∈ split word expr, Except Bytes Evaluator) : Except Bytes Evaluator := do
  return combine (← (split word expr).attach.mapM fun part => parse part.1 part.2)

def parseExpression (expr : Bytes) : Except Bytes Evaluator :=
  if trimSpace expr = [] then .ok fun _ => .ok true
  else if _hand : lit "&&" <:+: trimSpace expr then
    parseParts (lit "&&") conjunction (trimSpace expr)
      fun part _ => parseExpression (trimSpace part)
  else if _hor : lit "||" <:+: trimSpace expr then
    parseParts (lit "||") disjunction (trimSpace expr)
      fun part _ => parseExpression (trimSpace part)
  else parseComparison createComparisonEvaluator (trimSpace expr)
termination_by expr.length
decreasing_by
  · exact infix_trimSpace.length_le.trans_lt <|
      (length_lt_of_mem_split (by decide) _hand ‹_›).trans_le infix_trimSpace.length_le
  · exact infix_trimSpace.length_le.trans_lt <|
      (length_lt_of_mem_split (by decide) _hor ‹_›).trans_le infix_trimSpace.length_le

/-- A part without operators between comparisons. -/
def parseLeaf (text : Bytes) : Except Bytes Evaluator :=
  if trimSpace text = [] then .ok fun _ => .ok true
  else parseComparison createComparisonEvaluator (trimSpace text)

/-- A part without `&&`. -/
def parseClause (text : Bytes) : Except Bytes Evaluator := do
  return disjunction (← (split (lit "||") (trimSpace text)).mapM
    (parseLeaf createComparisonEvaluator))

variable {createComparisonEvaluator} {text : Bytes}

lemma conjunction_singleton (eval : Evaluator) : conjunction [eval] = eval := by
  funext e
  rw [conjunction]
  rcases eval e with err | (_ | _) <;> rfl

lemma disjunction_singleton (eval : Evaluator) : disjunction [eval] = eval := by
  funext e
  rw [disjunction]
  rcases eval e with err | (_ | _) <;> rfl

lemma combine_singleton {combine : List Evaluator → Evaluator} (h : ∀ eval, combine [eval] = eval)
    (parse : Bytes → Except Bytes Evaluator) :
    (do return combine (← [text].mapM parse)) = parse text := by
  rw [mapM_cons, mapM_nil]
  rcases parse text with err | eval
  · rfl
  · exact congrArg _ (h eval)

lemma parseParts_eq {word : Bytes} {combine : List Evaluator → Evaluator}
    {parse : ∀ part ∈ split word text, Except Bytes Evaluator}
    {parse' : Bytes → Except Bytes Evaluator} (h : ∀ part hmem, parse part hmem = parse' part) :
    parseParts word combine text parse = do return combine (← (split word text).mapM parse') := by
  rw [parseParts, mapM_subtype (g := parse') fun part hmem => h part hmem, unattach_attach]

@[simp]
lemma parseLeaf_trimSpace :
    parseLeaf createComparisonEvaluator (trimSpace text) =
      parseLeaf createComparisonEvaluator text := by
  rw [parseLeaf, parseLeaf, trimSpace_trimSpace]

lemma parseExpression_leaf (hand : ¬ lit "&&" <:+: trimSpace text)
    (hor : ¬ lit "||" <:+: trimSpace text) :
    parseExpression createComparisonEvaluator text = parseLeaf createComparisonEvaluator text := by
  rw [parseExpression, parseLeaf]
  split_ifs <;> rfl

/-- The parts of a text without `&&` have neither operator, so they are comparisons. -/
lemma parseExpression_clause (hand : ¬ lit "&&" <:+: trimSpace text) :
    parseExpression createComparisonEvaluator text =
      parseClause createComparisonEvaluator text := by
  rw [parseClause]
  by_cases hor : lit "||" <:+: trimSpace text
  · have hblank : trimSpace text ≠ [] := fun h =>
      absurd (infix_nil.mp (h ▸ hor)) (by decide)
    rw [parseExpression, if_neg hblank, dif_neg hand, dif_pos hor]
    refine parseParts_eq fun part hmem => ?_
    have hpart : trimSpace (trimSpace part) <:+: part := infix_trimSpace.trans infix_trimSpace
    rw [parseExpression_leaf (fun h => hand ((h.trans hpart).trans (infix_of_mem_split hmem)))
      fun h => not_infix_of_mem_split (by decide) hmem (h.trans hpart), parseLeaf_trimSpace]
  · rw [split_eq_singleton hor, combine_singleton disjunction_singleton, parseLeaf_trimSpace,
      parseExpression_leaf hand hor]

/-- **`||` binds tighter than `&&`.** Every expression is cut at every `&&` first and then at every
`||`: it passes an event if every part between two `&&` has a part between two `||` that does. Parts
are parsed and evaluated from left to right, and the first error is returned. -/
theorem parseExpression_eq
    (createComparisonEvaluator : Bytes → Bytes → Bytes → Except Bytes Evaluator) (expr : Bytes) :
    parseExpression createComparisonEvaluator expr = do
      return conjunction (← (split (lit "&&") (trimSpace expr)).mapM
        (parseClause createComparisonEvaluator)) := by
  have hclause : ∀ part, parseClause createComparisonEvaluator (trimSpace part) =
      parseClause createComparisonEvaluator part := fun part => by
    rw [parseClause, parseClause, trimSpace_trimSpace]
  by_cases hand : lit "&&" <:+: trimSpace expr
  · have hblank : trimSpace expr ≠ [] := fun h =>
      absurd (infix_nil.mp (h ▸ hand)) (by decide)
    rw [parseExpression, if_neg hblank, dif_pos hand]
    refine parseParts_eq fun part hmem => ?_
    have hpart : trimSpace (trimSpace part) <:+: part := infix_trimSpace.trans infix_trimSpace
    rw [parseExpression_clause fun h => not_infix_of_mem_split (by decide) hmem (h.trans hpart),
      hclause]
  · rw [split_eq_singleton hand, combine_singleton conjunction_singleton, hclause,
      parseExpression_clause hand]

end Parse

end DataStream.Filter
