import Kiln.Tree.Build
import Kiln.Tree.Divergence
import Mathlib.Logic.Basic

/-!
# All differences of two trees

Walking two trees side by side goes through a list of comparisons, each of one part of the
expected tree: a token, a text, or the length of a list.  Where the trees have different
shapes, at nodes of different kinds or a child that only one of them has, the walk notes this
and goes on behind it; the elements of lists of different lengths are passed over.

Each comparison that fails has a report of its own, which is written down here once more
(`Comparison.report?`).  These reports are all differences of the trees, and comparing gives the
first of them.  So it depends on no part of the expected tree that comes after the first
difference.
-/

namespace Kiln

/-- A part of an expected tree, compared with what stands in its place. -/
inductive Comparison where
  /-- A token of a kind and with a text is expected. -/
  | token (actual : Token) (kind : Kind) (text : String)
  /-- A text is expected. -/
  | value (actual expected : String) (place : Excerpt)
  /-- A list of a length is expected. -/
  | count (noun : String) (actual expected : Nat) (place : Excerpt)
  /-- A node of another kind is expected. -/
  | otherKind (actual expected : String) (place : Excerpt)
  /-- A node is expected where none is. -/
  | missing (expected : String) (place : Excerpt)
  /-- No node is expected where one is. -/
  | unexpected (actual : String) (place : Excerpt)
  deriving DecidableEq

namespace Comparison

/-- The report of a text that is not the expected one. -/
def valueReport (actual expected : String) (place : Excerpt) : Diagnostic :=
  .error .differentValue ("expected `" ++ expected ++ "`, got `" ++ actual ++ "`") place

/-- The report of a node that is not of the expected kind. -/
def kindReport (actual expected : String) (place : Excerpt) : Diagnostic :=
  .error .differentKind ("expected a `" ++ expected ++ "`, got a `" ++ actual ++ "`") place

/-- The report of a comparison that fails.  A token fails if its kind or its text is another one,
and is reported as a node of another kind if its kind has another name. -/
def report? : Comparison → Option Diagnostic
  | .token actual kind text =>
    if actual.kind = kind ∧ actual.text = text then none
    else if actual.kind.name = kind.name then some (valueReport actual.text text actual.excerpt)
    else some (kindReport actual.kind.name kind.name actual.excerpt)
  | .value actual expected place =>
    if actual = expected then none else some (valueReport actual expected place)
  | .count noun actual expected place =>
    let plural := if expected = 1 then "" else "s"
    if actual = expected then none
    else some (.error .differentCount
      ("expected " ++ toString expected ++ " " ++ noun ++ plural ++ ", got " ++ toString actual)
      place)
  | .otherKind actual expected place => some (kindReport actual expected place)
  | .missing expected place =>
    some (.error .missingChild ("expected `" ++ expected ++ "`, got nothing") place)
  | .unexpected actual place =>
    some (.error .unexpectedChild ("unexpected `" ++ actual ++ "` found") place)

/-- Nodes of different kinds. -/
def ofKinds {α : Type} [Node α] (actual expected : α) : Comparison :=
  .otherKind (Node.kindName actual) (Node.kindName expected) (Node.excerpt actual)

/-- The first report of a list of comparisons. -/
def first? (comparisons : List Comparison) : Option Diagnostic :=
  comparisons.findSome? report?

@[simp] theorem first?_nil : first? [] = none := rfl

@[simp] theorem first?_cons (c : Comparison) (cs : List Comparison) :
    first? (c :: cs) = c.report?.or (first? cs) := by
  rw [first?, List.findSome?_cons]
  cases c.report? <;> rfl

@[simp] theorem first?_append (cs ds : List Comparison) :
    first? (cs ++ ds) = (first? cs).or (first? ds) :=
  List.findSome?_append

/-- Once a comparison fails, those that follow do not matter. -/
theorem first?_eq_of_take_eq {cs ds : List Comparison} {n : Nat} (htake : cs.take n = ds.take n)
    (hfound : first? (cs.take n) ≠ none) : first? cs = first? ds := by
  have hsplit : ∀ es : List Comparison,
      first? es = (first? (es.take n)).or (first? (es.drop n)) := by
    intro es
    rw [← first?_append, List.take_append_drop]
  -- what is found among the first comparisons hides what the others would find
  obtain ⟨d, hd⟩ := Option.ne_none_iff_exists'.1 hfound
  rw [hsplit cs, hsplit ds, ← htake, hd]
  rfl

end Comparison

open Comparison

/-! ## Reports of divergences -/

/-- Kinds are of one category if it has one name. -/
theorem Kind.sameCategory_iff (kind expected : Kind) :
    kind.sameCategory expected = true ↔ kind.name = expected.name := by
  cases kind <;> cases expected <;> simp [sameCategory, name]

/-- A token diverges from the expected one if its kind or its text does. -/
@[simp] theorem report?_token (actual expected : Token) :
    (Comparison.token actual expected.kind expected.text).report? =
      (actual.divergence? expected).map Divergence.report := by
  rw [report?, Token.divergence?]
  by_cases hname : actual.kind.name = expected.kind.name
  · have hcategory := (actual.kind.sameCategory_iff expected.kind).2 hname
    rw [if_pos hname, hcategory, Bool.not_true, if_neg Bool.false_ne_true]
    split <;> rfl
  · have hcategory := mt (actual.kind.sameCategory_iff expected.kind).1 hname
    have hkind : ¬(actual.kind = expected.kind ∧ actual.text = expected.text) :=
      fun h => hname (congrArg Kind.name h.1)
    rw [if_neg hname, if_neg hkind, if_pos (by simpa using hcategory)]
    rfl

@[simp] theorem report?_value (actual expected : String) (place : Excerpt) :
    (Comparison.value actual expected place).report? =
      (if actual = expected then none else some (.value expected actual place)).map
        Divergence.report := by
  rw [report?]
  split <;> rfl

@[simp] theorem report?_count (noun : String) (actual expected : Nat) (place : Excerpt) :
    (Comparison.count noun actual expected place).report? =
      (if actual = expected then none else some (.count noun expected actual place)).map
        Divergence.report := by
  rw [report?]
  split <;> rfl

@[simp] theorem report?_missing (expected : String) (place : Excerpt) :
    (missing expected place).report? = some (Divergence.missing expected place).report := rfl

@[simp] theorem report?_unexpected (actual : String) (place : Excerpt) :
    (unexpected actual place).report? = some (Divergence.unexpected actual place).report := rfl

@[simp] theorem report?_ofKinds {α : Type} [Node α] (actual expected : α) :
    (ofKinds actual expected).report? = some (Divergence.ofKinds actual expected).report := rfl

/-! ## Comparing part by part -/

/-- A kind of node that is compared part by part: the first divergence is that of the first part
which fails, and places of the expected node are no part of it. -/
class Stepwise (α : Type) [Comparable α] where
  /-- The comparisons that two nodes go through, in source order. -/
  comparisons : Anchor → α → α → List Comparison
  /-- The first divergence of two nodes has the first report of their parts. -/
  map_divergence? : ∀ (anchor : Anchor) (actual expected : α),
    (divergence? anchor actual expected).map Divergence.report =
      first? (comparisons anchor actual expected)
  /-- A detached copy of the expected node has the same parts. -/
  comparisons_detach : ∀ (anchor : Anchor) (actual expected : α),
    comparisons anchor actual (Node.detach expected) = comparisons anchor actual expected
  /-- A detached copy is named as the node. -/
  describe_detach : ∀ a : α, Node.describe (Node.detach a) = Node.describe a

export Stepwise (comparisons)

/-- The outcome of a comparison is told by the report. -/
theorem Divergence.outcome_eq (d? : Option Divergence) :
    outcome d? = (d?.map report).elim (.ok ()) .error := by
  cases d? <;> rfl

namespace Stepwise

variable {α : Type} [Comparable α] [Stepwise α]

attribute [simp] comparisons_detach describe_detach

@[simp] theorem first?_comparisons (anchor : Anchor) (actual expected : α) :
    first? (comparisons anchor actual expected) =
      (divergence? anchor actual expected).map Divergence.report :=
  (map_divergence? anchor actual expected).symm

theorem expect_eq_first? (anchor : Anchor) (actual expected : α) :
    expect anchor actual expected =
      (first? (comparisons anchor actual expected)).elim (.ok ()) .error := by
  rw [expect, Divergence.outcome_eq, map_divergence?]

/-- Nodes that are the same up to places are expected alike. -/
theorem expect_congr {expected expected' : α}
    (h : Node.detach expected = Node.detach expected') (anchor : Anchor) (actual : α) :
    expect anchor actual expected = expect anchor actual expected' := by
  rw [expect_eq_first?, expect_eq_first?, ← comparisons_detach, h, comparisons_detach]

/-! ## Children and lists -/

/-- The comparisons of a child that may be absent. -/
def childComparisons (anchor : Anchor) : Option α → Option α → List Comparison
  | some actual, some expected => comparisons anchor actual expected
  | none, none => []
  | none, some expected => [.missing (Node.describe expected) (anchor ())]
  | some actual, none => [.unexpected (Node.describe actual) (Node.excerpt actual)]

/-- The comparisons of a list: its length, and its elements if there are as many as
expected. -/
def listComparisons (anchor : Anchor) (noun : String) (actuals expecteds : List α) :
    List Comparison :=
  let place := if actuals.isEmpty then anchor () else .union (Node.excerpts actuals)
  .count noun actuals.length expecteds.length place ::
    if actuals.length = expecteds.length then
      (List.zipWith (comparisons anchor) actuals expecteds).flatten
    else []

@[simp] theorem first?_childComparisons (anchor : Anchor) (actual expected : Option α) :
    first? (childComparisons anchor actual expected) =
      (childDivergence? anchor actual expected).map Divergence.report := by
  cases actual <;> cases expected <;> simp [childComparisons, childDivergence?]

theorem first?_zipWith (anchor : Anchor) (actuals expecteds : List α) :
    first? (List.zipWith (comparisons anchor) actuals expecteds).flatten =
      (elementDivergence? anchor actuals expecteds).map Divergence.report := by
  induction actuals generalizing expecteds with
  | nil => rfl
  | cons actual actuals ih =>
      cases expecteds with
      | nil => rfl
      | cons expected expecteds => simp [elementDivergence?, ih, Option.map_or]

@[simp] theorem first?_listComparisons (anchor : Anchor) (noun : String)
    (actuals expecteds : List α) :
    first? (listComparisons anchor noun actuals expecteds) =
      (listDivergence? anchor noun actuals expecteds).map Divergence.report := by
  by_cases hlength : actuals.length = expecteds.length
  · simp [listComparisons, listDivergence?, hlength, first?_zipWith]
  · simp [listComparisons, listDivergence?, hlength]

@[simp] theorem childComparisons_detach (anchor : Anchor) (actual expected : Option α) :
    childComparisons anchor actual (expected.map Node.detach) =
      childComparisons anchor actual expected := by
  cases actual <;> cases expected <;> simp [childComparisons]

@[simp] theorem listComparisons_detachAll (anchor : Anchor) (noun : String)
    (actuals expecteds : List α) :
    listComparisons anchor noun actuals (Node.detachAll expecteds) =
      listComparisons anchor noun actuals expecteds := by
  simp [listComparisons, Node.detachAll, List.zipWith_map_right]

end Stepwise

open Stepwise

/-! ## Tokens and expressions -/

instance : Stepwise Token where
  comparisons _ actual expected := [.token actual expected.kind expected.text]
  map_divergence? _ actual expected := by
    show (actual.divergence? expected).map Divergence.report = _
    simp
  comparisons_detach _ _ _ := rfl
  describe_detach _ := rfl

/-- The comparisons of an expression: left operand, operator, right operand. -/
def Expression.comparisons : Expression → Expression → List Comparison
  | .leaf actual, .leaf expected => [.token actual expected.kind expected.text]
  | .binary left operator right, .binary left' operator' right' =>
    left.comparisons left' ++ .token operator operator'.kind operator'.text ::
      right.comparisons right'
  | actual, expected => [.ofKinds actual expected]

theorem Expression.map_divergence? (actual expected : Expression) :
    (actual.divergence? expected).map Divergence.report = first? (actual.comparisons expected) := by
  induction actual generalizing expected with
  | leaf t =>
      cases expected with
      | leaf u => simp [Expression.divergence?, Expression.comparisons]
      | binary left operator right => simp [Expression.divergence?, Expression.comparisons]
  | binary left operator right ihl ihr =>
      cases expected with
      | leaf u => simp [Expression.divergence?, Expression.comparisons]
      | binary left' operator' right' =>
          simp [Expression.divergence?, Expression.comparisons, Option.map_or, ihl, ihr]

theorem Expression.comparisons_detach (actual expected : Expression) :
    actual.comparisons expected.detach = actual.comparisons expected := by
  induction actual generalizing expected with
  | leaf t =>
      cases expected with
      | leaf u => rfl
      | binary left operator right => rfl
  | binary left operator right ihl ihr =>
      cases expected with
      | leaf u => rfl
      | binary left' operator' right' =>
          simp [Expression.detach, Expression.comparisons, ihl, ihr, Token.detach, Token.ofText]

instance : Stepwise Expression where
  comparisons _ := Expression.comparisons
  map_divergence? _ := Expression.map_divergence?
  comparisons_detach _ := Expression.comparisons_detach
  describe_detach e := by cases e <;> rfl

/-! ## Types and lists -/

instance : Stepwise TypeName where
  comparisons _ actual expected :=
    listComparisons (Node.anchor actual) "pointer" actual.stars expected.stars ++
      comparisons (Node.anchor actual) actual.base expected.base
  map_divergence? _ actual expected := by
    show (listDivergence? (Node.anchor actual) "pointer" actual.stars expected.stars <|>
      divergence? (Node.anchor actual) actual.base expected.base).map Divergence.report = _
    simp [Option.map_or]
  comparisons_detach _ actual expected :=
    congrArg₂ (· ++ ·) (listComparisons_detachAll _ _ actual.stars expected.stars)
      (comparisons_detach _ actual.base expected.base)
  describe_detach _ := rfl

instance : Stepwise Argument where
  comparisons _ actual expected :=
    comparisons (Node.anchor actual) actual.name expected.name ++
      (comparisons (Node.anchor actual) actual.type expected.type ++
        childComparisons (Node.anchor actual) actual.comma expected.comma)
  map_divergence? _ actual expected := by
    show (divergence? (Node.anchor actual) actual.name expected.name <|>
      divergence? (Node.anchor actual) actual.type expected.type <|>
      childDivergence? (Node.anchor actual) actual.comma expected.comma).map Divergence.report = _
    simp [Option.map_or]
  comparisons_detach _ actual expected :=
    congrArg₂ (· ++ ·) (comparisons_detach _ actual.name expected.name)
      (congrArg₂ (· ++ ·) (comparisons_detach _ actual.type expected.type)
        (childComparisons_detach _ actual.comma expected.comma))
  describe_detach _ := rfl

instance : Stepwise ReturnType where
  comparisons _ actual expected :=
    comparisons (Node.anchor actual) actual.type expected.type ++
      childComparisons (Node.anchor actual) actual.comma expected.comma
  map_divergence? _ actual expected := by
    show (divergence? (Node.anchor actual) actual.type expected.type <|>
      childDivergence? (Node.anchor actual) actual.comma expected.comma).map Divergence.report = _
    simp [Option.map_or]
  comparisons_detach _ actual expected :=
    congrArg₂ (· ++ ·) (comparisons_detach _ actual.type expected.type)
      (childComparisons_detach _ actual.comma expected.comma)
  describe_detach _ := rfl

instance : Stepwise ReturnTypes where
  comparisons _ actual expected :=
    listComparisons (Node.anchor actual) "return type" actual.types expected.types
  map_divergence? _ actual expected :=
    (first?_listComparisons _ _ actual.types expected.types).symm
  comparisons_detach _ actual expected :=
    listComparisons_detachAll _ _ actual.types expected.types
  describe_detach _ := rfl

instance : Stepwise ListedValue where
  comparisons _ actual expected :=
    comparisons (Node.anchor actual) actual.expression expected.expression ++
      childComparisons (Node.anchor actual) actual.comma expected.comma
  map_divergence? _ actual expected := by
    show (divergence? (Node.anchor actual) actual.expression expected.expression <|>
      childDivergence? (Node.anchor actual) actual.comma expected.comma).map Divergence.report = _
    simp [Option.map_or]
  comparisons_detach _ actual expected :=
    congrArg₂ (· ++ ·) (comparisons_detach _ actual.expression expected.expression)
      (childComparisons_detach _ actual.comma expected.comma)
  describe_detach _ := rfl

instance : Stepwise ValueList where
  comparisons anchor actual expected :=
    listComparisons anchor "expression" actual.values expected.values
  map_divergence? _ actual expected :=
    (first?_listComparisons _ _ actual.values expected.values).symm
  comparisons_detach _ actual expected :=
    listComparisons_detachAll _ _ actual.values expected.values
  describe_detach _ := rfl

/-! ## Functions -/

instance : Stepwise ReturnStatement where
  comparisons _ actual expected :=
    comparisons (Node.anchor actual) actual.values expected.values
  map_divergence? _ actual expected :=
    map_divergence? (Node.anchor actual) actual.values expected.values
  comparisons_detach _ actual expected :=
    comparisons_detach (Node.anchor actual) actual.values expected.values
  describe_detach _ := rfl

instance : Stepwise FunctionDecl where
  comparisons _ actual expected :=
    comparisons (Node.anchor actual) actual.name expected.name ++
      (listComparisons (Node.anchor actual) "argument" actual.arguments expected.arguments ++
        (childComparisons (Node.anchor actual) actual.returns expected.returns ++
          listComparisons (Node.anchor actual) "statement" actual.statements
            expected.statements))
  map_divergence? _ actual expected := by
    show (divergence? (Node.anchor actual) actual.name expected.name <|>
      listDivergence? (Node.anchor actual) "argument" actual.arguments expected.arguments <|>
      childDivergence? (Node.anchor actual) actual.returns expected.returns <|>
      listDivergence? (Node.anchor actual) "statement" actual.statements
        expected.statements).map Divergence.report = _
    simp [Option.map_or]
  comparisons_detach _ actual expected :=
    congrArg₂ (· ++ ·) (comparisons_detach _ actual.name expected.name)
      (congrArg₂ (· ++ ·) (listComparisons_detachAll _ _ actual.arguments expected.arguments)
        (congrArg₂ (· ++ ·) (childComparisons_detach _ actual.returns expected.returns)
          (listComparisons_detachAll _ _ actual.statements expected.statements)))
  describe_detach _ := rfl

/-! ## Directives -/

instance : Stepwise DirectiveHead where
  comparisons anchor actual expected := comparisons anchor actual.name expected.name
  map_divergence? anchor actual expected :=
    map_divergence? anchor actual.name expected.name
  comparisons_detach anchor actual expected :=
    comparisons_detach anchor actual.name expected.name
  describe_detach _ := rfl

theorem PathQuote.opener_inj {q r : PathQuote} : q.opener = r.opener ↔ q = r := by
  cases q <;> cases r <;> decide

instance : Stepwise Inclusion where
  comparisons _ actual expected :=
    comparisons (Node.anchor actual) actual.head expected.head ++
      .value actual.quote.opener.toString expected.quote.opener.toString actual.opener.excerpt ::
        comparisons (Node.anchor actual) actual.path expected.path
  map_divergence? _ actual expected := by
    show (divergence? (Node.anchor actual) actual.head expected.head <|>
      (if actual.quote = expected.quote then none
        else
          some (Divergence.value expected.quote.opener.toString actual.quote.opener.toString
            actual.opener.excerpt)) <|>
      divergence? (Node.anchor actual) actual.path expected.path).map Divergence.report = _
    simp [Option.map_or, PathQuote.opener_inj]
  comparisons_detach _ actual expected :=
    congrArg₂ (· ++ ·) (comparisons_detach _ actual.head expected.head)
      (congrArg (_ :: ·) (comparisons_detach _ actual.path expected.path))
  describe_detach _ := rfl

instance : Stepwise BlockBody where
  comparisons _ actual expected :=
    [Comparison.value actual.text expected.text actual.excerpt]
  map_divergence? _ actual expected := by
    show (if actual.text = expected.text then none
      else some (Divergence.value expected.text actual.text actual.excerpt)).map
        Divergence.report = _
    simp
  comparisons_detach _ _ _ := rfl
  describe_detach _ := rfl

instance : Stepwise InlineBlock where
  comparisons _ actual expected :=
    comparisons (Node.anchor actual) actual.head expected.head ++
      (comparisons (Node.anchor actual) actual.tag expected.tag ++
        childComparisons (Node.anchor actual) actual.body expected.body)
  map_divergence? _ actual expected := by
    show (divergence? (Node.anchor actual) actual.head expected.head <|>
      divergence? (Node.anchor actual) actual.tag expected.tag <|>
      childDivergence? (Node.anchor actual) actual.body expected.body).map Divergence.report = _
    simp [Option.map_or]
  comparisons_detach _ actual expected :=
    congrArg₂ (· ++ ·) (comparisons_detach _ actual.head expected.head)
      (congrArg₂ (· ++ ·) (comparisons_detach _ actual.tag expected.tag)
        (childComparisons_detach _ actual.body expected.body))
  describe_detach _ := rfl

/-! ## Declarations and documents -/

instance : Stepwise Directive where
  comparisons anchor
    | .inclusion actual, .inclusion expected => comparisons anchor actual expected
    | .inlineBlock actual, .inlineBlock expected => comparisons anchor actual expected
    | actual, expected => [.ofKinds actual expected]
  map_divergence? anchor
    | .inclusion actual, .inclusion expected => map_divergence? anchor actual expected
    | .inlineBlock actual, .inlineBlock expected => map_divergence? anchor actual expected
    | .inclusion _, .inlineBlock _ => rfl
    | .inlineBlock _, .inclusion _ => rfl
  comparisons_detach anchor
    | .inclusion actual, .inclusion expected => comparisons_detach anchor actual expected
    | .inlineBlock actual, .inlineBlock expected => comparisons_detach anchor actual expected
    | .inclusion _, .inlineBlock _ => rfl
    | .inlineBlock _, .inclusion _ => rfl
  describe_detach d := by cases d <;> rfl

instance : Stepwise Declaration where
  comparisons anchor
    | .function actual, .function expected => comparisons anchor actual expected
    | .directive actual, .directive expected => comparisons anchor actual expected
    | actual, expected => [.ofKinds actual expected]
  map_divergence? anchor
    | .function actual, .function expected => map_divergence? anchor actual expected
    | .directive actual, .directive expected => map_divergence? anchor actual expected
    | .function _, .directive _ => rfl
    | .directive _, .function _ => rfl
  comparisons_detach anchor
    | .function actual, .function expected => comparisons_detach anchor actual expected
    | .directive actual, .directive expected => comparisons_detach anchor actual expected
    | .function _, .directive (.inclusion _) => rfl
    | .function _, .directive (.inlineBlock _) => rfl
    | .directive _, .function _ => rfl
  describe_detach
    | .function _ => rfl
    | .directive (.inclusion _) => rfl
    | .directive (.inlineBlock _) => rfl

instance : Stepwise Document where
  comparisons anchor actual expected :=
    listComparisons anchor "declaration" actual.declarations expected.declarations
  map_divergence? _ actual expected :=
    (first?_listComparisons _ _ actual.declarations expected.declarations).symm
  comparisons_detach _ actual expected :=
    listComparisons_detachAll _ _ actual.declarations expected.declarations
  describe_detach _ := rfl

/-! ## The first difference -/

/-- All differences of two nodes in source order, as they are reported. -/
def differences {α : Type} [Comparable α] [Stepwise α] (anchor : Anchor) (actual expected : α) :
    List Diagnostic :=
  (comparisons anchor actual expected).filterMap report?

theorem expect_eq_head?_differences {α : Type} [Comparable α] [Stepwise α] (anchor : Anchor)
    (actual expected : α) :
    expect anchor actual expected =
      (differences anchor actual expected).head?.elim (.ok ()) .error := by
  rw [differences, List.head?_filterMap, expect_eq_first?, first?]

/-- Wherever a document lacks something is reported, comparing it with an expected one succeeds
exactly if there is no difference, and gives the report of the first difference otherwise.  So
another document of which the same parts are expected, up to one with a difference, gives the same
report. -/
theorem Document.first_difference (anchor : Anchor) (actual expected : Document) :
    (Kiln.expect anchor actual expected = .ok () ↔ differences anchor actual expected = []) ∧
    (∀ first rest, differences anchor actual expected = first :: rest →
      Kiln.expect anchor actual expected = .error first) ∧
    ∀ (expected' : Document) (n : Nat),
      (comparisons anchor actual expected').take n = (comparisons anchor actual expected).take n →
      (∃ c ∈ (comparisons anchor actual expected).take n, c.report? ≠ none) →
      Kiln.expect anchor actual expected' = Kiln.expect anchor actual expected := by
  refine ⟨?_, ?_, ?_⟩
  · rw [expect_eq_head?_differences]
    cases differences anchor actual expected <;> simp
  · intro first rest h
    rw [expect_eq_head?_differences, h]
    rfl
  · rintro expected' n htake ⟨c, hc, hfound⟩
    have hfirst : first? ((comparisons anchor actual expected).take n) ≠ none := by
      intro hnone
      exact hfound (List.findSome?_eq_none_iff.1 hnone c hc)
    rw [expect_eq_first?, expect_eq_first?, first?_eq_of_take_eq htake.symm hfirst]

/-- A document with one function, which returns an expression. -/
def returningDocument (e : Expression) : Document :=
  ⟨[Build.function "f" [] none [Build.returning [e] false]]⟩

/-- Of `a + y` in the place of `x - y` both the left operand and the operator differ, and the
left operand is reported; the right operand does not matter. -/
theorem Document.first_difference_operand :
    let actual := returningDocument (Build.binary (Build.operand "x") .minus (Build.operand "y"))
    let expected := returningDocument (Build.binary (Build.operand "a") .plus (Build.operand "y"))
    let expected' := returningDocument (Build.binary (Build.operand "a") .plus (Build.operand "z"))
    let first := Diagnostic.error .differentValue "expected `a`, got `x`" .detached
    let second := Diagnostic.error .differentValue "expected `+`, got `-`" .detached
    differences (fun _ => .detached) actual expected = [first, second] ∧
      Kiln.expect (fun _ => .detached) actual expected = .error first ∧
      Kiln.expect (fun _ => .detached) actual expected' = .error first := by
  intro actual expected expected' first second
  have hdifferences : differences (fun _ => .detached) actual expected = [first, second] := rfl
  obtain ⟨-, hfirst, hlater⟩ := Document.first_difference (fun _ => .detached) actual expected
  have hoperand : Comparison.token (Build.identifier "x") .identifier "a" ∈
      (comparisons (fun _ => .detached) actual expected).take 7 :=
    List.mem_of_getElem? (i := 5) rfl
  have hsame := hlater expected' 7 rfl ⟨_, hoperand, by decide⟩
  exact ⟨hdifferences, hfirst _ _ hdifferences, hsame.trans (hfirst _ _ hdifferences)⟩

end Kiln
