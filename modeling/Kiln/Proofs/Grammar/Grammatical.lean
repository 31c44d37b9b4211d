import Kiln.Grammar.Expression

/-!
# Grammatical trees

A tree can hold any tokens in its places; it is *grammatical* if every token is of
the kind that its place asks for, commas stand where the grammar has them, and
operators are nested by how tightly they bind.

Nothing here speaks of a parser: the predicates follow the tree alone.
-/

namespace Kiln

/-! ## Lists with commas -/

/-- The commas behind the elements of a list: one behind every element but the
last, and behind the last one only where a trailing comma is allowed. -/
structure CommasFit (trailing : Bool) (commas : List (Option Token)) : Prop where
  between : ∀ comma ∈ commas.dropLast, ∃ t ∈ comma, t.isPunctuation .comma
  last : ∀ comma ∈ commas.getLast?, ∀ t ∈ comma, trailing ∧ t.isPunctuation .comma

theorem commasFit_nil (trailing : Bool) : CommasFit trailing [] :=
  ⟨by simp, by simp⟩

theorem commasFit_singleton {trailing : Bool} {comma : Option Token} :
    CommasFit trailing [comma] ↔
      ∀ t ∈ comma, trailing ∧ t.isPunctuation .comma := by
  constructor
  · intro h
    exact h.last comma (by simp)
  · intro h
    refine ⟨by simp, ?_⟩
    intro last hlast
    rw [List.getLast?_singleton, Option.mem_some_iff] at hlast
    exact hlast ▸ h

theorem commasFit_cons_cons {trailing : Bool} {comma next : Option Token}
    {more : List (Option Token)} :
    CommasFit trailing (comma :: next :: more) ↔
      (∃ t ∈ comma, t.isPunctuation .comma) ∧ CommasFit trailing (next :: more) := by
  have hlast : (comma :: next :: more).getLast? = (next :: more).getLast? := by
    simp [List.getLast?_cons]
  constructor
  · intro h
    refine ⟨h.between comma (by simp), ?_, ?_⟩
    · intro c hc
      exact h.between c (by simp [hc])
    · intro c hc
      exact h.last c (hlast ▸ hc)
  · rintro ⟨hcomma, h⟩
    constructor
    · intro c hc
      rw [List.dropLast_cons_cons, List.mem_cons] at hc
      rcases hc with rfl | hc
      · exact hcomma
      · exact h.between c hc
    · intro c hc
      exact h.last c (hlast ▸ hc)

/-- Commas fit all the more where a trailing one is allowed. -/
theorem CommasFit.mono {trailing : Bool} {commas : List (Option Token)}
    (h : CommasFit trailing commas) : CommasFit true commas :=
  ⟨h.between, fun comma hcomma t ht => ⟨rfl, (h.last comma hcomma t ht).2⟩⟩

/-- Where commas are in place, all of them are commas. -/
theorem CommasFit.isPunctuation {trailing : Bool} {commas : List (Option Token)}
    (h : CommasFit trailing commas) {comma : Option Token} (hmem : comma ∈ commas) {t : Token}
    (ht : t ∈ comma) : t.isPunctuation .comma := by
  have hlast := h.last
  have hbetween := h.between
  rcases List.eq_nil_or_concat commas with rfl | ⟨front, last, rfl⟩
  · cases hmem
  · rw [List.concat_eq_append] at hmem hlast hbetween
    rw [List.dropLast_concat] at hbetween
    rw [List.mem_append, List.mem_singleton] at hmem
    rcases hmem with hmem | rfl
    · obtain ⟨t', ht', hcomma⟩ := hbetween comma hmem
      rw [Option.mem_unique ht ht']
      exact hcomma
    · exact (hlast comma (by simp) t ht).2

/-! ## Types and arguments -/

/-- Stars and an identifier. -/
structure TypeName.Grammatical (type : TypeName) : Prop where
  stars : ∀ star ∈ type.stars, star.isStar
  base : type.base.isIdentifier

/-- An identifier and a type. -/
structure Argument.Grammatical (a : Argument) : Prop where
  name : a.name.isIdentifier
  type : a.type.Grammatical

/-- Types in parentheses, with commas between them. -/
structure ReturnTypes.Grammatical (r : ReturnTypes) : Prop where
  opener : r.opener.isPunctuation .leftParen
  types : ∀ listed ∈ r.types, listed.type.Grammatical
  commas : CommasFit false (r.types.map ReturnType.comma)
  closer : r.closer.isPunctuation .rightParen

/-! ## Expressions -/

/-- How tightly the outermost operator of an expression binds, if it has one that
binds two operands. -/
def Expression.precedence? : Expression → Option Nat
  | .leaf _ => none
  | .binary _ operator _ => operator.kind.precedence?

/-- Whether an expression holds together against operators that bind less tightly
than `minimum`: it is an operand, or its outermost operator binds that tightly. -/
def Expression.BindsFrom (minimum : Nat) (e : Expression) : Prop :=
  ∀ precedence ∈ e.precedence?, minimum ≤ precedence

/-- Operands are identifiers and literals.  An operator binds its operands less
tightly than they hold together, the left one being allowed to tie. -/
def Expression.Grammatical : Expression → Prop
  | .leaf token => token.isOperand
  | .binary left operator right =>
    left.Grammatical ∧ right.Grammatical ∧
      ∃ precedence, operator.kind.precedence? = some precedence ∧
        left.BindsFrom precedence ∧ right.BindsFrom (precedence + 1)

/-! ## Statements, functions and documents -/

/-- The keyword `return` and expressions with commas between them; the last one may
have a comma, too. -/
structure ReturnStatement.Grammatical (s : ReturnStatement) : Prop where
  keyword : s.keyword.isKeyword .yield
  values : ∀ listed ∈ s.values.values, listed.expression.Grammatical
  commas : CommasFit true (s.values.values.map ListedValue.comma)

/-- A function with all its marks in place. -/
structure FunctionDecl.Grammatical (f : FunctionDecl) : Prop where
  keyword : f.keyword.isKeyword .function
  name : f.name.isIdentifier
  openParen : f.openParen.isPunctuation .leftParen
  arguments : ∀ a ∈ f.arguments, a.Grammatical
  argumentCommas : CommasFit false (f.arguments.map Argument.comma)
  closeParen : f.closeParen.isPunctuation .rightParen
  returns : ∀ types ∈ f.returns, types.Grammatical
  openBrace : f.openBrace.isPunctuation .leftBrace
  statements : ∀ s ∈ f.statements, s.Grammatical
  closeBrace : f.closeBrace.isPunctuation .rightBrace

/-- A grammatical function, or any directive. -/
def Declaration.Grammatical : Declaration → Prop
  | .function f => f.Grammatical
  | .directive _ => True

/-- Grammatical declarations in any order. -/
def Document.Grammatical (d : Document) : Prop :=
  ∀ declaration ∈ d.declarations, declaration.Grammatical

/-! ## Operators that join operands

A star is an operator, too, but in a type it joins nothing.  A *marked* list of
tokens says of each whether it joins two operands where it stands. -/

/-- Tokens none of which joins two operands. -/
def unmarked (tokens : List Token) : List (Token × Bool) := tokens.map (·, false)

/-- The tokens of an expression in source order; its operators join operands. -/
def Expression.marked : Expression → List (Token × Bool)
  | .leaf token => [(token, false)]
  | .binary left operator right => left.marked ++ (operator, true) :: right.marked

/-- The tokens of a listed expression. -/
def ListedValue.marked (v : ListedValue) : List (Token × Bool) :=
  v.expression.marked ++ unmarked v.comma.toList

/-- The tokens of a statement. -/
def ReturnStatement.marked (s : ReturnStatement) : List (Token × Bool) :=
  (s.keyword, false) :: s.values.values.flatMap ListedValue.marked

/-- The tokens of a function up to its opening brace. -/
def FunctionDecl.headTokens (f : FunctionDecl) : List Token :=
  [f.keyword, f.name, f.openParen] ++ f.arguments.flatMap Argument.tokens ++ [f.closeParen] ++
    f.returns.toList.flatMap ReturnTypes.tokens ++ [f.openBrace]

/-- The tokens of a function.  Only its statements have operators that join
operands. -/
def FunctionDecl.marked (f : FunctionDecl) : List (Token × Bool) :=
  unmarked f.headTokens ++ f.statements.flatMap ReturnStatement.marked ++
    [(f.closeBrace, false)]

/-- The items of marked tokens. -/
def itemsOf (marked : List (Token × Bool)) : List Item := marked.map fun m => .token m.1

/-- The items of a declaration, each with whether it joins two operands. -/
def Declaration.marked : Declaration → List (Item × Bool)
  | .function f => f.marked.map fun m => (.token m.1, m.2)
  | .directive d => [(.directive d, false)]

/-- The items of a document, each with whether it joins two operands. -/
def Document.marked (d : Document) : List (Item × Bool) :=
  d.declarations.flatMap Declaration.marked

@[simp] theorem unmarked_nil : unmarked [] = [] := rfl

@[simp] theorem unmarked_cons (t : Token) (ts : List Token) :
    unmarked (t :: ts) = (t, false) :: unmarked ts := rfl

@[simp] theorem unmarked_append (ts us : List Token) :
    unmarked (ts ++ us) = unmarked ts ++ unmarked us :=
  List.map_append

theorem unmarked_flatMap {α : Type} (tokens : α → List Token) (as : List α) :
    unmarked (as.flatMap tokens) = as.flatMap fun a => unmarked (tokens a) :=
  List.map_flatMap

@[simp] theorem itemsOf_nil : itemsOf [] = [] := rfl

@[simp] theorem itemsOf_cons (m : Token × Bool) (ms : List (Token × Bool)) :
    itemsOf (m :: ms) = .token m.1 :: itemsOf ms := rfl

@[simp] theorem itemsOf_append (ms ns : List (Token × Bool)) :
    itemsOf (ms ++ ns) = itemsOf ms ++ itemsOf ns :=
  List.map_append

@[simp] theorem itemsOf_unmarked (tokens : List Token) :
    itemsOf (unmarked tokens) = tokens.map .token := by
  simp [itemsOf, unmarked]

theorem itemsOf_flatMap {α : Type} (marked : α → List (Token × Bool)) (as : List α) :
    itemsOf (as.flatMap marked) = as.flatMap fun a => itemsOf (marked a) :=
  List.map_flatMap

theorem Expression.itemsOf_marked (e : Expression) : itemsOf e.marked = e.tokens.map .token := by
  induction e with
  | leaf token => rfl
  | binary left operator right ihl ihr => simp [marked, ihl, ihr]

theorem ListedValue.itemsOf_marked (v : ListedValue) :
    itemsOf v.marked = v.tokens.map .token := by
  simp [marked, tokens, Expression.itemsOf_marked]

theorem ReturnStatement.itemsOf_marked (s : ReturnStatement) :
    itemsOf s.marked = s.tokens.map .token := by
  simp [marked, tokens, ValueList.tokens, itemsOf_flatMap, ListedValue.itemsOf_marked,
    List.map_flatMap]

theorem FunctionDecl.itemsOf_marked (f : FunctionDecl) :
    itemsOf f.marked = f.tokens.map .token := by
  simp [marked, tokens, headTokens, itemsOf_flatMap, ReturnStatement.itemsOf_marked,
    List.map_flatMap]

/-- Without its marks the list is that of the declaration's items. -/
theorem Declaration.map_fst_marked (d : Declaration) : d.marked.map Prod.fst = d.items := by
  cases d with
  | function f =>
      rw [marked, items, ← f.itemsOf_marked, List.map_map]
      rfl
  | directive d => rfl

/-- Without its marks the list is that of the document's items. -/
theorem Document.map_fst_marked (d : Document) : d.marked.map Prod.fst = d.items := by
  simp [marked, items, List.map_flatMap, Declaration.map_fst_marked]

end Kiln
