import Kiln.Proofs.Coverage.Directives
import Kiln.Proofs.Lexing.Spelling
import Kiln.Proofs.RoundTrip.Detached

/-!
# Reading lines of tokens

The items of a file from a position on, told step by step: a blank is passed, a lexeme
is read as a token, and from the end of a line reading goes on with the line below.
Hence a line of lexemes with a space between them is read as these tokens.
-/

namespace Kiln
namespace File

variable {registry : Registry} {file : File} {p : Position} {cs more : List Char}

/-! ## Items from a position on -/

/-- The items of a file from a position on. -/
def itemsFrom (registry : Registry) (file : File) (p : Position) :
    Except Diagnostic (List Item) :=
  file.readAllFrom (file.itemAt registry) (file.itemAt_advances registry) (file.cursor p)

/-- The items of a file from a line on; there are none below the last line. -/
def itemsOfLine (registry : Registry) (file : File) (index : Nat) :
    Except Diagnostic (List Item) :=
  if index < file.lineCount then file.itemsFrom registry ⟨index, 0⟩ else .ok []

/-- A blank is passed. -/
theorem itemsFrom_blank {c : Char} (hrest : file.rest p = c :: more) (hc : isBlank c = true) :
    file.itemsFrom registry p = file.itemsFrom registry (p.right 1) :=
  piecesFrom_blank hrest hc

/-- From the end of a line reading goes on with the line below. -/
theorem itemsFrom_lineEnd (hrest : file.rest p = []) :
    file.itemsFrom registry p = file.itemsOfLine registry (p.line + 1) :=
  piecesFrom_lineEnd hrest

/-- An empty text has no items. -/
theorem items_ofText_empty (registry : Registry) (name : String) :
    (ofText name "").items registry = .ok [] := by
  have hrest : (ofText name "").rest ⟨0, 0⟩ = [] := rfl
  exact itemsFrom_lineEnd hrest

/-- Where neither a blank nor a comment stands an item is read. -/
theorem itemsFrom_item {c : Char} {item : Item} {stop : Position}
    (hrest : file.rest p = c :: more) (hblank : isBlank c = false)
    (hcomment : commentMark.isPrefixOf (file.rest p) = false)
    (hitem : file.itemAt registry (file.cursor p) = ⟨.ok item, stop⟩) :
    file.itemsFrom registry p = (file.itemsFrom registry stop).map (item :: ·) := by
  have hpiece : file.itemsFrom registry p = _ := piecesFrom_piece hrest hblank hcomment
  rw [hitem] at hpiece
  exact hpiece

/-! ## Lines of tokens -/

/-- From a position on some items are read, up to places, and then those of the line
`below`. -/
def ReadsItems (registry : Registry) (file : File) (p : Position) (items : List Item)
    (below : Nat) : Prop :=
  ∃ found, found.map Item.detach = items.map Item.detach ∧
    file.itemsFrom registry p = (file.itemsOfLine registry below).map (found ++ ·)

theorem readsItems_nil (hrest : file.rest p = []) :
    file.ReadsItems registry p [] (p.line + 1) := by
  refine ⟨[], rfl, ?_⟩
  rw [itemsFrom_lineEnd hrest]
  cases file.itemsOfLine registry (p.line + 1) <;> rfl

/-- Where a lexeme stands at the end of its line or in front of a separator, a token is
read. -/
theorem itemAt_lexeme {kind : Kind} {text : String} (h : IsLexeme kind text)
    (hmore : ∀ c ∈ more.head?, Separates c) (hrest : file.rest p = text.toList ++ more) :
    file.itemAt registry (file.cursor p) =
      ⟨.ok (.token ⟨kind, text, file.stretch p text.toList.length⟩),
        p.right text.toList.length⟩ := by
  obtain ⟨c, cs, htext, -, hhash⟩ := h.exists_cons
  have hhead : (file.cursor p).rest.head? ≠ some '#' := by
    show (file.rest p).head? ≠ some '#'
    rw [hrest, htext, List.cons_append, List.head?_cons]
    simpa using hhash
  rw [itemAt, if_neg hhead, tokenAt_lexeme h hmore hrest]
  rfl

theorem ReadsItems.token {t : Token} {items : List Item} {below : Nat} (ht : t.IsSpelled)
    (hmore : ∀ c ∈ more.head?, isBlank c = true) (hrest : file.rest p = t.text.toList ++ more)
    (h : file.ReadsItems registry (p.right t.text.toList.length) items below) :
    file.ReadsItems registry p (.token t :: items) below := by
  obtain ⟨found, hfound, hitems⟩ := h
  obtain ⟨c, cs, htext, hblank, -⟩ := ht.exists_cons
  have hseparates : ∀ c ∈ more.head?, Separates c := fun c hc => separates_of_isBlank (hmore c hc)
  have hslash : t.text = "/" → more.head? ≠ some '/' := fun _ h => absurd (hmore '/' h) (by decide)
  have hcomment : commentMark.isPrefixOf (file.rest p) = false := by
    rw [hrest]
    exact ht.not_comment hseparates hslash
  have hcons : file.rest p = c :: (cs ++ more) := by rw [hrest, htext, List.cons_append]
  refine ⟨.token ⟨t.kind, t.text, file.stretch p t.text.toList.length⟩ :: found, ?_, ?_⟩
  · rw [List.map_cons, List.map_cons, hfound]
    rfl
  · rw [itemsFrom_item hcons hblank hcomment (itemAt_lexeme ht hseparates hrest), hitems]
    cases file.itemsOfLine registry below <;> rfl

theorem isBlank_of_head? (tokens : List Token) :
    ∀ c ∈ (tokens.flatMap fun t => ' ' :: t.text.toList).head?, isBlank c = true := by
  intro c hc
  cases tokens with
  | nil => cases hc
  | cons t tokens =>
      rw [← Option.mem_some.1 hc]
      decide

theorem readsItems_spaced {tokens : List Token} (h : ∀ t ∈ tokens, t.IsSpelled)
    (hrest : file.rest p = tokens.flatMap fun t => ' ' :: t.text.toList) :
    file.ReadsItems registry p (tokens.map .token) (p.line + 1) := by
  induction tokens generalizing p with
  | nil => exact readsItems_nil hrest
  | cons t tokens ih =>
      rw [List.forall_mem_cons] at h
      rw [List.flatMap_cons, List.cons_append] at hrest
      have hright := rest_right_one hrest
      have htoken : file.ReadsItems registry (p.right 1) (.token t :: tokens.map .token)
          (p.line + 1) :=
        .token h.1 (isBlank_of_head? tokens) hright (ih h.2 (rest_right_of_rest hright))
      obtain ⟨found, hfound, hitems⟩ := htoken
      exact ⟨found, hfound, by rw [itemsFrom_blank hrest (by decide), hitems]⟩

theorem spaced_cons (t : Token) (tokens : List Token) :
    spaced (t :: tokens) = t.text.toList ++ tokens.flatMap fun u => ' ' :: u.text.toList := by
  induction tokens generalizing t with
  | nil => simp [spaced]
  | cons u tokens ih =>
      have hmore := ih u
      rw [spaced, List.map_cons] at hmore
      rw [spaced, List.map_cons, List.map_cons, List.intercalate_cons_cons, hmore,
        List.flatMap_cons]
      simp

/-- A line of lexemes with a space between them is read as these tokens. -/
theorem readsItems_line {t : Token} {tokens : List Token} (h : ∀ u ∈ t :: tokens, u.IsSpelled)
    (hrest : file.rest p = spaced (t :: tokens)) :
    file.ReadsItems registry p ((t :: tokens).map .token) (p.line + 1) := by
  rw [spaced_cons] at hrest
  rw [List.forall_mem_cons] at h
  exact ReadsItems.token h.1 (isBlank_of_head? tokens) hrest
    (readsItems_spaced h.2 (rest_right_of_rest hrest))

end File
end Kiln
