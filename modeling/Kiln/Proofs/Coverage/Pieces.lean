import Kiln.Proofs.Coverage.Directives

/-!
# Items as pieces of a file

An item is read from one position to another.  Its stretches lie between the two in
source order, and account for every code point in between; a directive has its lines
to itself.
-/

namespace Kiln

/-! ## What an item covers -/

/-- The tokens of a directive. -/
def Directive.tokens : Directive → List Token
  | .inclusion i => [i.head.hash, i.head.name, i.opener, i.path, i.closer]
  | .inlineBlock b => [b.head.hash, b.head.name, b.tag]

namespace Item

/-- The tokens of an item. -/
def tokens : Item → List Token
  | .token t => [t]
  | .directive d => d.tokens

/-- The stretches of an item. -/
def stretches (item : Item) : List Stretch := item.excerpt.stretches

/-- Whether an item is a directive. -/
def isDirective : Item → Bool
  | .token _ => false
  | .directive _ => true

/-- Whether a stretch is that of a body line without code points in an inline block. -/
def HasEmptyBodyLine (file : File) (item : Item) (r : Stretch) : Prop :=
  ∃ b body, item = .directive (.inlineBlock b) ∧ b.body = some body ∧
    r ∈ body.excerpt.stretches ∧ (file.line r.line).length = 0

/-- An item of a file: its tokens are slices of lines, and its stretches come in source
order and are not empty but for empty lines in a body. -/
structure Placed (file : File) (item : Item) : Prop where
  located : item.excerpt.Located file
  slices : ∀ t ∈ item.tokens, t.IsSlice file
  filled : ∀ r ∈ item.stretches, r.start < r.stop ∨ item.HasEmptyBodyLine file r

/-- An item that is read from `p` to `q`. -/
structure ReadFrom (file : File) (item : Item) (p q : Position) : Prop where
  placed : item.Placed file
  inside : ∀ r ∈ item.stretches, p ≤ r.first ∧ r.last ≤ q
  accounted : Accounted file item.stretches p q
  forward : p < q
  sameLine : item.isDirective = false → p.line = q.line
  alone : item.isDirective = true → file.onlyBlanksBefore p = true ∧
    (file.atLineEnd q = true ∨ file.startsWith q commentMark = true)

end Item

/-! ## Stretches one after another on a line -/

theorem Stretch.at_before_at {p q : Position} {m n : Nat} (hline : p.line = q.line)
    (hpos : 0 < m) (hle : p.column + m ≤ q.column) : (Stretch.at p m).Before (.at q n) := by
  refine Or.inr ⟨hline, ?_, hle⟩
  show p.column < q.column
  omega

theorem accounted_at {file : File} {rs : List Stretch} {p : Position} {count : Nat}
    (h : .at p count ∈ rs) : Accounted file rs p (p.right count) :=
  accounted_of_mem h (Nat.le_add_right _ _)

theorem Position.le_right (p : Position) (count : Nat) : p ≤ p.right count :=
  Or.inr ⟨rfl, Nat.le_add_right _ _⟩

theorem File.le_skipBlanksInLine (file : File) (p : Position) : p ≤ file.skipBlanksInLine p :=
  p.le_right _

namespace File

variable {file : File}

/-! ## Tokens -/

theorem readFrom_tokenAt (hfile : file.Numbered) {c : Cursor file} {t : Token}
    (hline : c.position.line ≤ file.lastIndex) (h : (file.tokenAt c).outcome = .ok t) :
    Item.ReadFrom file (.token t) c.position (file.tokenAt c).stop := by
  obtain ⟨kind, count, hpos, hle, rfl, hstop⟩ := tokenAt_eq_ok h
  have hstretches : Item.stretches (.token ⟨kind, file.textAt c.position count,
      file.stretch c.position count⟩) = [.at c.position count] :=
    stretches_stretch hfile hline count
  rw [hstop]
  refine ⟨⟨located_stretch hfile hline count, ?_, ?_⟩, ?_, ?_, ?_, fun _ => rfl, by simp [Item.isDirective]⟩
  · simp only [Item.tokens, List.mem_singleton, forall_eq]
    exact isSlice_stretch kind hline hpos hle
  · rw [hstretches]
    simp only [List.mem_singleton, forall_eq]
    exact Or.inl (Nat.lt_add_of_pos_right hpos)
  · rw [hstretches]
    simp only [List.mem_singleton, forall_eq]
    exact ⟨Position.le_refl _, Position.le_refl _⟩
  · rw [hstretches]
    exact accounted_at (List.mem_singleton_self _)
  · exact Or.inr ⟨rfl, Nat.lt_add_of_pos_right hpos⟩

/-! ## Heads -/

theorem excerpt_headAt (hfile : file.Numbered) {p : Position} (hline : p.line ≤ file.lastIndex)
    (count : Nat) :
    (Node.excerpt (file.headAt p count)).Located file ∧
      (Node.excerpt (file.headAt p count)).stretches = [.at p 1, .at (p.right 1) count] := by
  have hhash := stretches_stretch hfile hline 1
  have hname := stretches_stretch hfile (p := p.right 1) hline count
  have hunion := @Excerpt.union_spec file
    [file.stretch p 1, file.stretch (p.right 1) count] (by simp)
  simp only [List.forall_mem_cons, List.flatMap_cons, List.flatMap_nil, hhash, hname] at hunion
  refine hunion ⟨located_stretch hfile hline 1, located_stretch hfile (p := p.right 1) hline count, by simp⟩ ?_
  simp only [List.append_nil, List.singleton_append, List.pairwise_cons, List.mem_singleton,
    forall_eq, List.not_mem_nil, false_imp_iff, implies_true, List.Pairwise.nil, and_true]
  exact Stretch.at_before_at rfl Nat.one_pos (Nat.le_refl _)

/-- A single code point can be taken where there is one. -/
theorem one_le_length_rest {p : Position} {c : Char} (h : file.charAt p = some c) :
    1 ≤ (file.rest p).length := by
  rw [rest_eq_cons h]
  exact Nat.succ_le_succ (Nat.zero_le _)

/-! ## Inclusions -/

section

variable {p : Position} {n : Nat} {quote : PathQuote} {count : Nat} {start stop rest : Position}

/-- The stretches of an inclusion. -/
def inclusionStretches (p : Position) (n count : Nat) (start stop : Position) : List Stretch :=
  [.at p 1, .at (p.right 1) n, .at start 1, .at (start.right 1) count, .at stop 1]

theorem PathBehind.pairwise (hn : 0 < n)
    (h : file.PathBehind ((p.right 1).right n) quote count start stop rest) :
    (inclusionStretches p n count start stop).Pairwise Stretch.Before := by
  have hcount := h.count_pos
  have hstart := file.le_skipBlanksInLine ((p.right 1).right n)
  have hline : start.line = p.line := by
    rw [h.start_eq]
    rfl
  rw [← h.start_eq] at hstart
  simp only [Position.le_def, Position.right] at hstart
  simp only [inclusionStretches, h.stop_eq, List.pairwise_cons, List.mem_cons, List.not_mem_nil,
    or_false, forall_eq_or_imp, forall_eq, false_imp_iff, implies_true, List.Pairwise.nil, and_true,
    Stretch.Before, Stretch.at, Position.right, true_and]
  omega

theorem PathBehind.start_line (h : file.PathBehind ((p.right 1).right n) quote count start stop rest) :
    start.line = p.line := by
  rw [h.start_eq]
  rfl

theorem PathBehind.excerpt (hfile : file.Numbered) (hline : p.line ≤ file.lastIndex) (hn : 0 < n)
    (h : file.PathBehind ((p.right 1).right n) quote count start stop rest) :
    (Node.excerpt (file.inclusionOf (file.headAt p n) quote count start stop)).Located file ∧
      (Node.excerpt (file.inclusionOf (file.headAt p n) quote count start stop)).stretches =
        inclusionStretches p n count start stop := by
  have hstart : start.line ≤ file.lastIndex := h.start_line ▸ hline
  have hstop : stop.line ≤ file.lastIndex := by
    rw [h.stop_eq]
    exact hstart
  have hhead := excerpt_headAt hfile hline n
  have hopener := stretches_stretch hfile hstart 1
  have hpath := stretches_stretch hfile (p := start.right 1) hstart count
  have hcloser := stretches_stretch hfile hstop 1
  have hunion := @Excerpt.union_spec file
    [Node.excerpt (file.headAt p n), file.stretch start 1,
      file.stretch (start.right 1) count, file.stretch stop 1] (by simp)
  simp only [List.forall_mem_cons, List.flatMap_cons, List.flatMap_nil, hhead.2, hopener, hpath,
    hcloser] at hunion
  refine hunion ⟨hhead.1, ?_, ?_, ?_, by simp⟩ (h.pairwise hn)
  · exact located_stretch hfile hstart 1
  · exact located_stretch hfile (p := start.right 1) hstart count
  · exact located_stretch hfile hstop 1

/-- The parts of an inclusion and the blanks between them make up its line. -/
theorem PathBehind.accounted (h : file.PathBehind ((p.right 1).right n) quote count start stop rest) :
    Accounted file (inclusionStretches p n count start stop) p rest := by
  have hhash : Accounted file (inclusionStretches p n count start stop) p (p.right 1) :=
    accounted_at (by simp [inclusionStretches])
  have hname : Accounted file (inclusionStretches p n count start stop) (p.right 1)
      ((p.right 1).right n) :=
    accounted_at (by simp [inclusionStretches])
  have hgap : Accounted file (inclusionStretches p n count start stop) ((p.right 1).right n)
      start := by
    rw [h.start_eq]
    exact accounted_skipBlanksInLine _
  have hopener : Accounted file (inclusionStretches p n count start stop) start (start.right 1) :=
    accounted_at (by simp [inclusionStretches])
  have hpath : Accounted file (inclusionStretches p n count start stop) (start.right 1) stop := by
    rw [h.stop_eq]
    exact accounted_at (by simp [inclusionStretches])
  have hcloser : Accounted file (inclusionStretches p n count start stop) stop (stop.right 1) :=
    accounted_at (by simp [inclusionStretches])
  have hend : Accounted file (inclusionStretches p n count start stop) (stop.right 1) rest := by
    rw [h.rest_eq]
    exact accounted_skipBlanksInLine _
  exact hhash.trans (hname.trans (hgap.trans (hopener.trans (hpath.trans (hcloser.trans hend)))))

theorem PathBehind.inside (h : file.PathBehind ((p.right 1).right n) quote count start stop rest) :
    p < rest ∧ ∀ r ∈ inclusionStretches p n count start stop, p ≤ r.first ∧ r.last ≤ rest := by
  have hline := h.start_line
  have hstart := file.le_skipBlanksInLine ((p.right 1).right n)
  have hrest := file.le_skipBlanksInLine (stop.right 1)
  rw [← h.start_eq] at hstart
  rw [← h.rest_eq, h.stop_eq] at hrest
  simp only [Position.le_def, Position.right] at hstart hrest
  simp only [inclusionStretches, h.stop_eq, List.forall_mem_cons, List.not_mem_nil,
    false_imp_iff, implies_true, and_true, Stretch.first_at, Stretch.last_at, Position.le_def,
    Position.lt_def, Position.right, true_and]
  omega

theorem length_path_le (h : file.charAt (start.right count) = some quote.closer) :
    count ≤ (file.rest start).length := by
  rw [charAt_right, List.getElem?_eq_some_iff] at h
  exact Nat.le_of_lt h.1

/-- An inclusion is a piece of its line. -/
theorem readFrom_inclusion (hfile : file.Numbered) (hhash : file.charAt p = some '#')
    (hblanks : file.onlyBlanksBefore p = true) (hn : 0 < n)
    (hle : n ≤ (file.rest (p.right 1)).length)
    (h : file.PathBehind ((p.right 1).right n) quote count start stop rest) :
    Item.ReadFrom file
      (.directive (.inclusion (file.inclusionOf (file.headAt p n) quote count start stop)))
      p rest := by
  have hline := line_le_lastIndex hhash
  have hstart : start.line ≤ file.lastIndex := h.start_line ▸ hline
  have hstop : stop.line ≤ file.lastIndex := by
    rw [h.stop_eq]
    exact hstart
  have hcount := h.count_pos
  obtain ⟨hlocated, hexcerpt⟩ := h.excerpt hfile hline hn
  have hstretches : Item.stretches (.directive (.inclusion
      (file.inclusionOf (file.headAt p n) quote count start stop))) =
      inclusionStretches p n count start stop :=
    hexcerpt
  obtain ⟨hforward, hinside⟩ := h.inside
  refine ⟨⟨hlocated, ?_, ?_⟩, ?_, ?_, hforward, by simp [Item.isDirective], ?_⟩
  · simp only [Item.tokens, Directive.tokens, inclusionOf, List.forall_mem_cons]
    refine ⟨?_, ?_, ?_, ?_, ?_, by simp⟩
    · exact isSlice_stretch _ hline Nat.one_pos (one_le_length_rest hhash)
    · exact isSlice_stretch _ hline hn hle
    · exact isSlice_stretch _ hstart Nat.one_pos (one_le_length_rest h.opener)
    · have hcloser := h.closer
      rw [h.stop_eq] at hcloser
      exact isSlice_stretch _ hstart hcount (length_path_le hcloser)
    · exact isSlice_stretch _ hstop Nat.one_pos (one_le_length_rest h.closer)
  · intro r hr
    rw [hstretches] at hr
    simp only [inclusionStretches, List.mem_cons, List.not_mem_nil, or_false] at hr
    apply Or.inl
    rcases hr with rfl | rfl | rfl | rfl | rfl <;> simp only [Stretch.at] <;> omega
  · intro r hr
    rw [hstretches] at hr
    exact hinside r hr
  · rw [hstretches]
    exact h.accounted
  · exact fun _ => ⟨hblanks, textBehind?_eq_none_iff.1 h.behind⟩

end

end File
end Kiln
