import Kiln.Proofs.Lexing.LongestMatch
import Kiln.Token.Lexing

/-!
# Symbols are longest matches

The table of symbols is searched from its beginning for a spelling that a text begins with.  As
longer spellings come first and no two are alike, the first that is found is the longest, and
the only one of its length.
-/

namespace Kiln
namespace Symbol

/-! ## The table -/

/-- The spellings of the table. -/
def spellings : Language Char := {word | ∃ s ∈ table, s.chars = word}

theorem pairwise_table : table.Pairwise fun s t => t.chars.length ≤ s.chars.length := by
  decide

/-- A spelling stands for one symbol. -/
theorem eq_of_chars_eq : ∀ s ∈ table, ∀ t ∈ table, s.chars = t.chars → s = t := by
  decide

theorem isStart_of_mem_table : ∀ s ∈ table, s.chars.head?.any isStart = true := by
  decide

/-- A character that can begin a symbol begins no other sort of token. -/
theorem begins_only_symbols {c : Char} (h : isStart c = true) :
    isWordStart c = false ∧ c.isDigit = false ∧ c ≠ '"' := by
  have hcode : c.toNat < 128 := by
    simp only [isStart, Bool.and_eq_true, Bool.or_eq_true, decide_eq_true_eq] at h
    omega
  have hall : ∀ n < 128, isStart (Char.ofNat n) = true →
      isWordStart (Char.ofNat n) = false ∧ (Char.ofNat n).isDigit = false ∧
        Char.ofNat n ≠ '"' := by
    decide +kernel
  have hc := hall c.toNat hcode
  rw [Char.ofNat_toNat] at hc
  exact hc h

/-! ## The first entry that fits -/

section Match

variable {cs : List Char} {s : Symbol}

/-- The first entry that fits is the longest one. -/
theorem isLongestPrefix_of_match? (h : match? cs = some s) :
    IsLongestPrefix spellings s.chars cs := by
  obtain ⟨hfits, front, back, htable, hfront⟩ := List.find?_eq_some_iff_append.1 h
  have hback : ∀ t ∈ back, t.chars.length ≤ s.chars.length := by
    have hpairwise := pairwise_table
    rw [htable, List.pairwise_append, List.pairwise_cons] at hpairwise
    exact hpairwise.2.1.1
  refine ⟨⟨s, mem_table_of_match? h, rfl⟩, List.isPrefixOf_iff_prefix.1 hfits, ?_⟩
  rintro other ⟨t, ht, rfl⟩ hother
  rw [htable, List.mem_append, List.mem_cons] at ht
  rcases ht with ht | rfl | ht
  · -- an entry before the one that is found does not fit
    have hnot := hfront t ht
    rw [List.isPrefixOf_iff_prefix.2 hother] at hnot
    cases hnot
  · exact Nat.le_refl _
  · exact hback t ht

theorem match?_eq_none_iff : match? cs = none ↔ ∀ s ∈ table, ¬s.chars <+: cs := by
  simp [match?, List.find?_eq_none]

/-- The longest spelling is the one that is found. -/
theorem match?_of_isLongestPrefix (hs : s ∈ table) (h : IsLongestPrefix spellings s.chars cs) :
    match? cs = some s := by
  cases hmatch : match? cs with
  | none => exact absurd h.isPrefix (match?_eq_none_iff.1 hmatch s hs)
  | some t =>
      have hchars := h.eq (isLongestPrefix_of_match? hmatch)
      rw [eq_of_chars_eq s hs t (mem_table_of_match? hmatch) hchars]

/-- Any other spelling that fits is shorter than the one that is found. -/
theorem length_lt_of_match? {other : Symbol} (h : match? cs = some s) (hother : other ∈ table)
    (hfront : other.chars <+: cs) (hne : other ≠ s) : other.chars.length < s.chars.length := by
  have hlongest := isLongestPrefix_of_match? h
  have hle := hlongest.length_le other.chars ⟨other, hother, rfl⟩ hfront
  refine Nat.lt_of_le_of_ne hle fun hlength => hne ?_
  have hchars := (List.prefix_of_prefix_length_le hfront hlongest.isPrefix hle).eq_of_length hlength
  exact eq_of_chars_eq other hother s (mem_table_of_match? h) hchars

end Match
end Symbol

open Kiln.Symbol

/-! ## Symbols of a file -/

/-- The kind of the symbol at a cursor, if one stands there, and the cursor behind it. -/
def Cursor.takeSymbol {file : File} (c : Cursor file) : Option Kind × Cursor file :=
  match match? c.rest with
  | some s => (some s.kind, c.right s.chars.length)
  | none => (none, c)

/-- Where a symbol is found, it is the token. -/
theorem File.tokenAt_of_match? {file : File} {c : Cursor file} {s : Symbol}
    (h : match? c.rest = some s) :
    file.tokenAt c =
      ⟨.ok ⟨s.kind, String.ofList s.chars, file.stretch c.position s.chars.length⟩,
        c.position.right s.chars.length⟩ := by
  have hfront := (isLongestPrefix_of_match? h).isPrefix
  have hread : readToken c.rest = .token s.chars.length s.kind := by
    have hmem := mem_table_of_match? h
    obtain ⟨ch, chars, hchars⟩ :=
      List.exists_cons_of_ne_nil (List.length_pos_iff.1 (length_pos_of_mem_table s hmem))
    have hstart := isStart_of_mem_table s hmem
    rw [hchars, List.head?_cons, Option.any_some] at hstart
    obtain ⟨hword, hdigit, hquote⟩ := begins_only_symbols hstart
    obtain ⟨rest, hrest⟩ := hfront
    rw [hchars, List.cons_append] at hrest
    rw [← hrest] at h ⊢
    simp [readToken, hword, hdigit, hquote, hstart, h]
  rw [tokenAt, hread, Cursor.textAhead]
  simp only [Reading.token, ← List.prefix_iff_eq_take.1 hfront]

namespace Cursor

/-- A symbol is found at a cursor if and only if a spelling of the table stands there, and it is
the one with the longest spelling, longer than any other that stands there.  The cursor moves
behind it, and does not move if there is none.  So every symbol of the table that does not go
on to a longer spelling is read as a token of its kind, with its spelling as text. -/
theorem takeSymbol_longest {file : File} (c : Cursor file) :
    ((∃ kind, c.takeSymbol.1 = some kind) ↔ ∃ s ∈ table, s.chars <+: c.rest) ∧
    (∀ kind, c.takeSymbol.1 = some kind →
      ∃ s ∈ table, s.kind = kind ∧ s.chars <+: c.rest ∧
        (∀ other ∈ table, other.chars <+: c.rest → other ≠ s →
          other.chars.length < s.chars.length) ∧
        c.takeSymbol.2.position = c.position.right s.chars.length) ∧
    (c.takeSymbol.1 = none → c.takeSymbol.2 = c) ∧
    ∀ s ∈ table, ∀ more, c.rest = s.chars ++ more →
      (∀ other ∈ table, s.chars.length < other.chars.length → ¬other.chars <+: s.chars ++ more) →
        c.takeSymbol = (some s.kind, c.right s.chars.length) ∧
          file.tokenAt c =
            ⟨.ok ⟨s.kind, String.ofList s.chars, file.stretch c.position s.chars.length⟩,
              c.position.right s.chars.length⟩ := by
  have hsome : ∀ s, match? c.rest = some s →
      c.takeSymbol = (some s.kind, c.right s.chars.length) := by
    intro s h
    rw [takeSymbol, h]
  have hnone : match? c.rest = none → c.takeSymbol = (none, c) := by
    intro h
    rw [takeSymbol, h]
  refine ⟨⟨?_, ?_⟩, ?_, ?_, ?_⟩
  · rintro ⟨kind, hkind⟩
    cases h : match? c.rest with
    | none =>
        rw [hnone h] at hkind
        cases hkind
    | some s => exact ⟨s, mem_table_of_match? h, (isLongestPrefix_of_match? h).isPrefix⟩
  · rintro ⟨s, hs, hfront⟩
    cases h : match? c.rest with
    | none => exact absurd hfront (match?_eq_none_iff.1 h s hs)
    | some t => exact ⟨t.kind, congrArg Prod.fst (hsome t h)⟩
  · intro kind hkind
    cases h : match? c.rest with
    | none =>
        rw [hnone h] at hkind
        cases hkind
    | some s =>
        rw [hsome s h] at hkind ⊢
        cases hkind
        exact ⟨s, mem_table_of_match? h, rfl, (isLongestPrefix_of_match? h).isPrefix,
          fun other hother hfront hne => length_lt_of_match? h hother hfront hne, rfl⟩
  · intro hkind
    cases h : match? c.rest with
    | none => rw [hnone h]
    | some s =>
        rw [hsome s h] at hkind
        cases hkind
  · intro s hs more hrest hlonger
    have hlongest : IsLongestPrefix spellings s.chars c.rest := by
      refine ⟨⟨s, hs, rfl⟩, hrest ▸ List.prefix_append s.chars more, ?_⟩
      rintro chars ⟨other, hother, rfl⟩ hfront
      exact Nat.le_of_not_lt fun hlt => hlonger other hother hlt (hrest ▸ hfront)
    have hmatch := match?_of_isLongestPrefix hs hlongest
    exact ⟨hsome s hmatch, File.tokenAt_of_match? hmatch⟩

/-- Of the spellings `<`, `<<`, `<=` and `<<=` the longest one that stands at the place is found. -/
theorem takeSymbol_longest_shift :
    let file := File.ofText "a" "x <<== y"
    let c := file.cursor ⟨0, 2⟩
    let s := Symbol.ofOperator .shiftLeftAssign
    s ∈ table ∧ c.rest = s.chars ++ "= y".toList ∧
      (∀ other ∈ table, s.chars.length < other.chars.length →
        ¬other.chars <+: s.chars ++ "= y".toList) ∧
      c.takeSymbol.1 = some (.operator .shiftLeftAssign) ∧
      (file.tokenAt c).outcome =
        .ok ⟨.operator .shiftLeftAssign, "<<=", file.stretch ⟨0, 2⟩ 3⟩ := by
  intro file c s
  have hs : s ∈ table := by decide
  have hrest : c.rest = s.chars ++ "= y".toList := by decide +kernel
  have hlonger : ∀ other ∈ table, s.chars.length < other.chars.length →
      ¬other.chars <+: s.chars ++ "= y".toList := by decide +kernel
  obtain ⟨-, -, -, hread⟩ := takeSymbol_longest c
  obtain ⟨htake, htoken⟩ := hread s hs "= y".toList hrest hlonger
  exact ⟨hs, hrest, hlonger, congrArg Prod.fst htake, congrArg Found.outcome htoken⟩

end Cursor
end Kiln
