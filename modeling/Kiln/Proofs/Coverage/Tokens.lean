import Kiln.Proofs.Coverage.Trivia
import Kiln.Token.Lexing

/-!
# Tokens as slices of lines

Reading a token takes no more than what is left of the line, so a token is a slice of
its line and its excerpt shows exactly that slice.
-/

namespace Kiln

/-! ## Readings stay on the line -/

theorem length_takeWhile_le {α : Type} (accept : α → Bool) (as : List α) :
    (as.takeWhile accept).length ≤ as.length :=
  (List.takeWhile_sublist accept).length_le

theorem digitCount_le (cs : List Char) : digitCount cs ≤ cs.length :=
  length_takeWhile_le _ _

theorem fractionLength_le (cs : List Char) : fractionLength cs ≤ cs.length := by
  unfold fractionLength
  split
  · next cs =>
      have hdigits := digitCount_le cs
      simp only [List.length_cons]
      omega
  · exact Nat.zero_le _

theorem exponentMark?_le {cs : List Char} {mark : Nat} (h : exponentMark? cs = some mark) :
    mark ≤ cs.length := by
  unfold exponentMark? at h
  split at h
  · split at h
    · split at h
      · split at h
        · cases h
          simp
        · cases h
          simp
      · cases h
        simp
    · cases h
  · cases h

theorem two_le_length_of_hasHexPrefix {cs : List Char} (h : hasHexPrefix cs = true) :
    2 ≤ cs.length := by
  rw [hasHexPrefix, Bool.or_eq_true, List.isPrefixOf_iff_prefix, List.isPrefixOf_iff_prefix] at h
  rcases h with h | h
  · exact h.length_le
  · exact h.length_le

theorem length_readHexadecimal_le {cs : List Char} (h : 2 ≤ cs.length) :
    (readHexadecimal cs).length ≤ cs.length := by
  have hdigits := length_takeWhile_le isHexDigit (cs.drop 2)
  rw [List.length_drop] at hdigits
  unfold readHexadecimal
  dsimp only
  split
  · exact h
  · rw [length_closeNumber]
    omega

theorem length_readNumber_le (cs : List Char) : (readNumber cs).length ≤ cs.length := by
  have hwhole := digitCount_le cs
  have hfraction := fractionLength_le (cs.drop (digitCount cs))
  rw [List.length_drop] at hfraction
  unfold readNumber
  dsimp only
  split
  · next hhex => exact length_readHexadecimal_le (two_le_length_of_hasHexPrefix hhex)
  · split
    · next mark hmark =>
        have hle := exponentMark?_le hmark
        have hdigits := digitCount_le
          (cs.drop (digitCount cs + fractionLength (cs.drop (digitCount cs)) + mark))
        rw [List.length_drop] at hle hdigits
        split
        · simp only [Reading.stuck]
          omega
        · rw [length_closeNumber]
          omega
    · split
      · rw [length_readInteger]
        exact hwhole
      · rw [length_closeNumber]
        omega

theorem stringTail?_le {cs : List Char} {count : Nat} (h : stringTail? cs = some count) :
    count ≤ cs.length := by
  induction hlen : cs.length using Nat.strongRecOn generalizing cs count with
  | ind n ih =>
      unfold stringTail? at h
      split at h
      · cases h
      · cases h
      · cases h
        simp only [List.length_cons] at hlen
        omega
      · rw [Option.map_eq_some_iff] at h
        obtain ⟨inner, hinner, rfl⟩ := h
        simp only [List.length_cons] at hlen
        have hle := ih _ (by omega) hinner rfl
        omega
      · rw [Option.map_eq_some_iff] at h
        obtain ⟨inner, hinner, rfl⟩ := h
        simp only [List.length_cons] at hlen
        have hle := ih _ (by omega) hinner rfl
        omega

theorem length_readString_le {c : Char} {cs : List Char} :
    (readString (c :: cs)).length ≤ (c :: cs).length := by
  rw [readString, List.tail_cons, List.length_cons]
  split
  · next count hcount =>
      have hle := stringTail?_le hcount
      simp only [Reading.token]
      omega
  · exact Nat.le_refl _

theorem Symbol.length_le_of_match? {cs : List Char} {s : Symbol} (h : Symbol.match? cs = some s) :
    s.chars.length ≤ cs.length := by
  have hprefix := List.find?_some h
  exact (List.isPrefixOf_iff_prefix.1 hprefix).length_le

/-- A token ends on its line. -/
theorem length_readToken_le (cs : List Char) : (readToken cs).length ≤ cs.length := by
  cases cs with
  | nil => exact Nat.le_refl _
  | cons c cs =>
      simp only [readToken]
      split
      · exact length_takeWhile_le _ _
      · split
        · exact length_readNumber_le _
        · split
          · exact length_readString_le
          · split
            · split
              · next hmatch => exact Symbol.length_le_of_match? hmatch
              · exact Nat.zero_le _
            · exact Nat.zero_le _

/-! ## Slices -/

/-- A token whose excerpt is one stretch of a line of a file, not an empty one, and
whose text is what stands there. -/
def Token.IsSlice (file : File) (t : Token) : Prop :=
  ∃ index start stop, index ≤ file.lastIndex ∧ start < stop ∧ stop ≤ (file.line index).length ∧
    t.excerpt = .ofHighlight file.name (file.line index) ⟨start, stop⟩ ∧
    t.text = String.ofList ((file.line index).slice start stop)

/-- The stretch of a number of columns from a position on. -/
def Stretch.at (p : Position) (count : Nat) : Stretch := ⟨p.line, p.column, p.column + count⟩

@[simp] theorem Stretch.first_at (p : Position) (count : Nat) : (Stretch.at p count).first = p :=
  rfl

@[simp] theorem Stretch.last_at (p : Position) (count : Nat) :
    (Stretch.at p count).last = p.right count :=
  rfl

namespace File

variable {file : File}

theorem stretches_stretch (hfile : file.Numbered) {p : Position} (hline : p.line ≤ file.lastIndex)
    (count : Nat) : (file.stretch p count).stretches = [.at p count] := by
  rw [stretch, stretches_ofHighlight, lineAt, hfile.index_eq p.line hline]
  rfl

theorem located_stretch (hfile : file.Numbered) {p : Position} (hline : p.line ≤ file.lastIndex)
    (count : Nat) : (file.stretch p count).Located file :=
  Excerpt.located_ofHighlight (hfile.index_eq p.line hline) hline

/-- The token of some code points from a position on is a slice. -/
theorem isSlice_stretch {p : Position} (kind : Kind) {count : Nat}
    (hline : p.line ≤ file.lastIndex) (hpos : 0 < count) (hle : count ≤ (file.rest p).length) :
    Token.IsSlice file ⟨kind, file.textAt p count, file.stretch p count⟩ := by
  rw [rest, List.length_drop, Array.length_toList] at hle
  refine ⟨p.line, p.column, p.column + count, hline, by omega, ?_, rfl, ?_⟩
  · show p.column + count ≤ (file.lineAt p).chars.size
    omega
  · rw [textAt, rest, Line.slice, Array.toList_extract, List.extract_eq_take_drop,
      Nat.add_sub_cancel_left]
    rfl

theorem line_le_of_not_atLineEnd {p : Position} (h : file.atLineEnd p = false) :
    p.line ≤ file.lastIndex := by
  obtain ⟨c, hc⟩ := atLineEnd_eq_false_iff.1 h
  exact line_le_lastIndex hc

/-- What reading a token gives. -/
theorem tokenAt_eq_ok {c : Cursor file} {t : Token} (h : (file.tokenAt c).outcome = .ok t) :
    ∃ kind count, 0 < count ∧ count ≤ (file.rest c.position).length ∧
      t = ⟨kind, file.textAt c.position count, file.stretch c.position count⟩ ∧
      (file.tokenAt c).stop = c.position.right count := by
  have hle := length_readToken_le c.rest
  have hpos := @length_readToken_pos c.rest
  simp only [tokenAt] at h ⊢
  split at h
  · next kind hkind =>
      cases h
      refine ⟨kind, _, hpos hkind, c.rest_eq ▸ hle, ?_, rfl⟩
      rw [Cursor.textAhead, textAt, c.rest_eq]
  · cases h

end File
end Kiln
