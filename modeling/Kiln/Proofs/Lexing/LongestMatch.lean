import Kiln.Proofs.Coverage.Tokens
import Mathlib.Computability.Language

/-!
# Longest matches

The longest prefix of a text that is a word of a language.  A reader that never goes back takes
such a prefix part by part: the longest word of the first part, then the longest word of the
second part behind it.  This is the longest word of the two parts together if no word of the
second part can begin where a shorter word of the first one ends (`Greedy.mul`).

The language of numbers is made of such parts.
-/

open scoped Computability

namespace Kiln

/-- The longest prefix of a text that is a word of a language. -/
structure IsLongestPrefix (L : Language Char) (word cs : List Char) : Prop where
  mem : word ∈ L
  isPrefix : word <+: cs
  length_le : ∀ other ∈ L, other <+: cs → other.length ≤ word.length

/-- There is at most one longest prefix. -/
theorem IsLongestPrefix.eq {L : Language Char} {word other cs : List Char}
    (h : IsLongestPrefix L word cs) (hother : IsLongestPrefix L other cs) : word = other := by
  have hlength : word.length = other.length :=
    Nat.le_antisymm (hother.length_le word h.mem h.isPrefix)
      (h.length_le other hother.mem hother.isPrefix)
  exact (List.prefix_of_prefix_length_le h.isPrefix hother.isPrefix
    (Nat.le_of_eq hlength)).eq_of_length hlength

/-- The longest prefix in one of two languages is the longest in both if none in the other is
longer. -/
theorem IsLongestPrefix.add {L M : Language Char} {word cs : List Char}
    (h : IsLongestPrefix L word cs)
    (hM : ∀ other ∈ M, other <+: cs → other.length ≤ word.length) :
    IsLongestPrefix (L + M) word cs where
  mem := Or.inl h.mem
  isPrefix := h.isPrefix
  length_le := by
    rintro other (hother | hother) hfront
    · exact h.length_le other hother hfront
    · exact hM other hother hfront

/-! ## Greedy parts -/

/-- Reading a word of a language in front of a text takes the longest one there is, and at the
end of a shorter one it finds a character with which the word goes on. -/
structure Greedy (L : Language Char) (goesOn : Char → Prop) (word rest : List Char) : Prop where
  mem : word ∈ L
  length_le : ∀ other ∈ L, other <+: word ++ rest → other.length ≤ word.length
  next : ∀ other c more, other ∈ L → word = other ++ c :: more → goesOn c

/-- A prefix no longer than the first part of a text is the first part or ends within it. -/
theorem eq_or_exists_of_prefix {cs word rest : List Char} (h : cs <+: word ++ rest)
    (hle : cs.length ≤ word.length) : cs = word ∨ ∃ c more, word = cs ++ c :: more := by
  obtain ⟨more, rfl⟩ := List.prefix_of_prefix_length_le h (List.prefix_append word rest) hle
  cases more with
  | nil => exact Or.inl (List.append_nil cs).symm
  | cons c more => exact Or.inr ⟨c, more, rfl⟩

namespace Greedy

variable {L M : Language Char} {p q : Char → Prop} {word more rest : List Char}

theorem isLongestPrefix (h : Greedy L p word rest) : IsLongestPrefix L word (word ++ rest) :=
  ⟨h.mem, List.prefix_append word rest, h.length_le⟩

theorem mono (h : Greedy L p word rest) (hpq : ∀ c, p c → q c) : Greedy L q word rest :=
  ⟨h.mem, h.length_le, fun other c more hother heq => hpq c (h.next other c more hother heq)⟩

/-- Where a word begins, a word of the first part that could go on has not ended. -/
theorem eq_nil_of_next {other tail : List Char} {c : Char} (hstart : ∀ w ∈ M, ∀ c ∈ w.head?, ¬p c)
    (hother : other ∈ M) (hfront : other <+: c :: tail) (hc : p c) : other = [] := by
  cases other with
  | nil => rfl
  | cons d other =>
      rw [List.cons_prefix_cons] at hfront
      obtain ⟨rfl, -⟩ := hfront
      exact absurd hc (hstart _ hother _ rfl)

/-- The longest words of two parts make up the longest word of both. -/
theorem mul (h : Greedy L p word (more ++ rest)) (hmore : Greedy M q more rest)
    (hstart : ∀ w ∈ M, ∀ c ∈ w.head?, ¬p c) :
    Greedy (L * M) (fun c => p c ∨ q c) (word ++ more) rest where
  mem := Language.append_mem_mul h.mem hmore.mem
  length_le := by
    intro other hother hfront
    obtain ⟨first, hfirst, second, hsecond, rfl⟩ := Language.mem_mul.1 hother
    rw [List.append_assoc] at hfront
    have hfirstPrefix := (List.prefix_append first second).trans hfront
    have hle := h.length_le first hfirst hfirstPrefix
    rcases eq_or_exists_of_prefix hfirstPrefix hle with rfl | ⟨c, tail, rfl⟩
    · have hsecondLe := hmore.length_le second hsecond (List.prefix_append_right_inj _ |>.1 hfront)
      rw [List.length_append, List.length_append]
      exact Nat.add_le_add_left hsecondLe _
    · rw [List.append_assoc, List.prefix_append_right_inj] at hfront
      have hnil := eq_nil_of_next hstart hsecond hfront (h.next first c tail hfirst rfl)
      rw [hnil, List.append_nil, List.length_append]
      exact Nat.le_add_right_of_le hle
  next := by
    intro other c tail hother heq
    obtain ⟨first, hfirst, second, hsecond, rfl⟩ := Language.mem_mul.1 hother
    rw [List.append_assoc] at heq
    have hfirstPrefix : first <+: word ++ (more ++ rest) := by
      rw [← List.append_assoc, heq, List.append_assoc]
      exact List.prefix_append _ _
    have hle := h.length_le first hfirst hfirstPrefix
    rcases eq_or_exists_of_prefix hfirstPrefix hle with rfl | ⟨d, tail', rfl⟩
    · exact Or.inr (hmore.next second c tail hsecond (List.append_cancel_left heq))
    · have hd := h.next first d tail' hfirst rfl
      rw [List.append_assoc, List.append_cancel_left_eq] at heq
      have hfront : second <+: d :: (tail' ++ more) := by
        rw [← List.cons_append, heq]
        exact List.prefix_append _ _
      rw [eq_nil_of_next hstart hsecond hfront hd] at heq
      cases heq
      exact Or.inl hd

/-- A word of an optional part that is there. -/
theorem some {c : Char} (h : Greedy L p (c :: word) rest) :
    Greedy (1 + L) (fun d => p d ∨ d = c) (c :: word) rest where
  mem := Or.inr h.mem
  length_le := by
    rintro other (rfl | hother) hfront
    · exact Nat.zero_le _
    · exact h.length_le other hother hfront
  next := by
    rintro other d more (rfl | hother) heq
    · cases heq
      exact Or.inr rfl
    · exact Or.inl (h.next other d more hother heq)

/-- An optional part that is not there. -/
theorem none (h : ∀ other ∈ L, ¬other <+: rest) : Greedy (1 + L) p [] rest where
  mem := Or.inl rfl
  length_le := by
    rintro other (rfl | hother) hfront
    · exact Nat.le_refl _
    · exact absurd hfront (h other hother)
  next := by
    intro other c more _ heq
    simp at heq

/-- Where no word of the second part stands behind the longest word of the first, no word of the
two together begins. -/
theorem not_prefix_mul (h : Greedy L p word rest) (hM : ∀ other ∈ M, ¬other <+: rest)
    (hstart : ∀ w ∈ M, ∀ c ∈ w.head?, ¬p c) : ∀ other ∈ L * M, ¬other <+: word ++ rest := by
  intro other hother hfront
  obtain ⟨first, hfirst, second, hsecond, rfl⟩ := Language.mem_mul.1 hother
  have hfirstPrefix := (List.prefix_append first second).trans hfront
  have hle := h.length_le first hfirst hfirstPrefix
  rcases eq_or_exists_of_prefix hfirstPrefix hle with rfl | ⟨c, tail, rfl⟩
  · exact hM second hsecond ((List.prefix_append_right_inj _).1 hfront)
  · rw [List.append_assoc, List.prefix_append_right_inj] at hfront
    have hnil := eq_nil_of_next hstart hsecond hfront (h.next first c tail hfirst rfl)
    exact hM second hsecond (hnil ▸ List.nil_prefix)

end Greedy

/-! ## Classes of characters -/

/-- The words of one character of a class. -/
def oneOf (accept : Char → Bool) : Language Char := {word | ∃ c, accept c = true ∧ word = [c]}

section Classes

variable {accept : Char → Bool} {c : Char} {word rest : List Char}

theorem singleton_mem_oneOf (h : accept c = true) : [c] ∈ oneOf accept := ⟨c, h, rfl⟩

theorem mem_kstar_oneOf : word ∈ (oneOf accept)∗ ↔ ∀ c ∈ word, accept c = true := by
  constructor
  · rintro ⟨words, rfl, hwords⟩ c hc
    obtain ⟨w, hw, hc⟩ := List.mem_flatten.1 hc
    obtain ⟨d, hd, rfl⟩ := hwords w hw
    rw [List.mem_singleton.1 hc]
    exact hd
  · intro h
    refine ⟨word.map fun c => [c], by simp [← List.flatMap_def], ?_⟩
    exact List.forall_mem_map.2 fun c hc => singleton_mem_oneOf (h c hc)

/-- A word that begins with one character of a class begins with such a character. -/
theorem accept_of_mem_oneOf_mul {L : Language Char} (h : word ∈ oneOf accept * L) :
    ∃ c more, word = c :: more ∧ accept c = true ∧ more ∈ L := by
  obtain ⟨first, ⟨c, hc, rfl⟩, more, hmore, rfl⟩ := Language.mem_mul.1 h
  exact ⟨c, more, rfl, hc, hmore⟩

/-- Such a word does not stand in front of another character. -/
theorem not_prefix_oneOf_mul {L : Language Char} (h : ∀ c ∈ rest.head?, accept c = false) :
    ∀ other ∈ oneOf accept * L, ¬other <+: rest := by
  intro other hother hfront
  obtain ⟨c, more, rfl, hc, -⟩ := accept_of_mem_oneOf_mul hother
  obtain ⟨tail, rfl⟩ := hfront
  rw [h c rfl] at hc
  cases hc

theorem not_prefix_oneOf (h : ∀ c ∈ rest.head?, accept c = false) :
    ∀ other ∈ oneOf accept, ¬other <+: rest := by
  have hmul := not_prefix_oneOf_mul (L := 1) h
  rwa [mul_one] at hmul

/-- A text begins with all the characters of a class that stand in a row there. -/
theorem exists_run (accept : Char → Bool) (cs : List Char) :
    ∃ word rest, cs = word ++ rest ∧ cs.takeWhile accept = word ∧
      (∀ c ∈ word, accept c = true) ∧ ∀ c ∈ rest.head?, accept c = false := by
  refine ⟨cs.takeWhile accept, cs.dropWhile accept, List.takeWhile_append_dropWhile.symm, rfl,
    fun c hc => List.all_eq_true.1 List.all_takeWhile c hc, ?_⟩
  intro c hc
  have hnot := List.head?_dropWhile_not accept cs
  rw [Option.mem_def.1 hc] at hnot
  simpa using hnot

theorem greedy_oneOf (accept : Char → Bool) (h : accept c = true) :
    Greedy (oneOf accept) (fun _ => False) [c] rest where
  mem := singleton_mem_oneOf h
  length_le := by
    rintro other ⟨d, -, rfl⟩ -
    exact Nat.le_refl _
  next := by
    rintro other d more ⟨e, -, rfl⟩ heq
    simp at heq

/-- All the characters of a class that stand in a row. -/
theorem greedy_kstar (hword : ∀ c ∈ word, accept c = true)
    (hrest : ∀ c ∈ rest.head?, accept c = false) :
    Greedy (oneOf accept)∗ (fun c => accept c = true) word rest where
  mem := mem_kstar_oneOf.2 hword
  length_le := by
    intro other hother hfront
    apply Nat.le_of_not_lt
    intro hlt
    -- the first character behind the word would belong to the other one
    obtain ⟨more, rfl⟩ := List.prefix_of_prefix_length_le (List.prefix_append word rest) hfront
      (Nat.le_of_lt hlt)
    rw [List.prefix_append_right_inj] at hfront
    cases more with
    | nil => simp at hlt
    | cons c more =>
        obtain ⟨tail, rfl⟩ := hfront
        have haccept := mem_kstar_oneOf.1 hother c (by simp)
        rw [hrest c rfl] at haccept
        cases haccept
  next := by
    rintro other c more - rfl
    exact hword c (by simp)

/-- One character of a class and all that stand behind it in a row. -/
theorem greedy_plus (hword : ∀ c ∈ word, accept c = true) (hne : word ≠ [])
    (hrest : ∀ c ∈ rest.head?, accept c = false) :
    Greedy (oneOf accept * (oneOf accept)∗) (fun c => accept c = true) word rest := by
  obtain ⟨c, more, rfl⟩ := List.exists_cons_of_ne_nil hne
  rw [List.forall_mem_cons] at hword
  have hmul := Greedy.mul (greedy_oneOf accept hword.1) (greedy_kstar hword.2 hrest)
    fun _ _ _ _ => id
  exact hmul.mono fun d hd => hd.resolve_left id

end Classes

/-! ## Characters that do not occur -/

/-- No word of a language has a character in it. -/
def Avoids (c : Char) (L : Language Char) : Prop := ∀ word ∈ L, c ∉ word

namespace Avoids

variable {c : Char} {L M : Language Char}

theorem oneOf (accept : Char → Bool) (h : accept c = false) : Avoids c (oneOf accept) := by
  rintro word ⟨d, hd, rfl⟩ hc
  rw [List.mem_singleton.1 hc, hd] at h
  cases h

theorem kstar (h : Avoids c L) : Avoids c L∗ := by
  rintro word ⟨words, rfl, hwords⟩ hc
  obtain ⟨w, hw, hc⟩ := List.mem_flatten.1 hc
  exact h w (hwords w hw) hc

theorem mul (h : Avoids c L) (hM : Avoids c M) : Avoids c (L * M) := by
  intro word hword hc
  obtain ⟨first, hfirst, second, hsecond, rfl⟩ := Language.mem_mul.1 hword
  exact (List.mem_append.1 hc).elim (h first hfirst) (hM second hsecond)

theorem optional (h : Avoids c L) : Avoids c (1 + L) := by
  rintro word (rfl | hword)
  · exact List.not_mem_nil
  · exact h word hword

end Avoids
end Kiln
