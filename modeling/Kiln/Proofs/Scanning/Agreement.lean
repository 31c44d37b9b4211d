import Kiln.Directive.Handlers
import Kiln.Proofs.Coverage.Tokens

/-!
# Scans and tokens

A file without directives is read alike with and without handlers for them.  The two ways of
reading go in step as long as no hash is met, which begins no token and which only a handler
can make something of.  So they part at a hash or never, whatever the handlers are.
-/

namespace Kiln

/-- No token begins with a hash. -/
theorem readToken_hash (cs : List Char) :
    readToken ('#' :: cs) = .stuck 0 (.invalidCharacter '#') := by
  have hword : isWordStart '#' = false := by decide
  have hdigit : '#'.isDigit = false := by decide
  have hquote : '#' ≠ '"' := by decide
  have hsymbol : Symbol.isStart '#' = false := by decide
  simp only [readToken, hword, hdigit, hquote, hsymbol, Bool.false_eq_true, if_false]

namespace File

variable {file : File} {handlers : HandlerTable} {c : Cursor file}

/-! ## Hashes -/

/-- Whether a diagnostic says that no token begins with a hash of the file. -/
def IsHashFault (file : File) (d : Diagnostic) : Prop :=
  ∃ p, file.charAt p = some '#' ∧ d = (LexicalFault.invalidCharacter '#').report file p 0

theorem tokenAt_hash (h : c.rest.head? = some '#') :
    ∃ d, (file.tokenAt c).outcome = .error d ∧ file.IsHashFault d := by
  obtain ⟨cs, hcs⟩ := List.head?_eq_some_iff.1 h
  refine ⟨(LexicalFault.invalidCharacter '#').report file c.position 0, ?_, c.position, ?_, rfl⟩
  · simp only [tokenAt, hcs, readToken_hash]
    rfl
  · rw [← head?_rest, ← c.rest_eq, h]

theorem scannedAt_token (h : c.rest.head? ≠ some '#') :
    file.scannedAt handlers c = some ((file.tokenAt c).map .token) := by
  rw [scannedAt, if_neg h]

theorem scannedAt_hash (handlers : HandlerTable) (h : c.rest.head? = some '#') :
    file.scannedAt handlers c =
      (file.declarationAt handlers c.position).map (Found.map .declaration) := by
  rw [scannedAt, if_pos h]

/-! ## Two ways of reading -/

/-- The tokens of a file from a cursor on. -/
def tokensFrom (file : File) (c : Cursor file) : Except Diagnostic (List Token) :=
  file.readAllFrom file.tokenAt file.tokenAt_advances c

/-- The two ways of reading part at a hash: there are no tokens because of it, and a scan that
succeeds has made a declaration of something. -/
structure PartsAtHash (handlers : HandlerTable) (file : File) (c : Cursor file) : Prop where
  fault : ∃ d, file.tokensFrom c = .error d ∧ file.IsHashFault d
  declaration : ∀ pieces, ScansFrom handlers file c (.ok pieces) →
    ∃ piece ∈ pieces, piece.isDeclaration = true

/-- They part at a hash. -/
theorem partsAtHash_of_hash (hend : c.skipTrivia.atEnd = false)
    (hhash : c.skipTrivia.rest.head? = some '#') : PartsAtHash handlers file c := by
  constructor
  · obtain ⟨d, hd, hfault⟩ := tokenAt_hash hhash
    refine ⟨d, ?_, hfault⟩
    rw [tokensFrom, readAllFrom_of_not_atEnd hend, hd]
    rfl
  · intro pieces hpieces
    generalize hresult : Except.ok pieces = result at hpieces
    cases hpieces with
    | atEnd hend' => cases hend.symm.trans hend'
    | fault => cases hresult
    | found _ hfound hfirst =>
        -- only a handler can have found something at a hash
        rw [scannedAt_hash handlers hhash, Option.map_eq_some_iff] at hfound
        obtain ⟨made, -, rfl⟩ := hfound
        obtain ⟨d, -, rfl⟩ := map_eq_ok_iff.1 hfirst
        obtain ⟨behind, -, rfl⟩ := map_eq_ok_iff.1 hresult.symm
        exact ⟨.declaration d, List.mem_cons_self, rfl⟩

/-- If they part behind a token, they part. -/
theorem PartsAtHash.of_token {t : Token} (hend : c.skipTrivia.atEnd = false)
    (hhash : c.skipTrivia.rest.head? ≠ some '#')
    (ht : (file.tokenAt c.skipTrivia).outcome = .ok t)
    (h : PartsAtHash handlers file (file.cursor (file.tokenAt c.skipTrivia).stop)) :
    PartsAtHash handlers file c := by
  constructor
  · obtain ⟨d, hd, hfault⟩ := h.fault
    refine ⟨d, ?_, hfault⟩
    rw [tokensFrom] at hd
    rw [tokensFrom, readAllFrom_of_not_atEnd hend, ht]
    simp only [Except.bind, hd, Except.map]
  · intro pieces hpieces
    generalize hresult : Except.ok pieces = result at hpieces
    cases hpieces with
    | atEnd hend' => cases hend.symm.trans hend'
    | fault => cases hresult
    | found _ hfound _ hmore =>
        cases (scannedAt_token hhash).symm.trans hfound
        obtain ⟨behind, rfl, rfl⟩ := map_eq_ok_iff.1 hresult.symm
        obtain ⟨piece, hpiece, hmade⟩ := h.declaration behind hmore
        exact ⟨piece, List.mem_cons_of_mem _ hpiece, hmade⟩

/-- The tokens of a file, or what is wrong with them, come out of the scan, unless the two part
at a hash. -/
theorem scansFrom_cases (handlers : HandlerTable) (c : Cursor file) :
    ScansFrom handlers file c ((file.tokensFrom c).map (List.map Scanned.token)) ∨
      PartsAtHash handlers file c := by
  rw [tokensFrom]
  fun_induction readAllFrom file file.tokenAt file.tokenAt_advances c with
  | case1 c hend => exact .inl (.atEnd hend)
  | case2 c hend d hd =>
      rw [Bool.not_eq_true] at hend
      by_cases hhash : c.skipTrivia.rest.head? = some '#'
      · exact .inr (partsAtHash_of_hash hend hhash)
      · exact .inl (.fault hend (scannedAt_token hhash) (Found.map_of_error hd))
  | case3 c hend t ht ih =>
      rw [Bool.not_eq_true] at hend
      rw [Cursor.moveTo_eq] at ih ⊢
      by_cases hhash : c.skipTrivia.rest.head? = some '#'
      · exact .inr (partsAtHash_of_hash hend hhash)
      · rcases ih with hmore | hparts
        · have hscan := ScansFrom.found hend (scannedAt_token hhash) (Found.map_of_ok ht) hmore
          rw [map_cons_map] at hscan
          exact .inl hscan
        · exact .inr (hparts.of_token hend hhash ht)

/-- Whatever handlers there are for directives, the tokens of a file come out of the scan if it
has any without directives, and nothing but tokens only if these are the tokens of the file; and
whatever is wrong with the tokens, but for a hash, comes out of the scan.  Nothing else can come
out of it, and with the handlers of a registry it is the items of the file. -/
theorem scan_agrees_with_tokens (handlers : HandlerTable) (file : File) :
    (∀ tokens, file.tokens = .ok tokens → file.Scans handlers (.ok (tokens.map .token))) ∧
    (∀ pieces, file.Scans handlers (.ok pieces) →
      (∀ piece ∈ pieces, piece.isDeclaration = false) →
      ∃ tokens, file.tokens = .ok tokens ∧ pieces = tokens.map .token) ∧
    (∀ d, file.tokens = .error d → ¬file.IsHashFault d → file.Scans handlers (.error d)) ∧
    (∀ result other, file.Scans handlers result → file.Scans handlers other → result = other) ∧
    ∀ registry,
      file.Scans registry.handlers ((file.items registry).map (List.map Item.scanned)) := by
  have hcases := scansFrom_cases handlers (file.cursor ⟨0, 0⟩)
  refine ⟨?_, ?_, ?_, fun _ _ h hother => ScansFrom.unique h hother,
    fun registry => scans_handlers registry file⟩
  · intro tokens htokens
    change file.tokensFrom (file.cursor ⟨0, 0⟩) = .ok tokens at htokens
    rcases hcases with hscan | hparts
    · rw [htokens] at hscan
      exact hscan
    · obtain ⟨d, hd, -⟩ := hparts.fault
      cases htokens.symm.trans hd
  · intro pieces hpieces hplain
    rcases hcases with hscan | hparts
    · obtain ⟨tokens, htokens, rfl⟩ := map_eq_ok_iff.1 (hscan.unique hpieces)
      exact ⟨tokens, htokens, rfl⟩
    · obtain ⟨piece, hpiece, hmade⟩ := hparts.declaration pieces hpieces
      rw [hplain piece hpiece] at hmade
      cases hmade
  · intro d hd hhash
    change file.tokensFrom (file.cursor ⟨0, 0⟩) = .error d at hd
    rcases hcases with hscan | hparts
    · rw [hd] at hscan
      exact hscan
    · obtain ⟨d', hd', hfault⟩ := hparts.fault
      cases hd.symm.trans hd'
      exact absurd hfault hhash

/-- A file with a hash in a string and another one in a comment. -/
def hashesQuoted : File := File.ofText "quoted" "\"#\" // #"

/-- A file with a hash in a string that is not closed. -/
def hashUnclosed : File := File.ofText "unclosed" "\"#"

/-- Whether reading has failed with a code. -/
def failsWith {α : Type} (code : Code) : Except Diagnostic α → Bool
  | .ok _ => false
  | .error d => d.main.code == some code

/-- Neither a string nor a comment is searched for directives. -/
theorem scan_agrees_with_tokens_hashes :
    (∃ tokens, hashesQuoted.tokens = .ok tokens ∧
      hashesQuoted.Scans Registry.builtin.handlers (.ok (tokens.map .token))) ∧
    ∃ d, hashUnclosed.tokens = .error d ∧ ¬hashUnclosed.IsHashFault d ∧
      hashUnclosed.Scans Registry.builtin.handlers (.error d) := by
  have hread : hashesQuoted.tokens.isOk = true := by decide +kernel
  have hfails : failsWith .unterminatedString hashUnclosed.tokens = true := by decide +kernel
  constructor
  · cases htokens : hashesQuoted.tokens with
    | error d =>
        rw [htokens] at hread
        cases hread
    | ok tokens =>
        refine ⟨tokens, rfl, ?_⟩
        exact (scan_agrees_with_tokens Registry.builtin.handlers hashesQuoted).1 tokens htokens
  · cases hfault : hashUnclosed.tokens with
    | ok tokens =>
        rw [hfault] at hfails
        cases hfails
    | error d =>
        have hother : ¬hashUnclosed.IsHashFault d := by
          rintro ⟨p, -, rfl⟩
          rw [hfault] at hfails
          cases hfails
        refine ⟨d, rfl, hother, ?_⟩
        exact (scan_agrees_with_tokens Registry.builtin.handlers hashUnclosed).2.2.1 d hfault hother

end File
end Kiln
