import Kiln.Proofs.Safety.Reports

/-!
# Reports about documents that are read

Every leaf of a document that is read from a file shows a part of this file.  So whatever is
reported when such a document is compared has a position in the file, as long as there is a
declaration at all.
-/

namespace Kiln

namespace File

variable {file : File} {registry : Registry}

/-- Every leaf of a document that is read shows a part of the file. -/
theorem shows_of_parse (hfile : file.Numbered) {d : Document} (h : file.parse registry = .ok d) :
    ∀ e ∈ leaves d, e.Shows file :=
  fun e he => (inside_of_parse hfile h e he).toShows

/-- A document that is read is compared alike, with the same report, with documents that are the
same up to places.  Whatever the report highlights, the document highlights on the same line, and
the report has a position in the file unless there is no declaration. -/
theorem reports_of_parse {name text : String} {actual : Document}
    (h : (ofText name text).parse registry = .ok actual) :
    (∀ expected expected' : Document, Node.detach expected = Node.detach expected' →
      actual.expect expected = actual.expect expected') ∧
    ∀ (expected : Document) (d : Diagnostic), actual.expect expected = .error d →
      (∀ span ∈ d.main.excerpt.spans, ∀ highlight ∈ span.highlights,
        ∃ span' ∈ (Node.excerpt actual).spans,
          span'.line = span.line ∧ highlight ∈ span'.highlights) ∧
      (actual.declarations ≠ [] → ∃ line column : Nat, d.main.excerpt.position? =
        some (name ++ ":" ++ toString line ++ ":" ++ toString column)) ∧
      (actual.declarations = [] → d.main.excerpt.position? = none) := by
  refine ⟨fun _ _ hdetach => Stepwise.expect_congr hdetach _ actual, ?_⟩
  intro expected d hd
  have hleaves := shows_of_parse (numbered_ofText name text) h
  by_cases hnil : actual.declarations = []
  · rw [Document.excerpt_of_expect_nil hnil hd]
    refine ⟨?_, fun hne => absurd hnil hne, fun _ => rfl⟩
    intro span hspan
    exact absurd hspan (Array.not_mem_empty span)
  · have hplace := Document.within_of_expect hleaves hnil hd
    have hroot : (Node.excerpt actual).Of (ofText name text) := by
      rw [Leafy.excerpt_eq_union fun e he => (hleaves e he).toOf]
      exact Excerpt.of_union fun e he => (hleaves e he).toOf
    refine ⟨?_, fun _ => hplace.position?_eq, fun h => absurd h hnil⟩
    intro span hspan highlight hmem
    exact hplace.exists_span hroot hspan hmem

/-- A document with an inclusion has a position where it is too much. -/
theorem reports_of_parse_inclusion :
    ∃ actual, (ofText "a" "#include <a>").parse .builtin = .ok actual ∧
      actual.expect actual = actual.expect inclusionDocument ∧
      ∃ d, actual.expect ⟨[]⟩ = .error d ∧ d.main.code = some .differentCount ∧
        d.main.message = "expected 0 declarations, got 1" ∧ ∃ line column : Nat,
          d.main.excerpt.position? =
            some ("a" ++ ":" ++ toString line ++ ":" ++ toString column) := by
  obtain ⟨actual, hparse, hdetach⟩ := exists_parse_inclusion
  obtain ⟨hcongr, hreports⟩ := reports_of_parse hparse
  obtain ⟨first, hfirst⟩ : ∃ first, actual.declarations = [first] := by
    have hlength := congrArg (fun d : Document => d.declarations.length) hdetach
    simpa [Node.detach, Node.detachAll, inclusionDocument, List.length_eq_one_iff] using hlength
  have hmessage : "expected " ++ toString 0 ++ " declarations, got " ++ toString 1 =
      "expected 0 declarations, got 1" := by decide +kernel
  have hd : actual.expect ⟨[]⟩ = .error (.error .differentCount "expected 0 declarations, got 1"
      (.union (Node.excerpts [first]))) := by
    obtain ⟨declarations⟩ := actual
    cases hfirst
    rw [← hmessage]
    rfl
  refine ⟨actual, hparse, hcongr _ _ ?_, _, hd, rfl, rfl, (hreports _ _ hd).2.1 (by simp [hfirst])⟩
  rw [hdetach]
  rfl

end File
end Kiln
