import Kiln.Items

/-!
# Scanning with handlers

A registry gives a name one of two kinds of directive.  A table of handlers is more general:
it gives a name any way of going on behind the head of a directive.  A handler may make
whatever declaration it likes of what follows, leave off at any position of the file, or
never come back.  A scan with such handlers may therefore go on for ever: `File.ScansFrom`
says what comes out of a scan that ends.

A registry is the table of the handlers of its kinds, and what comes out of the scan with
this table are the items of the file (`File.scans_handlers`).
-/

namespace Kiln

/-- A way of reading a directive behind its head; none if this never comes to an end. -/
abbrev Handler := (file : File) → DirectiveHead → Position → Option (Found Declaration)

/-- Directive names and their handlers. -/
abbrev HandlerTable := NameTable Handler

/-- The handler for a kind of directive. -/
def DirectiveKind.handler (kind : DirectiveKind) : Handler := fun file head p =>
  some ((file.directiveOfKindAt kind head p).map .directive)

/-- A registry as a table of handlers. -/
def Registry.handlers (registry : Registry) : HandlerTable :=
  ⟨registry.entries.map fun entry => (entry.1, entry.2.handler)⟩

/-- What a scan with handlers finds. -/
inductive Scanned where
  | token (t : Token)
  /-- What a handler made of a directive. -/
  | declaration (d : Declaration)

/-- Whether it was made by a handler. -/
def Scanned.isDeclaration : Scanned → Bool
  | .token _ => false
  | .declaration _ => true

/-- An item as a scan with handlers finds it. -/
def Item.scanned : Item → Scanned
  | .token t => .token t
  | .directive d => .declaration (.directive d)

namespace File

/-- What the handlers make of the directive at a position that has a hash. -/
def declarationAt (handlers : HandlerTable) (file : File) (p : Position) :
    Option (Found Declaration) :=
  if file.onlyBlanksBefore p then
    let hash : Token := ⟨.punctuation .hash, file.textAt p 1, file.stretch p 1⟩
    let start := p.right 1
    let count := ((file.rest start).takeWhile isDirectiveNamePart).length
    if count = 0 then
      some ⟨.error (DirectiveFault.missingName.report (file.charExcerpt start)), start⟩
    else
      let name : Token := ⟨.identifier, file.textAt start count, file.stretch start count⟩
      let stop := start.right count
      match handlers.find? name.text with
      | none =>
        some ⟨.error ((DirectiveFault.unknownName name.text handlers.names).report name.excerpt),
          stop⟩
      | some handler => handler file ⟨hash, name⟩ stop
  else some ⟨.error (DirectiveFault.misplaced.report (file.charExcerpt p)), p⟩

/-- What a scan finds at a cursor: a declaration if there is a hash, and a token otherwise. -/
def scannedAt (handlers : HandlerTable) (file : File) (c : Cursor file) : Option (Found Scanned) :=
  if c.rest.head? = some '#' then
    (file.declarationAt handlers c.position).map (Found.map .declaration)
  else some ((file.tokenAt c).map .token)

/-- What comes out of a scan from a cursor on. -/
inductive ScansFrom (handlers : HandlerTable) (file : File) :
    Cursor file → Except Diagnostic (List Scanned) → Prop where
  /-- Nothing is left of the file. -/
  | atEnd {c : Cursor file} : c.skipTrivia.atEnd = true → ScansFrom handlers file c (.ok [])
  /-- Something is wrong with what comes first. -/
  | fault {c : Cursor file} {found : Found Scanned} {d : Diagnostic} :
      c.skipTrivia.atEnd = false → file.scannedAt handlers c.skipTrivia = some found →
      found.outcome = .error d → ScansFrom handlers file c (.error d)
  /-- Something is found, and the scan goes on behind it. -/
  | found {c : Cursor file} {found : Found Scanned} {first : Scanned}
      {more : Except Diagnostic (List Scanned)} :
      c.skipTrivia.atEnd = false → file.scannedAt handlers c.skipTrivia = some found →
      found.outcome = .ok first → ScansFrom handlers file (file.cursor found.stop) more →
      ScansFrom handlers file c (more.map (first :: ·))

/-- What comes out of reading a file with handlers for its directives. -/
def Scans (handlers : HandlerTable) (file : File) (result : Except Diagnostic (List Scanned)) :
    Prop :=
  ScansFrom handlers file (file.cursor ⟨0, 0⟩) result

end File

/-! ## Registries as tables of handlers -/

theorem Found.map_map {α β γ : Type} (f : α → β) (g : β → γ) (found : Found α) :
    (found.map f).map g = found.map (g ∘ f) := by
  obtain ⟨outcome, stop⟩ := found
  cases outcome <;> rfl

theorem Found.map_of_ok {α β : Type} {f : α → β} {found : Found α} {a : α}
    (h : found.outcome = .ok a) : (found.map f).outcome = .ok (f a) := by
  rw [map, h, Except.map]

theorem Found.map_of_error {α β : Type} {f : α → β} {found : Found α} {d : Diagnostic}
    (h : found.outcome = .error d) : (found.map f).outcome = .error d := by
  rw [map, h, Except.map]

namespace Registry

theorem find?_handlers (registry : Registry) (name : String) :
    registry.handlers.find? name = (registry.find? name).map DirectiveKind.handler := by
  rw [handlers, NameTable.find?, NameTable.find?, List.find?_map, Option.map_map, Option.map_map]
  rfl

theorem names_handlers (registry : Registry) : registry.handlers.names = registry.names := by
  rw [handlers, NameTable.names, List.map_map]
  rfl

end Registry

namespace File

variable {file : File}

theorem declarationAt_handlers (registry : Registry) (p : Position) :
    file.declarationAt registry.handlers p =
      some ((file.directiveAt registry p).map .directive) := by
  simp only [declarationAt, directiveAt, registry.find?_handlers, registry.names_handlers]
  split
  · split
    · rfl
    · cases registry.find? (file.textAt (p.right 1)
        ((file.rest (p.right 1)).takeWhile isDirectiveNamePart).length) <;> rfl
  · rfl

theorem scannedAt_handlers (registry : Registry) (c : Cursor file) :
    file.scannedAt registry.handlers c = some ((file.itemAt registry c).map Item.scanned) := by
  rw [scannedAt, itemAt]
  split
  · rw [declarationAt_handlers, Option.map_some, Found.map_map, Found.map_map]
    rfl
  · rw [Found.map_map]
    rfl

theorem map_cons_map {ε α β : Type} (f : α → β) (a : α) (more : Except ε (List α)) :
    (more.map (List.map f)).map (f a :: ·) = (more.map (a :: ·)).map (List.map f) := by
  cases more <;> rfl

/-- Only one thing can come out of a scan. -/
theorem ScansFrom.unique {handlers : HandlerTable} {c : Cursor file}
    {result other : Except Diagnostic (List Scanned)} (h : ScansFrom handlers file c result)
    (hother : ScansFrom handlers file c other) : result = other := by
  induction h generalizing other with
  | atEnd hend =>
    cases hother with
    | atEnd => rfl
    | fault hend' => cases hend.symm.trans hend'
    | found hend' => cases hend.symm.trans hend'
  | fault hend hfound hd =>
    cases hother with
    | atEnd hend' => cases hend.symm.trans hend'
    | fault _ hfound' hd' =>
      cases hfound.symm.trans hfound'
      cases hd.symm.trans hd'
      rfl
    | found _ hfound' hfirst' =>
      cases hfound.symm.trans hfound'
      cases hd.symm.trans hfirst'
  | found hend hfound hfirst _ ih =>
    cases hother with
    | atEnd hend' => cases hend.symm.trans hend'
    | fault _ hfound' hd' =>
      cases hfound.symm.trans hfound'
      cases hfirst.symm.trans hd'
    | found _ hfound' hfirst' hmore' =>
      cases hfound.symm.trans hfound'
      cases hfirst.symm.trans hfirst'
      rw [ih hmore']

/-- The items of a file come out of the scan with the handlers of the registry. -/
theorem scans_handlers (registry : Registry) (file : File) :
    file.Scans registry.handlers ((file.items registry).map (List.map Item.scanned)) := by
  rw [Scans, items, readAll]
  generalize file.cursor ⟨0, 0⟩ = c
  fun_induction readAllFrom file (file.itemAt registry) (file.itemAt_advances registry) c with
  | case1 c hend => exact .atEnd hend
  | case2 c hend d hd =>
    rw [Bool.not_eq_true] at hend
    exact .fault hend (scannedAt_handlers registry _) (Found.map_of_error hd)
  | case3 c hend item hitem ih =>
    rw [Bool.not_eq_true] at hend
    rw [Cursor.moveTo_eq] at ih ⊢
    have hscan := ScansFrom.found hend (scannedAt_handlers registry _) (Found.map_of_ok hitem) ih
    rw [map_cons_map] at hscan
    exact hscan

end File
end Kiln
