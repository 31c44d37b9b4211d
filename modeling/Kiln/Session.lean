import Kiln.Check
import Kiln.Files.Reading
import Kiln.Grammar.Document
import Kiln.NameTable
import Kiln.Report.Log
import Kiln.Settings

/-!
# Sessions

A session loads, reads and checks files with one set of settings, one front end and one list
of checks.  It keeps the last document of each file name and logs what goes wrong: a step that
fails logs one diagnostic, a step that succeeds logs none.
-/

namespace Kiln

/-- How a file is read: its items, and the document made of them.  With a registry the items
are those of `File.items`; with other handlers of directives they may be of another type. -/
structure FrontEnd (ι : Type) where
  scan : File → Except Diagnostic ι
  document : File → ι → Except Diagnostic Document

namespace FrontEnd

/-- The front end with the directives of a registry. -/
def ofRegistry (registry : Registry) : FrontEnd (List Item) :=
  ⟨File.items registry, File.documentOfItems⟩

/-- Reads the document of a file. -/
def parse {ι : Type} (frontEnd : FrontEnd ι) (file : File) : Except Diagnostic Document :=
  (frontEnd.scan file).bind (frontEnd.document file)

/-- With a registry this is `File.parse`. -/
theorem parse_ofRegistry (registry : Registry) (file : File) :
    (ofRegistry registry).parse file = file.parse registry := rfl

end FrontEnd

/-- The state of a session whose items are of type `ι`. -/
structure SessionOver (ι : Type) where
  settings : Settings
  frontEnd : FrontEnd ι
  checks : List Check
  cache : NameTable Document
  log : Log

/-- A session with a registry. -/
abbrev Session := SessionOver (List Item)

/-- The report of a file that could not be read. -/
def unreadable (path : String) (failure : ReadFailure) : Diagnostic :=
  (Diagnostic.error .unreadableSource ("cannot read `" ++ path ++ "`") (.ofFile path)).withNote
    failure.message

/-- Reads a file of a file system; its name is the path. -/
def Files.read (files : Files) (path : String) : Except Diagnostic File :=
  match files path with
  | .ok octets => .ok (.ofOctets path octets)
  | .error failure => .error (unreadable path failure)

namespace SessionOver

variable {ι : Type}

/-- A session that has done nothing yet. -/
def fresh (settings : Settings) (frontEnd : FrontEnd ι) (checks : List Check) : SessionOver ι :=
  ⟨settings, frontEnd, checks, .empty, .empty settings.threshold⟩

/-- Logs a diagnostic. -/
def report (s : SessionOver ι) (d : Diagnostic) : SessionOver ι :=
  { s with log := (s.log.add d).1 }

/-- Logs the diagnostic of a step that failed. -/
def settle {α : Type} (s : SessionOver ι) (outcome : Except Diagnostic α) :
    Option α × SessionOver ι :=
  match outcome with
  | .ok a => (some a, s)
  | .error d => (none, s.report d)

/-- Loads a file; its name is the path. -/
def load (s : SessionOver ι) (files : Files) (path : String) : Option File × SessionOver ι :=
  s.settle (files.read path)

/-- Reads the items of a file. -/
def scan (s : SessionOver ι) (file : File) : Option ι × SessionOver ι :=
  s.settle (s.frontEnd.scan file)

/-- Keeps a document under a name. -/
def keep (s : SessionOver ι) (name : String) (d : Document) : SessionOver ι :=
  { s with cache := s.cache.insert name d }

/-- Reads the document of a file and keeps it under the file's name. -/
def parse (s : SessionOver ι) (file : File) : Option Document × SessionOver ι :=
  match s.scan file with
  | (none, s) => (none, s)
  | (some items, s) =>
    match s.settle (s.frontEnd.document file items) with
    | (some d, s) => (some d, s.keep file.name d)
    | (none, s) => (none, s)

/-- Runs the checks on a document. -/
def check (s : SessionOver ι) (d : Document) : Bool × SessionOver ι :=
  match Check.firstViolation? s.checks d with
  | none => (true, s)
  | some violation => (false, s.report violation.report)

/-- Loads a file and reads its document. -/
def loadAndParse (s : SessionOver ι) (files : Files) (path : String) :
    Option Document × SessionOver ι :=
  match s.load files path with
  | (some file, s) => s.parse file
  | (none, s) => (none, s)

/-- Loads a file and reads its items. -/
def loadAndScan (s : SessionOver ι) (files : Files) (path : String) :
    Option ι × SessionOver ι :=
  match s.load files path with
  | (some file, s) => s.scan file
  | (none, s) => (none, s)

/-- Loads a file, reads its document and checks it, unless checks are off. -/
def compile (s : SessionOver ι) (files : Files) (path : String) :
    Option Document × SessionOver ι :=
  match s.loadAndParse files path with
  | (none, s) => (none, s)
  | (some d, s) =>
    if s.settings.runChecks then
      match s.check d with
      | (true, s) => (some d, s)
      | (false, s) => (none, s)
    else (some d, s)

end SessionOver

namespace Session

/-- A session with the directives of a registry. -/
def start (settings : Settings) (registry : Registry) (checks : List Check) : Session :=
  .fresh settings (.ofRegistry registry) checks

/-- A session with the built-in directives and the default checks. -/
def ofSettings (settings : Settings) : Session :=
  start settings .builtin Check.defaults

end Session
end Kiln
