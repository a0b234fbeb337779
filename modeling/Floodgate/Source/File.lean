import Floodgate.Json.Printer
import Floodgate.Json.Reader
import Floodgate.Json.Record
import Floodgate.Rule.Document
import Floodgate.Table

/-!
# Rule files

A rule file lists the documents of both kinds. It is read again and again; each time the documents
are compared with those of the time before, and only what differs is reported. A document is
recognised by its id, else by the key of its resource, else by the fields that name its resource
(`documentKey`). A document that is gone is reported as itself, marked as deleted.

A file that cannot be read, or is no rule file, is no reason to drop any rule: it reports nothing.
-/

set_option autoImplicit false

namespace Floodgate

/-! ## Recognising documents -/

/-- The text of a member, empty if there is none. -/
def memberText (document : Json) (name : String) : String :=
  ((document.get? name).map Json.render).getD ""

/-- What a document is recognised by. -/
def documentKey (document : Json) : String :=
  match document.get? "id" with
  | some .null | none =>
    match document.get? "resourceId" with
    | some (.str key) => "resource:" ++ key
    | _ =>
      let service :=
        if (document.get? "service").isSome then memberText document "service"
        else memberText document "resource"
      "fields:" ++ memberText document "type" ++ "|" ++ memberText document "app" ++
        "|" ++ service ++ "|" ++ memberText document "path"
  | some id => "id:" ++ id.render

/-- What a document is recognised by, among documents of both kinds. -/
def RawRule.fileKey (raw : RawRule) : RuleKind × String := (raw.kind, documentKey raw.document)

/-- The document marked as deleted, if it is an object. -/
def RawRule.markDeleted (raw : RawRule) : RawRule :=
  { raw with document := raw.document.set "isDeleted" (.int 1) }

/-! ## Comparing with the last time -/

/-- The documents as of the last reading. -/
abbrev KnownDocuments := Table (RuleKind × String) Json

namespace KnownDocuments

/-- The documents of a list. Of two with the same key the later one counts. -/
def ofList (raws : List RawRule) : KnownDocuments :=
  raws.foldl (fun known raw => known.insert raw.fileKey raw.document) .empty

/-- Whether a document is known as it is. -/
def isKnown (known : KnownDocuments) (raw : RawRule) : Bool :=
  (known.get? raw.fileKey).any (· == raw.document)

/-- The documents of a list that are new or differ. -/
def changed (known : KnownDocuments) (raws : List RawRule) : List RawRule :=
  raws.filter fun raw => !known.isKnown raw

/-- The known documents that are not in a list, marked as deleted, in no particular order. -/
def removed (known : KnownDocuments) (raws : List RawRule) : List RawRule :=
  let gone := known.filter fun key _ => !(ofList raws).contains key
  gone.entries.map fun e => { kind := e.1.1, document := e.2 : RawRule }.markDeleted

/-- What has changed in the documents, changes first. -/
def diff (known : KnownDocuments) (raws : List RawRule) : List RawRule :=
  known.changed raws ++ known.removed raws

end KnownDocuments

/-! ## The file -/

/-- Why a rule source could not be read. -/
inductive SourceError where
  /-- There is no text. -/
  | unavailable
  /-- The text is no rule file. -/
  | unreadable
  deriving DecidableEq, Repr

namespace RuleFile

/-- The lists of documents in a rule file. -/
def fields : List Json.Field := [{ name := "rateLimits" }, { name := "degradeRules" }]

/-- The documents of a list in a rule file, which lies in the record of the file. -/
def documents? : Json → Option (List Json)
  | .arr items => items.mapM (Json.value? 2)
  | _ => none

/-- The documents of a rule file, limit rules first. -/
def read? (text : String) : Option (List RawRule) := do
  let r ← Json.Record.ofJson? fields (← Json.read? text)
  let limits ← r.defaulted "rateLimits" [] documents?
  let degrades ← r.defaulted "degradeRules" [] documents?
  return limits.map (RawRule.mk .rateLimit) ++ degrades.map (RawRule.mk .degrade)

end RuleFile

/-- A rule file that is read again and again. Its text is `none` while it cannot be read. -/
structure FileSource where
  known : KnownDocuments := .empty

namespace FileSource

/-- The documents of the file. -/
def documents (text : Option String) : Except SourceError (List RawRule) :=
  match text with
  | none => .error .unavailable
  | some text =>
    match RuleFile.read? text with
    | some raws => .ok raws
    | none => .error .unreadable

/-- Reads all documents, and remembers them. -/
def load (s : FileSource) (text : Option String) : Except SourceError (List RawRule) × FileSource :=
  match documents text with
  | .ok raws => (.ok raws, { known := KnownDocuments.ofList raws })
  | .error e => (.error e, s)

/-- Reads the file again and reports what has changed: first the documents that are new or differ,
then those that are gone. -/
def poll (s : FileSource) (text : Option String) : (List RawRule × List RawRule) × FileSource :=
  match documents text with
  | .ok raws =>
    ((s.known.changed raws, s.known.removed raws), { known := KnownDocuments.ofList raws })
  | .error _ => (([], []), s)

end FileSource
end Floodgate
