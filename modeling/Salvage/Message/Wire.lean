import Salvage.Json.Reader
import Salvage.Json.Printer
import Salvage.Message
import Salvage.Package.State
import Salvage.Tables.Traversal

/-!
# Messages as JSON

How messages are written and read. Writers leave out sizes that are not known; readers accept the
fields in any order, ignore fields they do not know, and take an absent user or size as empty.
-/

namespace Salvage

open Json

/-- A field that may be missing. -/
def Json.orMissing {α : Type} (a : Option (Option α)) : Option α :=
  a.getD none

/-- A kind of package by its label. -/
def Package.Kind.reader : Reader Package.Kind :=
  variant Package.Kind.labelled

/-- A state by its name. -/
def Package.State.reader : Reader Package.State :=
  variant Package.State.named

/-- A way below a package by its name. -/
def Traversal.reader : Reader Traversal :=
  variant [("stop_at_non_matching", .bounded), ("entire_subtree", .entireSubtree)]

/-- What is read of a package so far. -/
structure PackageInfo.Draft where
  id : Option Int := none
  nodeId : Option String := none
  name : Option String := none
  parentId : Option (Option Int) := none
  kind : Option Package.Kind := none
  size : Option (Option Int) := none

/-- The fields of a package. -/
def PackageInfo.layout : Layout PackageInfo.Draft PackageInfo where
  title := "RestorePackageInfo"
  fields := [
    .ofReader "id" (·.id) (fun a s => { s with id := some a }) int64,
    .ofReader "nodeId" (·.nodeId) (fun a s => { s with nodeId := some a }) text,
    .ofReader "name" (·.name) (fun a s => { s with name := some a }) text,
    .ofReader "parentId" (·.parentId) (fun a s => { s with parentId := some a }) (optional int64),
    .ofReader "type" (·.kind) (fun a s => { s with kind := some a }) Package.Kind.reader,
    (.ofReader "size" (·.size) (fun a s => { s with size := some a }) (optional int64)
      : FieldReader PackageInfo.Draft).orAbsent]
  empty := {}
  finish s := do
    return ⟨← require "id" s.id, ← require "nodeId" s.nodeId, ← require "name" s.name,
      orMissing s.parentId, ← require "type" s.kind, orMissing s.size⟩

/-- Reads a package. -/
def PackageInfo.reader : Reader PackageInfo := record PackageInfo.layout

/-- Writes a package. -/
def PackageInfo.print (i : PackageInfo) : List Char :=
  printObject <| [("id", printInt i.id), ("nodeId", printText i.nodeId), ("name", printText i.name),
    ("parentId", printOption printInt i.parentId), ("type", printText i.kind.label)] ++
    entryIfSome "size" printInt i.size

/-- What is read of a message so far. -/
structure RestoreMessage.Draft where
  org : Option Int := none
  datasetId : Option Int := none
  userId : Option String := none
  package : Option PackageInfo := none

/-- The fields of a message. -/
def RestoreMessage.layout : Layout RestoreMessage.Draft RestoreMessage where
  title := "RestorePackageMessage"
  fields := [
    .ofReader "orgId" (·.org) (fun a s => { s with org := some a }) int32,
    .ofReader "datasetId" (·.datasetId) (fun a s => { s with datasetId := some a }) int64,
    (.ofReader "userId" (·.userId) (fun a s => { s with userId := some a }) text
      : FieldReader RestoreMessage.Draft).orAbsent,
    .ofReader "package" (·.package) (fun a s => { s with package := some a }) PackageInfo.reader]
  empty := {}
  finish s := do
    return ⟨← require "orgId" s.org, ← require "datasetId" s.datasetId, s.userId.getD "",
      ← require "package" s.package⟩

/-- Reads a message. -/
def RestoreMessage.reader : Reader RestoreMessage := record RestoreMessage.layout

/-- Writes a message. -/
def RestoreMessage.print (m : RestoreMessage) : List Char :=
  printObject [("orgId", printInt m.org), ("datasetId", printInt m.datasetId),
    ("userId", printText m.userId), ("package", m.package.print)]

/-- The fields of a request. -/
def RestoreRequest.layout : Layout (Option (List String)) RestoreRequest where
  title := "RestoreRequest"
  fields := [.ofReader "nodeIds" id (fun a _ => some a) (list text)]
  empty := none
  finish s := do return ⟨← require "nodeIds" s⟩

/-- Reads a request. -/
def RestoreRequest.reader : Reader RestoreRequest := record RestoreRequest.layout

/-- Writes a request. -/
def RestoreRequest.print (r : RestoreRequest) : List Char :=
  printObject [("nodeIds", printList (r.nodeIds.map printText))]

/-- The fields of a failure. -/
def Failure.layout : Layout (Option String × Option String) Failure where
  title := "Failure"
  fields := [
    .ofReader "id" Prod.fst (fun a s => (some a, s.2)) text,
    .ofReader "error" Prod.snd (fun a s => (s.1, some a)) text]
  empty := (none, none)
  finish s := do return ⟨← require "id" s.1, ← require "error" s.2⟩

/-- Reads a failure. -/
def Failure.reader : Reader Failure := record Failure.layout

/-- Writes a failure. -/
def Failure.print (f : Failure) : List Char :=
  printObject [("id", printText f.id), ("error", printText f.error)]

/-- The fields of a response. -/
def RestoreResponse.layout :
    Layout (Option (List String) × Option (List Failure)) RestoreResponse where
  title := "RestoreResponse"
  fields := [
    .ofReader "success" Prod.fst (fun a s => (some a, s.2)) (list text),
    .ofReader "failures" Prod.snd (fun a s => (s.1, some a)) (list Failure.reader)]
  empty := (none, none)
  finish s := do return ⟨← require "success" s.1, ← require "failures" s.2⟩

/-- Reads a response. -/
def RestoreResponse.reader : Reader RestoreResponse := record RestoreResponse.layout

/-- Writes a response. -/
def RestoreResponse.print (r : RestoreResponse) : List Char :=
  printObject [("success", printList (r.success.map printText)),
    ("failures", printList (r.failures.map Failure.print))]

end Salvage
