import Salvage.Event.Wire
import Salvage.Proofs.Json.Reader

/-!
# Messages that are read as they were written

Every message is taken by its reader: the entries that its writer prints fill a draft of it. A size,
an old name or a folder that is left out is read as missing, and so is a parent that is `null`.
-/

namespace Salvage

open Json

/-! ## Numbers in range -/

/-- The numbers of a package have 64 bits. -/
structure PackageInfo.InRange (i : PackageInfo) : Prop where
  id : Text.IntRange.bits64.contains i.id
  parentId : ∀ n ∈ i.parentId, Text.IntRange.bits64.contains n
  size : ∀ n ∈ i.size, Text.IntRange.bits64.contains n

/-- The number of the organization has 32 bits, and all other numbers of a message have 64. -/
structure RestoreMessage.InRange (m : RestoreMessage) : Prop where
  org : Text.IntRange.bits32.contains m.org
  datasetId : Text.IntRange.bits64.contains m.datasetId
  package : m.package.InRange

/-- The numbers of an event have 64 bits. -/
structure Event.InRange (e : Event) : Prop where
  id : Text.IntRange.bits64.contains e.id
  parent : ∀ p ∈ e.parent, Text.IntRange.bits64.contains p.id

variable {nesting : Nat}

/-- An integer of 64 bits is taken as it was printed. -/
theorem takes_int64 {n : Int} (h : Text.IntRange.bits64.contains n) :
    Takes int64 nesting n (printInt n) :=
  takes_integer (by decide) (by decide) "i64" h

/-- An integer of 32 bits is taken as it was printed. -/
theorem takes_int32 {n : Int} (h : Text.IntRange.bits32.contains n) :
    Takes int32 nesting n (printInt n) :=
  takes_integer (by decide) (by decide) "i32" h

/-- A text is taken as it was printed. -/
theorem takes_text (s : String) : Takes text nesting s (printText s) :=
  takes_readText _ s

/-! ## Packages and messages -/

/-- A kind is taken by its label. -/
theorem takes_kind (k : Package.Kind) :
    Takes Package.Kind.reader nesting k (printText k.label) :=
  takes_variant k.lookup_label

/-- A package is taken as it was printed. -/
theorem takes_package {i : PackageInfo} (h : i.InRange) :
    Takes PackageInfo.reader 1 i i.print := by
  have hparent : Takes (optional int64) 0 i.parentId (printOption printInt i.parentId) :=
    takes_printOption (fun n hn => takes_int64 (h.parentId n hn)) fun n _ => starts_printInt n
  let draft (size : Option (Option Int)) : PackageInfo.Draft :=
    ⟨some i.id, some i.nodeId, some i.name, some i.parentId, some i.kind, size⟩
  have hentries : Fills PackageInfo.layout.fields 0 PackageInfo.layout.empty
      [("id", printInt i.id), ("nodeId", printText i.nodeId), ("name", printText i.name),
        ("parentId", printOption printInt i.parentId), ("type", printText i.kind.label)]
      (draft none) :=
    .cons rfl rfl ((takes_int64 h.id).ofReader _) <|
    .cons rfl rfl ((takes_text i.nodeId).ofReader _) <|
    .cons rfl rfl ((takes_text i.name).ofReader _) <|
    .cons rfl rfl (hparent.ofReader _) <|
    .cons rfl rfl ((takes_kind i.kind).ofReader _) (.nil _)
  have hsize : Fills PackageInfo.layout.fields 0 (draft none)
      (entryIfSome "size" printInt i.size) (draft (i.size.map some)) := by
    apply fills_entryIfSome draft
    intro n hn
    have htakes : Takes (optional int64) 0 (some n) (printInt n) :=
      (takes_int64 (h.size n hn)).present (starts_printInt n)
    exact .cons rfl rfl (htakes.ofReader _).orAbsent (.nil _)
  apply takes_printObject (hentries.append hsize)
  rcases i with ⟨_, _, _, _, _, _ | _⟩ <;> rfl

/-- A message is taken as it was printed. -/
theorem takes_message {m : RestoreMessage} (h : m.InRange) :
    Takes RestoreMessage.reader 2 m m.print := by
  have hpackage := takes_package h.package
  have hentries : Fills RestoreMessage.layout.fields 1 RestoreMessage.layout.empty
      [("orgId", printInt m.org), ("datasetId", printInt m.datasetId),
        ("userId", printText m.userId), ("package", m.package.print)]
      ⟨some m.org, some m.datasetId, some m.userId, some m.package⟩ :=
    .cons rfl rfl ((takes_int32 h.org).ofReader _) <|
    .cons rfl rfl ((takes_int64 h.datasetId).ofReader _) <|
    .cons rfl rfl ((takes_text m.userId).ofReader _).orAbsent <|
    .cons rfl rfl (hpackage.ofReader _) (.nil _)
  exact takes_printObject hentries rfl

/-! ## Requests and responses -/

/-- Texts are taken as they were printed. -/
theorem takes_texts (texts : List String) :
    Takes (list text) (nesting + 1) texts (printList (texts.map printText)) :=
  takes_printList (fun s _ => takes_text s) fun s _ => starts_printText s

/-- A request is taken as it was printed. -/
theorem takes_request (r : RestoreRequest) : Takes RestoreRequest.reader 2 r r.print := by
  have hentries : Fills RestoreRequest.layout.fields 1 RestoreRequest.layout.empty
      [("nodeIds", printList (r.nodeIds.map printText))] (some r.nodeIds) :=
    .cons rfl rfl ((takes_texts r.nodeIds).ofReader _) (.nil _)
  exact takes_printObject hentries rfl

/-- A failure is taken as it was printed. -/
theorem takes_failure (f : Failure) : Takes Failure.reader 1 f f.print := by
  have hentries : Fills Failure.layout.fields 0 Failure.layout.empty
      [("id", printText f.id), ("error", printText f.error)] (some f.id, some f.error) :=
    .cons rfl rfl ((takes_text f.id).ofReader _) <|
    .cons rfl rfl ((takes_text f.error).ofReader _) (.nil _)
  exact takes_printObject hentries rfl

/-- Quotes and control characters are printed as escapes. -/
example : String.ofList (Failure.print ⟨"a\"", "\x01"⟩) =
    "\x7b\"id\":\"a\\\"\",\"error\":\"\\u0001\"\x7d" := by
  decide

/-- A response is taken as it was printed. -/
theorem takes_response (r : RestoreResponse) : Takes RestoreResponse.reader 3 r r.print := by
  have hfailures : Takes (list Failure.reader) 2 r.failures
      (printList (r.failures.map Failure.print)) :=
    takes_printList (fun f _ => takes_failure f) fun _ _ => starts_printObject _
  have hentries : Fills RestoreResponse.layout.fields 2 RestoreResponse.layout.empty
      [("success", printList (r.success.map printText)),
        ("failures", printList (r.failures.map Failure.print))]
      (some r.success, some r.failures) :=
    .cons rfl rfl ((takes_texts r.success).ofReader _) <|
    .cons rfl rfl (hfailures.ofReader _) (.nil _)
  exact takes_printObject hentries rfl

/-! ## Events -/

/-- A folder is taken as it was printed. -/
theorem takes_eventParent {p : EventParent} (h : Text.IntRange.bits64.contains p.id) :
    Takes (record EventParent.layout) 1 p p.print := by
  have hentries : Fills EventParent.layout.fields 0 EventParent.layout.empty
      [("id", printInt p.id), ("nodeId", printText p.nodeId), ("name", printText p.name)]
      ⟨some p.id, some p.nodeId, some p.name⟩ :=
    .cons rfl rfl ((takes_int64 h).ofReader _) <|
    .cons rfl rfl ((takes_text p.nodeId).ofReader _) <|
    .cons rfl rfl ((takes_text p.name).ofReader _) (.nil _)
  exact takes_printObject hentries rfl

/-- An event is taken as it was printed. -/
theorem takes_event {e : Event} (h : e.InRange) : Takes Event.reader 2 e e.print := by
  let draft (formerName : Option (Option String)) (parent : Option (Option EventParent)) :
      Event.Draft := ⟨some e.id, some e.nodeId, some e.name, formerName, parent⟩
  have hentries : Fills Event.layout.fields 1 Event.layout.empty
      [("id", printInt e.id), ("nodeId", printText e.nodeId), ("name", printText e.name)]
      (draft none none) :=
    .cons rfl rfl ((takes_int64 h.id).ofReader _) <|
    .cons rfl rfl ((takes_text e.nodeId).ofReader _) <|
    .cons rfl rfl ((takes_text e.name).ofReader _) (.nil _)
  have hformer : Fills Event.layout.fields 1 (draft none none)
      (entryIfSome "originalName" printText e.formerName)
      (draft (e.formerName.map some) none) := by
    apply fills_entryIfSome fun name => draft name none
    intro name _
    have htakes : Takes (optional text) 1 (some name) (printText name) :=
      (takes_text name).present (starts_printText name)
    exact .cons rfl rfl (htakes.ofReader _).orAbsent (.nil _)
  have hparent : Fills Event.layout.fields 1 (draft (e.formerName.map some) none)
      (entryIfSome "parent" EventParent.print e.parent)
      (draft (e.formerName.map some) (e.parent.map some)) := by
    apply fills_entryIfSome fun parent => draft (e.formerName.map some) parent
    intro parent hmem
    have htakes : Takes (optional (record EventParent.layout)) 1 (some parent) parent.print :=
      (takes_eventParent (h.parent parent hmem)).present (starts_printObject _)
    exact .cons rfl rfl (htakes.ofReader _).orAbsent (.nil _)
  apply takes_printObject ((hentries.append hformer).append hparent)
  rcases e with ⟨_, _, _, _ | _, _ | _⟩ <;> rfl

end Salvage
