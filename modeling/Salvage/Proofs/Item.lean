import Salvage.Item
import Salvage.Proofs.Text.Decimal

/-!
# Items that are delete records

Five attributes of an item matter. `DeleteRecord.ofItem_exact` says which items are read as records: four
of the attributes have to be texts, which are kept as they are, and the fifth may be missing or say
nothing, or has to denote an integer of 64 bits. Of any other item the first attribute that is not as it
should be is complained of.
-/

namespace Salvage

/-- What a text or a number is written as. -/
def Attribute.written? : Attribute → Option String
  | .text s => some s
  | .number s => some s
  | _ => none

/-- Only a text and a number are written. -/
theorem Attribute.eq_of_written? {a : Attribute} {s : String} (h : a.written? = some s) :
    a = .text s ∨ a = .number s := by
  cases a with
  | text => exact .inl (congrArg _ (Option.some.inj h))
  | number => exact .inr (congrArg _ (Option.some.inj h))
  | _ => cases h

namespace Item

/-- The names of the attributes that have to be texts, in the order in which they are read. -/
def textNames : List String := [nodeIdName, "S3Bucket", "S3Key", "S3ObjectVersion"]

/-- The name of the attribute with the size. -/
def sizeName : String := "ObjectSize"

/-- The names of the attributes of a delete record, in the order in which they are read. -/
def recordNames : List String := textNames ++ [sizeName]

/-- An attribute that may be missing says that a size is unknown, or what it is. -/
inductive SaysSize : Option Attribute → Option Int → Prop
  | missing : SaysSize none none
  | null {b : Bool} : SaysSize (some (.null b)) none
  | blank {a : Attribute} {s : String} : a.written? = some s → Text.trimmed s.toList = [] →
      SaysSize (some a) none
  | integer {a : Attribute} {s : String} {i : Int} : a.written? = some s →
      Text.Denotes (Text.trimmed s.toList) i → -2 ^ 63 ≤ i → i ≤ 2 ^ 63 - 1 → SaysSize (some a) (some i)

/-- An item has the attributes of a delete record. -/
structure Holds (item : Item) (r : DeleteRecord) : Prop where
  nodeId : item.lookup nodeIdName = some (.text r.nodeId)
  bucket : item.lookup "S3Bucket" = some (.text r.bucket)
  key : item.lookup "S3Key" = some (.text r.key)
  versionId : item.lookup "S3ObjectVersion" = some (.text r.versionId)
  size : SaysSize (item.lookup sizeName) r.size

/-- An attribute of an item is not as it should be, and a message says so. -/
inductive Offends (item : Item) : String → String → Prop
  | missing {name : String} : name ∈ textNames → item.lookup name = none →
      Offends item name s!"attribute {name} missing"
  | notText {name : String} {a : Attribute} : name ∈ textNames → item.lookup name = some a →
      (∀ s, a ≠ .text s) → Offends item name s!"attribute {name} has unexpected type: {a.describe}"
  | notWritten {a : Attribute} : item.lookup sizeName = some a → a.written? = none →
      (∀ b, a ≠ .null b) →
      Offends item sizeName s!"attribute {sizeName} has unexpected type: {a.describe}"
  | notInteger {a : Attribute} {s : String} {fault : Text.FormatError} :
      item.lookup sizeName = some a → a.written? = some s → (∀ size, ¬ SaysSize (some a) size) →
      Offends item sizeName
        s!"invalid {sizeName} {Text.quoted (Text.trim s)}: {fault.message}"

/-- An error complains of the first attribute of an item that is not as it should be. -/
def FirstOffence (item : Item) (e : Error) : Prop :=
  ∃ before name after message, recordNames = before ++ name :: after ∧
    (∀ other ∈ before, ∀ m, ¬ Offends item other m) ∧ Offends item name message ∧
    e = .recordStore message

variable {item : Item} {name s : String} {e : Error} {size : Option Int}

/-! ## Texts -/

/-- A text is read from an attribute that is this text. -/
theorem text_eq_ok_iff : item.text name = .ok s ↔ item.lookup name = some (.text s) := by
  rw [text]
  split
  · rename_i t hlookup
    simp [hlookup]
  · rename_i a hnot hlookup
    rw [hlookup]
    exact iff_of_false (fun h => nomatch h) fun h => hnot _ (Option.some.inj h)
  · rename_i hlookup
    simp [hlookup]

/-- An attribute from which no text is read is not as it should be. -/
theorem offends_of_text (hname : name ∈ textNames) (h : item.text name = .error e) :
    ∃ message, Offends item name message ∧ e = .recordStore message := by
  rw [text] at h
  split at h
  · cases h
  · rename_i a hnot hlookup
    cases h
    exact ⟨_, .notText hname hlookup hnot, rfl⟩
  · rename_i hlookup
    cases h
    exact ⟨_, .missing hname hlookup, rfl⟩

/-- An attribute from which a text is read is as it should be. -/
theorem not_offends_of_text (hname : name ∈ textNames) (h : item.text name = .ok s) (m : String) :
    ¬ Offends item name m := by
  have hlookup := text_eq_ok_iff.1 h
  intro hoffends
  cases hoffends with
  | missing _ hnone => rw [hlookup] at hnone; cases hnone
  | notText _ hsome hnot => exact hnot s (Option.some.inj (hsome.symm.trans hlookup))
  | notWritten => exact absurd hname (by decide)
  | notInteger => exact absurd hname (by decide)

/-! ## The size -/

/-- What a text or number says of a size. -/
theorem saysSize_iff_of_written {a : Attribute} (ha : a.written? = some s) :
    SaysSize (some a) size ↔ Text.trimmed s.toList = [] ∧ size = none ∨
      ∃ i, (Text.Denotes (Text.trimmed s.toList) i ∧ Text.IntRange.bits64.contains i) ∧
        size = some i := by
  simp only [Text.IntRange.contains_bits64_iff]
  constructor
  · intro h
    cases h with
    | null => cases ha
    | blank ha' hblank =>
      obtain rfl := Option.some.inj (ha'.symm.trans ha)
      exact .inl ⟨hblank, rfl⟩
    | integer ha' hdenotes hlow hhigh =>
      obtain rfl := Option.some.inj (ha'.symm.trans ha)
      exact .inr ⟨_, ⟨hdenotes, hlow, hhigh⟩, rfl⟩
  · intro h
    rcases h with ⟨hblank, rfl⟩ | ⟨i, ⟨hdenotes, hlow, hhigh⟩, rfl⟩
    · exact .blank ha hblank
    · exact .integer ha hdenotes hlow hhigh

/-- A size is read from a text that is blank or denotes it. -/
theorem parseSize_eq_ok_iff :
    parseSize s = .ok size ↔ Text.trimmed s.toList = [] ∧ size = none ∨
      ∃ i, (Text.Denotes (Text.trimmed s.toList) i ∧ Text.IntRange.bits64.contains i) ∧
        size = some i := by
  have hsigned : 0 < Text.IntRange.bits64.below := by decide
  simp only [← Text.readInt_eq_ok_iff hsigned]
  unfold parseSize
  split
  · rename_i hblank
    simp [hblank, Text.readInt, eq_comm]
  · rename_i hnot
    have hsome : Text.trimmed s.toList ≠ [] := hnot
    cases Text.readInt .bits64 (Text.trimmed s.toList) with
    | ok n =>
      constructor
      · rintro ⟨⟩
        exact .inr ⟨n, rfl, rfl⟩
      · rintro (⟨hblank, -⟩ | ⟨i, ⟨⟩, rfl⟩)
        · exact absurd hblank hsome
        · rfl
    | error fault => simp [hsome]

/-- A size may have a sign, zeros in front of it and blanks around it. -/
example : parseSize " +007\n" = .ok (some 7) := by decide

/-- The error about a text from which no size is read. -/
theorem parseSize_eq_error (h : parseSize s = .error e) :
    ∃ fault : Text.FormatError,
      e = .recordStore s!"invalid {sizeName} {Text.quoted (Text.trim s)}: {fault.message}" := by
  unfold parseSize at h
  split at h
  · cases h
  · split at h
    · cases h
    · rename_i fault _
      cases h
      exact ⟨fault, rfl⟩

/-- A size is read from an attribute that says it. -/
theorem size_eq_ok_iff : item.size = .ok size ↔ SaysSize (item.lookup sizeName) size := by
  have hname : "ObjectSize" = sizeName := rfl
  unfold Item.size
  rw [hname]
  split
  · rename_i hlookup
    rw [hlookup, saysSize_iff_of_written rfl, parseSize_eq_ok_iff]
  · rename_i hlookup
    rw [hlookup, saysSize_iff_of_written rfl, parseSize_eq_ok_iff]
  · rename_i hlookup
    rw [hlookup]
    constructor
    · rintro ⟨⟩
      exact .null
    · rintro (_ | _ | ⟨ha, _⟩ | ⟨ha, _⟩)
      · rfl
      · cases ha
      · cases ha
  · rename_i hlookup
    rw [hlookup]
    constructor
    · rintro ⟨⟩
      exact .missing
    · rintro ⟨⟩
      rfl
  · rename_i a htext hnumber hnull hlookup
    rw [hlookup]
    refine iff_of_false (fun h => nomatch h) fun h => ?_
    have hnot {s : String} (hwritten : a.written? = some s) : False :=
      (Attribute.eq_of_written? hwritten).elim (htext s) (hnumber s)
    cases h with
    | null => exact hnull _ rfl
    | blank hwritten => exact hnot hwritten
    | integer hwritten => exact hnot hwritten

/-- A text or number from which no size is read is not as it should be. -/
theorem offends_of_parseSize {a : Attribute} (hlookup : item.lookup sizeName = some a)
    (hwritten : a.written? = some s) (h : parseSize s = .error e) :
    ∃ message, Offends item sizeName message ∧ e = .recordStore message := by
  obtain ⟨fault, rfl⟩ := parseSize_eq_error h
  refine ⟨_, .notInteger hlookup hwritten fun size hsays => ?_, rfl⟩
  rw [saysSize_iff_of_written hwritten, ← parseSize_eq_ok_iff, h] at hsays
  cases hsays

/-- An attribute from which no size is read is not as it should be. -/
theorem offends_of_size (h : item.size = .error e) :
    ∃ message, Offends item sizeName message ∧ e = .recordStore message := by
  unfold Item.size at h
  split at h
  · rename_i hlookup
    exact offends_of_parseSize hlookup rfl h
  · rename_i hlookup
    exact offends_of_parseSize hlookup rfl h
  · cases h
  · cases h
  · rename_i a htext hnumber hnull hlookup
    cases h
    have hunwritten : a.written? = none := by
      refine Option.eq_none_iff_forall_ne_some.2 fun s hwritten => ?_
      exact (Attribute.eq_of_written? hwritten).elim (htext s) (hnumber s)
    exact ⟨_, .notWritten hlookup hunwritten hnull, rfl⟩

/-! ## All attributes -/

/-- An item offends first where the first of its attributes cannot be read. -/
theorem firstOffence_of (before after : List String) {message : String}
    (hnames : recordNames = before ++ name :: after)
    (hbefore : ∀ other ∈ before, other ∈ textNames ∧ ∃ s, item.text other = .ok s)
    (hoffends : Offends item name message ∧ e = .recordStore message) : item.FirstOffence e := by
  refine ⟨before, name, after, message, hnames, fun other hother m => ?_, hoffends⟩
  obtain ⟨hname, s, hread⟩ := hbefore other hother
  exact not_offends_of_text hname hread m

/-- The attributes that matter are the same in two items. -/
theorem ofItem_congr {item' : Item}
    (h : ∀ name ∈ recordNames, item'.lookup name = item.lookup name) :
    DeleteRecord.ofItem item' = DeleteRecord.ofItem item := by
  have htext : ∀ name ∈ textNames, item'.text name = item.text name := fun name hname => by
    rw [text, text, h name (List.mem_append_left _ hname)]
  have hsize : item'.size = item.size := by
    unfold Item.size
    rw [show item'.lookup "ObjectSize" = item.lookup "ObjectSize" from h sizeName (by decide)]
  rw [DeleteRecord.ofItem, DeleteRecord.ofItem, htext nodeIdName (by decide),
    htext "S3Bucket" (by decide), htext "S3Key" (by decide), htext "S3ObjectVersion" (by decide), hsize]

end Item

/-- A delete record is read from exactly the items that have its attributes. Of any other item the first
attribute, in the order in which they are read, that is not as it should be is complained of. Attributes
with other names do not matter. -/
theorem DeleteRecord.ofItem_exact (item : Item) :
    (∀ r, ofItem item = .ok r ↔ item.Holds r) ∧
      (∀ e, ofItem item = .error e → item.FirstOffence e) ∧
      ∀ item' : Item, (∀ name ∈ Item.recordNames, item'.lookup name = item.lookup name) →
        ofItem item' = ofItem item := by
  refine ⟨fun r => ?_, fun e h => ?_, fun _ => Item.ofItem_congr⟩
  · simp only [ofItem, bind_eq_ok, Item.text_eq_ok_iff, Item.size_eq_ok_iff]
    constructor
    · rintro ⟨_, hnode, _, hbucket, _, hkey, _, hversion, _, hsize, ⟨⟩⟩
      exact ⟨hnode, hbucket, hkey, hversion, hsize⟩
    · intro hholds
      exact ⟨_, hholds.nodeId, _, hholds.bucket, _, hholds.key, _, hholds.versionId, _, hholds.size, rfl⟩
  · simp only [ofItem, bind_eq_error] at h
    obtain hnode | ⟨_, hnode, hbucket | ⟨_, hbucket, hkey | ⟨_, hkey, hversion | ⟨_, hversion,
      hsize | ⟨_, _, ⟨⟩⟩⟩⟩⟩⟩ := h
    · obtain ⟨_, hoffends⟩ := Item.offends_of_text (by decide) hnode
      exact Item.firstOffence_of [] _ rfl (by simp) hoffends
    · obtain ⟨_, hoffends⟩ := Item.offends_of_text (by decide) hbucket
      refine Item.firstOffence_of [_] _ rfl ?_ hoffends
      simp [hnode, Item.textNames]
    · obtain ⟨_, hoffends⟩ := Item.offends_of_text (by decide) hkey
      refine Item.firstOffence_of [_, _] _ rfl ?_ hoffends
      simp [hnode, hbucket, Item.textNames]
    · obtain ⟨_, hoffends⟩ := Item.offends_of_text (by decide) hversion
      refine Item.firstOffence_of [_, _, _] _ rfl ?_ hoffends
      simp [hnode, hbucket, hkey, Item.textNames]
    · obtain ⟨_, hoffends⟩ := Item.offends_of_size hsize
      refine Item.firstOffence_of [_, _, _, _] _ rfl ?_ hoffends
      simp [hnode, hbucket, hkey, hversion, Item.textNames]

/-- A size with a sign, zeros at its start and blanks around it, in an item with another attribute. -/
theorem DeleteRecord.ofItem_exact_signed :
    ofItem [("Color", .bool true), ("NodeId", .text "n"), ("S3Bucket", .text "b"), ("S3Key", .text "k"),
      ("S3ObjectVersion", .text "v"), ("ObjectSize", .text " -007\n")] =
        .ok ⟨"n", "b", "k", "v", some (-7)⟩ := by
  have htrimmed : Text.trimmed " -007\n".toList = ['-', '0', '0', '7'] := by decide
  have hdigits : ∀ c ∈ ['0', '0', '7'], c.isDigit := by simp
  have hdenotes : Text.Denotes (Text.trimmed " -007\n".toList) (-7) :=
    htrimmed ▸ Text.Denotes.minus (by simp) hdigits
  exact ((ofItem_exact _).1 _).2
    ⟨rfl, rfl, rfl, rfl, .integer (s := " -007\n") rfl hdenotes (by decide) (by decide)⟩

end Salvage
