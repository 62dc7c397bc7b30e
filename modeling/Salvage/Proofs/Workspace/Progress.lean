import Salvage.Proofs.Restoration.Overlap
import Salvage.Proofs.Restoration.Completion
import Salvage.Proofs.Workspace.Redelivery

/-!
# What some deliveries have done together

Deliveries one after another are described by the workspace before all of them: which packages were
brought back, what was counted for their leaves, and which records and markers are gone. None of
that mentions the order of the deliveries. `Progress.next` says that one more delivery is done, unless
a total leaves its range, and what has been done with it.
-/

namespace Salvage

namespace Workspace

open List (Forall₂)
open Restoration (Contested Nameable NamedBack Returned Takes Unrestored WellNamed leaves leafRows
  takenRows)

/-- A workspace in which nothing stands in the way of a delivery: trees of one dataset, trashed
packages behind their prefixes, and content without faults. -/
structure Deliverable (w : Workspace) : Prop where
  forest : w.packages.tables.Forest
  oneDataset : w.packages.tables.OneDataset
  prefixed : ∀ p ∈ w.packages.tables.packages, Unrestored p →
    ∃ old, p.name = Name.deletedPrefix p.nodeId ++ old
  unthrottled : w.content.records.throttled = 0
  faultless : ObjectTable.HasFaults [] false w.content.objects

/-- Different packages of a workspace that are marked for restoring. -/
structure Marked (w : Workspace) (ps : List Package) : Prop where
  nodup : ps.Nodup
  row : ∀ p ∈ ps, p ∈ w.packages.tables.packages
  state : ∀ p ∈ ps, p.state = .restoring

/-- The size of a leaf: the sum of its source files, or the size on its delete record, or nothing. -/
def ownSize (w : Workspace) (l : Package) : Int :=
  ((w.packages.tables.fileSum l.id).or
    ((w.content.recordOf l.nodeId).bind DeleteRecord.size)).getD 0

/-- What the leaves that are not restored come to, without the signs of their sizes. -/
def pendingSize (w : Workspace) : Nat :=
  ((leaves (w.packages.tables.packages.filter fun p => Unrestored p)).map fun l =>
    (ownSize w l).natAbs).sum

/-- No total can leave its range, however many leaves that are not restored are counted: all totals
have room for all of them together, and the source files have sums that fit. -/
structure Fits (w : Workspace) : Prop where
  files : w.packages.tables.FilesFit
  room : w.packages.tables.Room (pendingSize w)

/-- The totals after some leaves were counted, each with its own size. -/
structure Counted (w : Workspace) (ls : List Package) (v : Workspace) : Prop where
  packages : ∀ id, v.packages.tables.packageStorage.get id =
    w.packages.tables.packageStorage.get id +
      (ls.map fun l => ownSize w l * (l.id :: w.packages.tables.above l.parentId).count id).sum
  datasets : ∀ id, v.packages.tables.datasetStorage.get id =
    w.packages.tables.datasetStorage.get id +
      (ls.map fun l => if id = l.datasetId then ownSize w l else 0).sum
  organizations : ∀ id, v.packages.tables.organizationStorage.get id =
    w.packages.tables.organizationStorage.get id +
      if id = w.packages.org then (ls.map (ownSize w)).sum else 0

/-- The names that the package with a number has or may get back: its own name and, if it is not
restored, the candidates with the tokens of the messages for some packages. -/
def Permitted (token : Int → Int → String) (ps : List Package) (t : Tables) (id : Int)
    (name : String) : Prop :=
  ∃ p ∈ t.packages, p.id = id ∧ (name = p.name ∨ Unrestored p ∧
    ∃ old, Name.former p.name p.nodeId = .ok old ∧
      ∃ target ∈ ps, name ∈ Name.candidates old (token target.id p.id))

/-- No name with a token that a message may come to is one that a sibling has or may get back. -/
def FallbacksFree (token : Int → Int → String) (ps : List Package) (t : Tables) : Prop :=
  ∀ target ∈ ps, ∀ p ∈ t.packages, Unrestored p →
    ∀ old, Name.former p.name p.nodeId = .ok old →
      ¬ Contested (Permitted token ps t) t p (Name.marked old (token target.id p.id))

instance (e : Except Error String) (P : String → Prop) [DecidablePred P] :
    Decidable (∃ old, e = .ok old ∧ P old) :=
  match e with
  | .ok old => decidable_of_iff (P old) (by simp)
  | .error _ => isFalse (by simp)

instance (e : Except Error String) (P : String → Prop) [DecidablePred P] :
    Decidable (∀ old, e = .ok old → P old) :=
  match e with
  | .ok old => decidable_of_iff (P old) (by simp)
  | .error _ => isTrue (by simp)

instance (token : Int → Int → String) (ps : List Package) (t : Tables) (id : Int) (name : String) :
    Decidable (Permitted token ps t id name) :=
  inferInstanceAs (Decidable (∃ p ∈ t.packages, _ ∧ (_ ∨ _ ∧ ∃ old, _ = Except.ok old ∧ _)))

instance (token : Int → Int → String) (ps : List Package) (t : Tables) :
    Decidable (FallbacksFree token ps t) :=
  inferInstanceAs (Decidable (∀ target ∈ ps, ∀ p ∈ t.packages, _ → ∀ old, _ = Except.ok old → _))

/-- A package has got a name back: its old name or, if a sibling has that or may get it back, another
candidate. -/
def GotName (token : Int → Int → String) (ps : List Package) (t : Tables) (p q : Package) : Prop :=
  ∃ old, Name.former p.name p.nodeId = .ok old ∧
    (∃ target ∈ ps, q.name ∈ Name.candidates old (token target.id p.id)) ∧
    (q.name = old ∨ Contested (Permitted token ps t) t p old)

/-- What has been done when the messages for some packages were handled. -/
structure Progress (token : Int → Int → String) (ps : List Package) (w : Workspace)
    (handled back : List Package) (v : Workspace) : Prop where
  org : v.packages.org = w.packages.org
  way : v.packages.way = w.packages.way
  files : v.packages.tables.files = w.packages.tables.files
  rows : Forall₂ (fun p q => Returned back p q ∧
    (p ∈ back → GotName token ps w.packages.tables p q))
    w.packages.tables.packages v.packages.tables.packages
  mem_back : ∀ l, l ∈ back ↔ ∃ p ∈ handled, Takes w.packages.tables w.packages.way p l
  nodup : back.Nodup
  counted : Counted w (leaves back) v
  emptied : w.content.Emptied ((leaves back).map Package.nodeId) v.content
  unthrottled : v.content.records.throttled = 0
  faultless : ObjectTable.HasFaults [] false v.content.objects

variable {token : Int → Int → String} {ps handled back ls taken : List Package} {p q l : Package}
  {m : RestoreMessage} {w v a b : Workspace} {events : List Event} {org datasetId : Int}
  {userId : String}

/-! ## Sizes and totals -/

/-- The message for a package carries no size, so each leaf that it brings back has its own. -/
theorem restoredSize_messageFor (hfiles : v.packages.tables.files = w.packages.tables.files)
    (hrecord : v.content.recordOf l.nodeId = w.content.recordOf l.nodeId) :
    restoredSize v (RestoreRequest.messageFor org datasetId userId p) l = ownSize w l := by
  have hsum : v.packages.tables.fileSum l.id = w.packages.tables.fileSum l.id := by
    rw [Tables.fileSum, Tables.fileSum, hfiles]
  have hnone : (if (RestoreRequest.messageFor org datasetId userId p).package.kind.isCollection
      then none else (RestoreRequest.messageFor org datasetId userId p).package.size) = none :=
    ite_self none
  rw [restoredSize, ownSize, hnone, Option.none_or, hsum, ← hrecord]
  rfl

/-- Leaves that are counted after others are counted together with them. -/
theorem Counted.append (h : Counted w ls v) (hcounts : Counts v m a)
    (hleaves : leafRows v.packages.tables v.packages.way m = taken)
    (hsize : ∀ l ∈ taken, restoredSize v m l = ownSize w l)
    (habove : v.packages.tables.above = w.packages.tables.above)
    (hdataset : ∀ l ∈ taken, l.datasetId = m.datasetId) (horg : m.org = w.packages.org) :
    Counted w (ls ++ taken) a := by
  have hsizes : taken.map (restoredSize v m) = taken.map (ownSize w) := List.map_congr_left hsize
  refine ⟨fun id => ?_, fun id => ?_, fun id => ?_⟩
  · have hways : (taken.map fun l =>
        restoredSize v m l * (l.id :: w.packages.tables.above l.parentId).count id) =
        taken.map fun l => ownSize w l * (l.id :: w.packages.tables.above l.parentId).count id :=
      List.map_congr_left fun l hl => by rw [hsize l hl]
    rw [hcounts.packages id, h.packages id, hleaves, habove, hways, Int.add_assoc, List.map_append,
      List.sum_append]
  · have hown : (taken.map fun l => if id = l.datasetId then ownSize w l else 0) =
        taken.map fun l => if id = m.datasetId then ownSize w l else 0 :=
      List.map_congr_left fun l hl => by rw [hdataset l hl]
    have hsum : (taken.map fun l => if id = m.datasetId then ownSize w l else 0).sum =
        if id = m.datasetId then (taken.map (ownSize w)).sum else 0 := by
      split
      · rfl
      · simp
    rw [hcounts.datasets id, h.datasets id, hleaves, hsizes, Int.add_assoc, List.map_append,
      List.sum_append, hown, hsum]
  · rw [hcounts.organizations id, h.organizations id, hleaves, hsizes, horg, Int.add_assoc,
      List.map_append, List.sum_append]
    split
    · rfl
    · rfl

/-- Different packages that are not restored come to no more than all of them. -/
theorem sum_le_pendingSize (hnodup : ls.Nodup)
    (hsub : ∀ l ∈ ls, l ∈ w.packages.tables.packages ∧ Unrestored l) :
    ((leaves ls).map fun l => (ownSize w l).natAbs).sum ≤ pendingSize w := by
  have hpending : ls ⊆ w.packages.tables.packages.filter fun p => Unrestored p := by
    intro l hl
    obtain ⟨hrow, hstate⟩ := hsub l hl
    exact List.mem_filter.2 ⟨hrow, decide_eq_true hstate⟩
  obtain ⟨ordered, hperm, hsublist⟩ := List.subperm_of_subset hnodup hpending
  have hleaves : (leaves ordered).Perm (leaves ls) := hperm.filter _
  rw [← (hleaves.map fun l => (ownSize w l).natAbs).sum_eq]
  exact ((hsublist.filter _).map _).sum_le_sum fun _ _ => Nat.zero_le _

/-- After some leaves of a forest were counted, the totals have room for the rest. -/
theorem Counted.room {n : Nat} (h : Counted w ls v) (hf : w.packages.tables.Forest)
    (hroom : w.packages.tables.Room n) (hrows : ls ⊆ w.packages.tables.packages)
    (hsizes : (ls.map fun l => (ownSize w l).natAbs).sum ≤ n) :
    v.packages.tables.Room (n - (ls.map fun l => (ownSize w l).natAbs).sum) := by
  have hless {f : Package → Int} (hf : ∀ l ∈ ls, (f l).natAbs ≤ (ownSize w l).natAbs) :
      (ls.map f).sum.natAbs ≤ (ls.map fun l => (ownSize w l).natAbs).sum := by
    refine (natAbs_sum_le _).trans ?_
    rw [List.map_map]
    exact List.sum_le_sum hf
  refine ⟨hroom.packages.sub hsizes fun id => ?_, hroom.datasets.sub hsizes fun id => ?_,
    hroom.organizations.sub hsizes fun id => ?_⟩
  · rw [h.packages id, add_sub_cancel_left]
    refine hless fun l hl => ?_
    -- no number lies twice on the way up from a leaf
    have hcount := List.nodup_iff_count_le_one.1
      (hf.keyed.nodup_way (hrows hl) (hf.climbs l.parentId).1) id
    rcases Nat.le_one_iff_eq_zero_or_eq_one.1 hcount with hzero | hone
    · simp [hzero]
    · simp [hone]
  · rw [h.datasets id, add_sub_cancel_left]
    refine hless fun l _ => ?_
    split
    · exact Nat.le_refl _
    · exact Nat.zero_le _
  · rw [h.organizations id, add_sub_cancel_left]
    split
    · exact hless fun l _ => Nat.le_refl _
    · exact Nat.zero_le _

/-- The totals do not depend on the order in which leaves were counted. -/
theorem Counted.sameTotals {ls' : List Package} (ha : Counted w ls a) (hb : Counted w ls' b)
    (hperm : ls.Perm ls') : SameTotals a b := by
  refine ⟨fun id => ?_, fun id => ?_, fun id => ?_⟩
  · rw [ha.packages id, hb.packages id, (hperm.map _).sum_eq]
  · rw [ha.datasets id, hb.datasets id, (hperm.map _).sum_eq]
  · rw [ha.organizations id, hb.organizations id, (hperm.map _).sum_eq]

/-! ## One more delivery -/

/-- Before the first delivery nothing has been done. -/
theorem Progress.start (token : Int → Int → String) (ps : List Package) (hw : Deliverable w) :
    Progress token ps w [] [] w where
  org := rfl
  way := rfl
  files := rfl
  rows := List.forall₂_same.2 fun p _ => ⟨⟨rfl, by simp, fun _ => rfl⟩, by simp⟩
  mem_back := by simp
  nodup := List.nodup_nil
  counted := ⟨by simp [leaves], by simp [leaves], by simp [leaves]⟩
  emptied := w.content.emptied_nil
  unthrottled := hw.unthrottled
  faultless := hw.faultless

/-- A package that is not restored can be given a name back, if no name with a token is taken. -/
theorem nameable_of_unrestored (hw : Deliverable w)
    (hfree : FallbacksFree token ps w.packages.tables) (hin : p ∈ ps)
    (hq : q ∈ w.packages.tables.packages) (hstate : Unrestored q) :
    Nameable (Permitted token ps w.packages.tables) w.packages.tables (token p.id q.id)
      (PackageInfo.ofPackage q) := by
  obtain ⟨old, hname⟩ := hw.prefixed q hq hstate
  have hformer : Name.former q.name q.nodeId = .ok old := by
    rw [hname]
    exact Name.former_deletedPrefix q.nodeId old
  refine ⟨⟨q, hq, rfl⟩, old, hname, _, _, [], rfl, fun name hmem => ?_, fun r hr hid => ?_⟩
  · exact ⟨q, hq, rfl, .inr ⟨hstate, old, hformer, p, hin, hmem⟩⟩
  · obtain rfl := hw.forest.keyed.eq_of_id hr hq hid
    exact hfree p hin r hr hstate old hformer

/-- The rows after one more delivery: what is brought back then gets a name back, and what was
brought back before is left alone. -/
theorem rows_next {t u u' : Tables} {target : Package} (hin : target ∈ ps)
    (hrows : Forall₂ (fun p q => Returned back p q ∧ (p ∈ back → GotName token ps t p q))
      t.packages u.packages)
    (hreturned : Forall₂ (Returned taken) u.packages u'.packages)
    (hnamed : Forall₂ (NamedBack (Permitted token ps t) u (token target.id)
      (taken.map PackageInfo.ofPackage)) u.packages u'.packages) :
    Forall₂ (fun p q => Returned (back ++ taken) p q ∧
      (p ∈ back ++ taken → GotName token ps t p q)) t.packages u'.packages := by
  have hretouched := hrows.imp fun _ _ hpq => hpq.1.retouched
  refine (forall₂_comp hrows (hreturned.mp (fun _ _ => And.intro) hnamed)).imp fun p r hgiven => ?_
  obtain ⟨q, ⟨hpq, hgot⟩, hqr, hname⟩ := hgiven
  refine ⟨hpq.trans hqr, fun hmem => ?_⟩
  by_cases hback : p ∈ back
  · obtain rfl : r = q := hqr.other fun htaken =>
      Restoration.not_unrestored_of_restored (hpq.back hback).2.1 (hqr.back htaken).1
    exact hgot hback
  · obtain rfl : q = p := hpq.other hback
    have htaken := (List.mem_append.1 hmem).resolve_left hback
    obtain ⟨old, hformer, hcandidate, hconflict⟩ :=
      hname.given (PackageInfo.ofPackage q) (List.mem_map_of_mem htaken) rfl
    exact ⟨old, hformer, ⟨target, hin, hcandidate⟩, hconflict.imp_right (.of_rows hretouched rfl)⟩

namespace Progress

section

variable (h : Progress token ps w handled back v)
include h

/-- After deliveries the rows are those that were brought back, and all others as they were. -/
theorem returned : Forall₂ (Returned back) w.packages.tables.packages v.packages.tables.packages :=
  h.rows.imp fun _ _ hpq => hpq.1

/-- After deliveries the rows are the same but for names, states and update times. -/
theorem retouched :
    Forall₂ Package.Retouched w.packages.tables.packages v.packages.tables.packages :=
  h.returned.imp fun _ _ hpq => hpq.retouched

/-- After deliveries all packages are named as they may be. -/
theorem wellNamed : WellNamed (Permitted token ps w.packages.tables) v.packages.tables := by
  intro q hq
  obtain ⟨p, hp, hreturned, hgot⟩ := exists_of_mem_right h.rows hq
  refine ⟨p, hp, hreturned.retouched.id_eq.symm, ?_⟩
  by_cases hback : p ∈ back
  · obtain ⟨old, hformer, hmem, -⟩ := hgot hback
    exact .inr ⟨(hreturned.back hback).1, old, hformer, hmem⟩
  · exact .inl (congrArg Package.name (hreturned.other hback))

/-- A package whose message was not handled yet was not brought back by another message. -/
theorem not_mem_back (hps : Marked w ps) (hin : p ∈ ps) (hnot : p ∉ handled) : p ∉ back := by
  intro hback
  obtain ⟨q, hq, rfl | ⟨-, hcovers⟩⟩ := (h.mem_back p).1 hback
  · exact hnot hq
  · have hstate := hcovers.state
    rw [hps.state p hin] at hstate
    cases hstate

/-- What was brought back are rows that were not restored. -/
theorem row_of_mem_back (hps : Marked w ps) (hsub : handled ⊆ ps) (hl : l ∈ back) :
    l ∈ w.packages.tables.packages ∧ Unrestored l := by
  obtain ⟨q, hq, htakes⟩ := (h.mem_back l).1 hl
  exact ⟨htakes.mem (hps.row q (hsub hq)), htakes.unrestored (hps.state q (hsub hq))⟩

/-- The record of a package that was not brought back yet is as it was. -/
theorem recordOf_eq (hw : Deliverable w) (hps : Marked w ps) (hsub : handled ⊆ ps)
    (hl : l ∈ w.packages.tables.packages) (hnot : l ∉ back) :
    l.nodeId ∉ (leaves back).map Package.nodeId ∧
      v.content.recordOf l.nodeId = w.content.recordOf l.nodeId := by
  have hother : l.nodeId ∉ (leaves back).map Package.nodeId := by
    intro hmem
    obtain ⟨b, hb, hnode⟩ := List.mem_map.1 hmem
    have hin := List.mem_of_mem_filter hb
    exact hnot (hw.forest.eq_of_nodeId (h.row_of_mem_back hps hsub hin).1 hl hnode ▸ hin)
  exact ⟨hother, (h.emptied.recordOf_eq l.nodeId).trans (if_neg hother)⟩

variable (hw : Deliverable w)
include hw

/-- Deliveries leave a forest of packages. -/
theorem forest : v.packages.tables.Forest :=
  hw.forest.of_rows h.retouched

variable (hps : Marked w ps) (hsub : handled ⊆ ps) (hin : p ∈ ps) (hnot : p ∉ handled)
include hps hin hnot

/-- A message that was not handled yet claims its package. -/
theorem claimed (userId : String) :
    Restoration.claimed? v.packages.tables
      (RestoreRequest.messageFor w.packages.org p.datasetId userId p) = some p :=
  Restoration.claimed_of_not_mem_back h.returned (h.forest hw).toDistinct (hps.row p hin)
    (h.not_mem_back hps hin hnot) (hps.state p hin) rfl rfl

include hsub

/-- A message takes what it takes from the start and was not brought back yet. -/
theorem mem_taken_iff (userId : String) :
    l ∈ takenRows v.packages.tables v.packages.way
        (RestoreRequest.messageFor w.packages.org p.datasetId userId p) ↔
      Takes w.packages.tables w.packages.way p l ∧ l ∉ back := by
  rw [Restoration.mem_takenRows_iff (h.forest hw) (h.claimed hw hps hin hnot userId) rfl, h.way]
  refine Restoration.takes_iff h.returned (fun l hl => ?_) hw.forest (hps.row p hin)
    (hps.state p hin) (h.not_mem_back hps hin hnot)
  obtain ⟨q, hq, htakes⟩ := (h.mem_back l).1 hl
  exact ⟨q, hps.row q (hsub hq), hps.state q (hsub hq), fun heq => hnot (heq ▸ hq), htakes⟩

/-- What a message takes can be given a name back. -/
theorem nameable (hfree : FallbacksFree token ps w.packages.tables) (userId : String)
    (hl : l ∈ takenRows v.packages.tables v.packages.way
      (RestoreRequest.messageFor w.packages.org p.datasetId userId p)) :
    Nameable (Permitted token ps w.packages.tables) v.packages.tables (token p.id l.id)
      (PackageInfo.ofPackage l) := by
  obtain ⟨htakes, -⟩ := (h.mem_taken_iff hw hps hsub hin hnot userId).1 hl
  have hstart := nameable_of_unrestored hw hfree hin (htakes.mem (hps.row p hin))
    (htakes.unrestored (hps.state p hin))
  exact hstart.of_rows h.retouched

/-- The leaves that a message brings back are rows of its dataset, and their sizes are those from the
start. -/
theorem of_mem_leaves (userId : String)
    (hl : l ∈ leaves (takenRows v.packages.tables v.packages.way
      (RestoreRequest.messageFor w.packages.org p.datasetId userId p))) :
    l ∈ w.packages.tables.packages ∧ l.datasetId = p.datasetId ∧
      l.nodeId ∉ (leaves back).map Package.nodeId ∧
      restoredSize v (RestoreRequest.messageFor w.packages.org p.datasetId userId p) l =
        ownSize w l := by
  obtain ⟨htakes, hnot'⟩ :=
    (h.mem_taken_iff hw hps hsub hin hnot userId).1 (List.mem_of_mem_filter hl)
  have hrow := htakes.mem (hps.row p hin)
  obtain ⟨hother, hrecord⟩ := h.recordOf_eq hw hps hsub hrow hnot'
  exact ⟨hrow, htakes.datasetId_eq hw.oneDataset hw.forest.keyed (hps.row p hin), hother,
    restoredSize_messageFor h.files hrecord⟩

/-- What was brought back and what a message takes then are different packages, and none of them was
restored at the start. -/
theorem back_append_taken (userId : String) :
    (back ++ takenRows v.packages.tables v.packages.way
      (RestoreRequest.messageFor w.packages.org p.datasetId userId p)).Nodup ∧
    ∀ l ∈ back ++ takenRows v.packages.tables v.packages.way
      (RestoreRequest.messageFor w.packages.org p.datasetId userId p),
      l ∈ w.packages.tables.packages ∧ Unrestored l := by
  have hmem (l : Package) := h.mem_taken_iff (l := l) hw hps hsub hin hnot userId
  constructor
  · refine h.nodup.append (Restoration.nodup_takenRows (h.forest hw) v.packages.way _) ?_
    exact fun l hback htaken => ((hmem l).1 htaken).2 hback
  · intro l hl
    rcases List.mem_append.1 hl with hback | htaken
    · exact h.row_of_mem_back hps hsub hback
    · obtain ⟨htakes, -⟩ := (hmem l).1 htaken
      exact ⟨htakes.mem (hps.row p hin), htakes.unrestored (hps.state p hin)⟩

/-- The leaves of a message that was not handled yet are brought back, unless the totals had no room
from the start. -/
theorem leavesDone (userId : String) :
    Restoration.LeavesDone (¬ Fits w)
      (RestoreRequest.messageFor w.packages.org p.datasetId userId p) v.packages.begin v.content := by
  refine Restoration.leavesDone_unless (h.forest hw) (fun hfits => ?_) h.unthrottled h.faultless
  have hclaimed := h.claimed hw hps hin hnot userId
  have hkept (l : Package) := h.of_mem_leaves (l := l) hw hps hsub hin hnot userId
  obtain ⟨hnodup, hrows⟩ := h.back_append_taken hw hps hsub hin hnot userId
  have hall := sum_le_pendingSize hnodup hrows
  have hback := sum_le_pendingSize h.nodup fun l hl => h.row_of_mem_back hps hsub hl
  rw [leaves, List.filter_append, List.map_append, List.sum_append] at hall
  have hfiles : v.packages.tables.FilesFit := by
    rw [Tables.FilesFit, h.files]
    exact hfits.files
  have hroom := h.counted.room hw.forest hfits.room
    (fun l hl => (h.row_of_mem_back hps hsub (List.mem_of_mem_filter hl)).1) hback
  have hsizes : ((leafRows v.packages.tables v.packages.way
      (RestoreRequest.messageFor w.packages.org p.datasetId userId p)).map fun l =>
        (restoredSize v (RestoreRequest.messageFor w.packages.org p.datasetId userId p) l).natAbs).sum
      ≤ pendingSize w - ((leaves back).map fun l => (ownSize w l).natAbs).sum := by
    rw [Restoration.leafRows_eq_leaves hclaimed rfl,
      List.map_congr_left fun l hl => by rw [(hkept l hl).2.2.2]]
    exact Nat.le_sub_of_add_le' hall
  exact ⟨hfiles, _, hroom, hsizes⟩

/-- The delivery of a message that was not handled yet is done, unless the totals had no room from the
start. -/
theorem doneUnless (hfree : FallbacksFree token ps w.packages.tables) (userId : String) :
    Action.DoneUnless (¬ Fits w) (restore (token p.id)
      (RestoreRequest.messageFor w.packages.org p.datasetId userId p)) v := by
  refine doneUnless_restore_of_flow h.org.symm ?_
  refine Restoration.doneUnless_restore (h.forest hw) (h.claimed hw hps hin hnot userId) rfl ?_
    h.wellNamed (fun l hl => h.nameable hw hps hsub hin hnot hfree userId hl)
    (h.leavesDone hw hps hsub hin hnot userId)
  intro l hl
  obtain ⟨htakes, -⟩ := (h.mem_taken_iff hw hps hsub hin hnot userId).1 hl
  exact htakes.datasetId_eq hw.oneDataset hw.forest.keyed (hps.row p hin)

end

/-- Once one more delivery is done, what it takes was brought back too, beside all that was before. -/
theorem next (h : Progress token ps w handled back v) (hw : Deliverable w) (hps : Marked w ps)
    (hsub : handled ⊆ ps) (hin : p ∈ ps) (hnot : p ∉ handled)
    (hfree : FallbacksFree token ps w.packages.tables)
    (hrun : restore (token p.id) (RestoreRequest.messageFor w.packages.org p.datasetId userId p) v =
      (.done events, a)) :
    ∃ back', Progress token ps w (handled ++ [p]) back' a := by
  have hforest := h.forest hw
  have hclaimed := h.claimed hw hps hin hnot userId
  have hcounts := (counts_of_restore hforest.keyed hrun).2
  obtain ⟨-, tx, content, hflow, rfl⟩ := restore_eq_done.1 hrun
  obtain ⟨-, hreturned, -⟩ := Restoration.rows_restore hforest hflow
  have hnames := Restoration.names_restore h.wellNamed
    (fun l hl => h.nameable hw hps hsub hin hnot hfree userId hl) hforest hflow
  obtain ⟨_, _, _, hrest⟩ := Restoration.rest_restore hforest.keyed hflow
  have hfiles : tx.working.files = v.packages.tables.files := (congrArg Tables.files hrest :)
  have hfreed := Restoration.unthrottled_restore hforest.keyed h.unthrottled h.faultless hflow
  obtain ⟨found, hcleared⟩ := Restoration.restore_cleared hforest.keyed hflow
  have hleaves := Restoration.leafRows_eq_leaves hclaimed rfl v.packages.way
  obtain ⟨hnodup, -⟩ := h.back_append_taken hw hps hsub hin hnot userId
  have hmem (l : Package) := h.mem_taken_iff (l := l) hw hps hsub hin hnot userId
  have hkept (l : Package) := h.of_mem_leaves (l := l) hw hps hsub hin hnot userId
  change Content.Cleared ((leafRows v.packages.tables v.packages.way _).map _) _ _ _ at hcleared
  change Forall₂ (Returned (takenRows v.packages.tables v.packages.way _)) _ _ at hreturned
  change Forall₂ (NamedBack _ _ _ ((takenRows v.packages.tables v.packages.way _).map _)) _ _
    at hnames
  rw [hleaves] at hcleared
  generalize takenRows v.packages.tables v.packages.way _ = taken at *
  have habove := Tables.above_eq_of_rows h.retouched
  have hall : leaves (back ++ taken) = leaves back ++ leaves taken := List.filter_append _ _
  refine ⟨back ++ taken, ?_⟩
  rw [report_eq] at hcounts ⊢
  refine ⟨h.org, h.way, hfiles.trans h.files, rows_next hin h.rows hreturned hnames, ?_, ?_, ?_,
    ?_, hfreed, ?_⟩
  · intro l
    have hlast : (∃ q ∈ handled ++ [p], Takes w.packages.tables w.packages.way q l) ↔
        l ∈ back ∨ Takes w.packages.tables w.packages.way p l := by
      simp only [List.mem_append, List.mem_singleton, or_and_right, exists_or, exists_eq_left,
        h.mem_back]
    rw [hlast, List.mem_append, hmem]
    by_cases hback : l ∈ back <;> simp [hback]
  · exact hnodup
  · rw [hall]
    exact h.counted.append hcounts hleaves (fun l hl => (hkept l hl).2.2.2) habove
      (fun l hl => (hkept l hl).2.1) rfl
  · rw [hall, List.map_append]
    refine h.emptied.trans hcleared.emptied fun n hn => ?_
    obtain ⟨l, hl, rfl⟩ := List.mem_map.1 hn
    exact (hkept l hl).2.2.1
  · have hfaults := hcleared.faults
    rw [h.faultless.1, h.faultless.2] at hfaults
    exact hfaults

end Progress

end Workspace

end Salvage
