import Salvage.Proofs.Workspace.Progress

/-!
# Deliveries in any order

The messages for several marked packages are handled one after another. One package may lie below
another, so which message brings a trashed package back depends on the order. What they do together
does not: in every order all of them are done and every package they take is brought back and counted
once. Only the names of packages may differ that some sibling stands in the way of.
-/

namespace Salvage

namespace Workspace

open List (Forall₂)
open Restoration (Contested leaves)

/-- The messages for some packages are handled one after another. The number of the package that a
message is for goes into its tokens. -/
def deliverAll (org : Int) (token : Int → Int → String) (user : Int → String) (ps : List Package) :
    Action Workspace (List (List Event)) :=
  Action.each (fun p => restore (token p.id)
    (RestoreRequest.messageFor org p.datasetId (user p.id) p)) ps

/-- A sibling of the package with a number has its old name, or may get that back. -/
def Conflicted (token : Int → Int → String) (ps : List Package) (t : Tables) (id : Int) : Prop :=
  ∃ p ∈ t.packages, p.id = id ∧ ∃ old, Name.former p.name p.nodeId = .ok old ∧
    Contested (Permitted token ps t) t p old

/-- What two runs agree on: all of the rows but names that there was a conflict about, all totals, the
delete records and the stored versions. -/
structure Agree (conflicted : Int → Prop) (a b : Workspace) : Prop where
  rows : Forall₂ (fun p q => q = p.rename q.name ∧ (q.name = p.name ∨ conflicted p.id))
    a.packages.tables.packages b.packages.tables.packages
  totals : SameTotals a b
  records : a.content.records.records = b.content.records.records
  objects : a.content.objects.objects = b.content.objects.objects

variable {token token' : Int → Int → String} {user : Int → String}
  {ps qs rest handled back back' : List Package} {p q : Package} {w v a b : Workspace}

/-! ## All deliveries are done -/

/-- The messages that were not handled yet are handled, unless the totals had no room from the
start. -/
theorem progress_deliverAll (user : Int → String) (hw : Deliverable w) (hps : Marked w ps)
    (hfree : FallbacksFree token ps w.packages.tables)
    (h : Progress token ps w handled back v) (hall : handled ++ rest ⊆ ps)
    (hnodup : (handled ++ rest).Nodup) :
    (∃ events v' back', deliverAll w.packages.org token user rest v = (.done events, v') ∧
      Progress token ps w (handled ++ rest) back' v') ∨
    (deliverAll w.packages.org token user rest v).1 = .aborted ∧ ¬ Fits w := by
  induction rest generalizing handled back v with
  | nil => exact .inl ⟨[], v, back, rfl, by rwa [List.append_nil]⟩
  | cons p rest ih =>
    have hsub : handled ⊆ ps := fun q hq => hall (List.mem_append_left _ hq)
    have hin : p ∈ ps := hall (List.mem_append_right _ List.mem_cons_self)
    have hnot : p ∉ handled := fun hmem =>
      (List.nodup_append.1 hnodup).2.2 p hmem p List.mem_cons_self rfl
    rcases h.doneUnless hw hps hsub hin hnot hfree (user p.id) with
      ⟨events, v₁, hrun⟩ | ⟨haborted, hfits⟩
    · obtain ⟨back₁, h₁⟩ := h.next hw hps hsub hin hnot hfree hrun
      rw [deliverAll, Action.each_cons_of_done rest hrun, List.append_cons]
      rw [List.append_cons] at hall hnodup
      rcases ih h₁ hall hnodup with ⟨others, v', back', hrest, h'⟩ | ⟨hrest, hfits⟩
      · rw [deliverAll] at hrest
        rw [hrest]
        exact .inl ⟨_, v', back', rfl, h'⟩
      · rw [deliverAll] at hrest
        rw [hrest]
        exact .inr ⟨rfl, hfits⟩
    · have hall : (deliverAll w.packages.org token user (p :: rest) v).1 = .aborted :=
        congrArg Prod.fst (Action.bind_of_aborted (Prod.ext haborted rfl))
      exact .inr ⟨hall, hfits⟩

/-! ## They come to the same -/

/-- A row is another one but for the name if the two agree on what may change. -/
theorem eq_rename_of_fixed (hfixed : q.fixed = p.fixed) (hstate : q.state = p.state)
    (htouched : q.touched = p.touched) : q = p.rename q.name := by
  cases p
  cases q
  simp_all [Package.fixed, Package.rename]

/-- Two runs that have handled the same messages agree. -/
theorem Progress.agree (ha : Progress token ps w handled back a)
    (hb : Progress token' ps w rest back' b) (hperm : handled.Perm rest) :
    Agree (fun id => Conflicted token ps w.packages.tables id ∨
      Conflicted token' ps w.packages.tables id) a b := by
  have hback : back.Perm back' := by
    refine (List.perm_ext_iff_of_nodup ha.nodup hb.nodup).2 fun l => ?_
    simp only [ha.mem_back, hb.mem_back, hperm.mem_iff]
  have hleaves : (leaves back).Perm (leaves back') := hback.filter _
  obtain ⟨hrecords, hobjects⟩ := ha.emptied.unique hb.emptied (hleaves.map _)
  refine ⟨?_, ha.counted.sameTotals hb.counted hleaves, hrecords, hobjects⟩
  have hrows := forall₂_imp_of_mem ha.rows fun p hp q hpq => And.intro hp hpq
  refine (forall₂_comp hrows.flip hb.rows).imp fun q r hgiven => ?_
  obtain ⟨p, ⟨hp, hpq, hgot⟩, hpr, hgot'⟩ := hgiven
  by_cases hin : p ∈ back
  · have hin' := hback.mem_iff.1 hin
    obtain ⟨-, hstate, htouched⟩ := hpq.back hin
    obtain ⟨-, hstate', htouched'⟩ := hpr.back hin'
    have hid := hpq.retouched.id_eq
    refine ⟨eq_rename_of_fixed (hpr.retouched.trans hpq.retouched.symm)
      (hstate'.trans hstate.symm) (htouched'.trans htouched.symm), ?_⟩
    obtain ⟨old, hformer, -, hname⟩ := hgot hin
    obtain ⟨old', hformer', -, hname'⟩ := hgot' hin'
    rw [hformer] at hformer'
    cases hformer'
    rcases hname with hname | hcontested
    · rcases hname' with hname' | hcontested
      · exact .inl (hname'.trans hname.symm)
      · exact .inr (.inr ⟨p, hp, hid.symm, old, hformer, hcontested⟩)
    · exact .inr (.inl ⟨p, hp, hid.symm, old, hformer, hcontested⟩)
  · obtain rfl := hpq.other hin
    obtain rfl := hpr.other fun hin' => hin (hback.mem_iff.2 hin')
    exact ⟨rfl, .inl rfl⟩

/-- The order in which the messages for marked packages are handled does not matter, whatever lies
below what: all of them are done in both orders, and the two runs agree. The tokens of the two runs
may be different ones. No total leaves its range: either all totals have room for all that may be
counted, or there happens to be room in these two runs. -/
theorem deliveries_commute (hw : Deliverable w) (hps : Marked w ps) (hperm : qs.Perm ps)
    (hfree : FallbacksFree token ps w.packages.tables)
    (hfree' : FallbacksFree token' ps w.packages.tables)
    (hrange : Fits w ∨ (deliverAll w.packages.org token user ps w).1 ≠ .aborted ∧
      (deliverAll w.packages.org token' user qs w).1 ≠ .aborted) :
    ∃ events a events' b,
      deliverAll w.packages.org token user ps w = (.done events, a) ∧
      deliverAll w.packages.org token' user qs w = (.done events', b) ∧
      Agree (fun id => Conflicted token ps w.packages.tables id ∨
        Conflicted token' ps w.packages.tables id) a b := by
  have hdone := progress_deliverAll user hw hps hfree (.start token ps hw)
    (List.Subset.refl ps) hps.nodup
  have hdone' := progress_deliverAll user hw hps hfree' (.start token' ps hw)
    hperm.subset (hperm.nodup_iff.2 hps.nodup)
  obtain ⟨events, a, back, hrun, ha⟩ := hdone.resolve_right fun ⟨haborted, hfits⟩ =>
    hrange.elim hfits fun hruns => hruns.1 haborted
  obtain ⟨events', b, back', hrun', hb⟩ := hdone'.resolve_right fun ⟨haborted, hfits⟩ =>
    hrange.elim hfits fun hruns => hruns.2 haborted
  exact ⟨events, a, events', b, hrun, hrun', ha.agree hb hperm.symm⟩

/-! ## A workspace with nested marks -/

/-- A marked folder with a marked folder in it, beside which lies a trashed file that had the same
name, and in which lies another one. -/
def nestedTables : Tables where
  lastId := 5
  datasets := [⟨1, "Dataset", some "N:dataset:1"⟩]
  packages := [
    ⟨2, "__DELETED__f_F", .collection, .restoring, "f", none, 1, 1, none, false⟩,
    ⟨3, "__DELETED__g_G", .collection, .restoring, "g", some 2, 1, 1, none, false⟩,
    ⟨4, "__DELETED__a_A", .text, .deleted, "a", some 3, 1, 1, none, false⟩,
    ⟨5, "__DELETED__b_G", .text, .deleted, "b", some 2, 1, 1, none, false⟩]
  files := [⟨4, 3⟩, ⟨4, 4⟩]
  packageStorage := .empty
  datasetStorage := .empty
  organizationStorage := .empty

/-- A workspace with these tables, in which the other file has a delete record. -/
def nested : Workspace where
  packages := ⟨1, .entireSubtree, nestedTables⟩
  content := ⟨⟨⟨[⟨"b", "store", "y", "v", some 2⟩]⟩, 0, [], []⟩,
    ⟨[⟨"store", "y", [⟨"v", true⟩]⟩], [], false, []⟩⟩
  changelog := none
  queue := .empty

/-- The folder, and the folder in it. -/
def nestedMarks : List Package :=
  [⟨2, "__DELETED__f_F", .collection, .restoring, "f", none, 1, 1, none, false⟩,
    ⟨3, "__DELETED__g_G", .collection, .restoring, "g", some 2, 1, 1, none, false⟩]

/-- Tokens that differ from package to package. -/
def nestedToken (start : String) (_ id : Int) : String :=
  start ++ toString id

/-- In the nested workspace the folder takes both files if its message comes first, and one of them if
it comes last. All rows agree but for the two names that there was a conflict about. -/
theorem deliveries_commute_nested :
    ∃ events a events' b,
      deliverAll 1 (nestedToken "x") (fun _ => "user") nestedMarks nested = (.done events, a) ∧
      deliverAll 1 (nestedToken "y") (fun _ => "user") nestedMarks.reverse nested =
        (.done events', b) ∧
      a.packages.tables.packages.map Package.name = ["F", "G-restored_1", "A", "G"] ∧
      b.packages.tables.packages.map Package.name = ["F", "G", "A", "G-restored_1"] ∧
      Agree (fun id => Conflicted (nestedToken "x") nestedMarks nestedTables id ∨
        Conflicted (nestedToken "y") nestedMarks nestedTables id) a b := by
  have hw : Deliverable nested := {
    forest := Tables.forest_of_lt (by decide) (by decide) (by decide)
    oneDataset := by decide
    prefixed := by
      have hnames : ∀ p ∈ nestedTables.packages, ∃ old ∈ ["F", "G", "A"],
          p.name = Name.deletedPrefix p.nodeId ++ old := by decide
      intro p hp _
      obtain ⟨old, -, hname⟩ := hnames p hp
      exact ⟨old, hname⟩
    unthrottled := rfl
    faultless := ⟨rfl, rfl⟩ }
  have hps : Marked nested nestedMarks := ⟨by decide, by decide, by decide⟩
  have hfree : FallbacksFree (nestedToken "x") nestedMarks nested.packages.tables := by
    decide +kernel
  have hfree' : FallbacksFree (nestedToken "y") nestedMarks nested.packages.tables := by
    decide +kernel
  have hroom : Totals.Room .empty (pendingSize nested) := by decide
  have hfits : Fits nested := ⟨by decide, hroom, hroom, hroom⟩
  have hnames : (deliverAll 1 (nestedToken "x") (fun _ => "user") nestedMarks
      nested).2.packages.tables.packages.map Package.name = ["F", "G-restored_1", "A", "G"] := by
    decide +kernel
  have hnames' : (deliverAll 1 (nestedToken "y") (fun _ => "user") nestedMarks.reverse
      nested).2.packages.tables.packages.map Package.name = ["F", "G", "A", "G-restored_1"] := by
    decide +kernel
  obtain ⟨events, a, events', b, hrun, hrun', hagree⟩ :=
    deliveries_commute hw hps nestedMarks.reverse_perm hfree hfree' (.inl hfits)
  change deliverAll 1 _ _ _ _ = _ at hrun hrun'
  rw [hrun] at hnames
  rw [hrun'] at hnames'
  exact ⟨events, a, events', b, hrun, hrun', hnames, hnames', hagree⟩

end Workspace

end Salvage
