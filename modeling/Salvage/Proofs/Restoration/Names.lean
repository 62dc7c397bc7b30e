import Salvage.Proofs.Restoration.Rows
import Salvage.Proofs.Tables.Siblings

/-!
# Names that are given back

A package gets the first of its candidates that none of its siblings has. That fails only when all of
them are taken; so it is enough that the last one, which has the token in it, is a name that no
sibling has or may be given. `names_restore` says which names the packages that a message takes have
afterwards, and that one of them is not the old name only if a sibling may have that;
`formerName_restore` says when no event has to tell an old name.
-/

namespace Salvage.Restoration

open List (Forall₂)
open Package (KeepsName)
open Tables (keepsName_change_moveTo keepsName_comp)

/-- All packages have names that they may have. Names may be allowed by the number of a package. -/
def WellNamed (may : Int → String → Prop) (t : Tables) : Prop :=
  ∀ p ∈ t.packages, may p.id p.name

/-- A sibling of a package may have a name. -/
def Contested (may : Int → String → Prop) (t : Tables) (p : Package) (name : String) : Prop :=
  ∃ q ∈ t.packages, p.isSiblingOf q ∧ may q.id name

instance (may : Int → String → Prop) [∀ id name, Decidable (may id name)] (t : Tables) (p : Package)
    (name : String) : Decidable (Contested may t p name) :=
  inferInstanceAs (Decidable (∃ q ∈ t.packages, _))

/-- The name of a package can be given back: it stands behind the prefix of a trashed package, one of
its candidates is allowed for no sibling, and that one and all candidates before it are allowed for
the package. -/
structure Nameable (may : Int → String → Prop) (t : Tables) (text : String) (info : PackageInfo) :
    Prop where
  row : ∃ p ∈ t.packages, p.id = info.id
  former : ∃ old, info.name = Name.deletedPrefix info.nodeId ++ old ∧
    ∃ before free after, Name.candidates old text = before ++ free :: after ∧
      (∀ name ∈ before ++ [free], may info.id name) ∧
      ∀ p ∈ t.packages, p.id = info.id → ¬ Contested may t p free

/-- The name of a row after some packages got their names back. -/
structure NamedBack (may : Int → String → Prop) (t : Tables) (token : Int → String)
    (infos : List PackageInfo) (p q : Package) : Prop where
  given : ∀ info ∈ infos, info.id = p.id → ∃ old, Name.former info.name info.nodeId = .ok old ∧
    q.name ∈ Name.candidates old (token info.id) ∧ (q.name = old ∨ Contested may t p old)
  other : (∀ info ∈ infos, info.id ≠ p.id) → q.name = p.name

variable {may : Int → String → Prop} {t t' : Tables} {tx tx' : Transaction} {c c' : Content}
  {token : Int → String} {text : String} {m : RestoreMessage} {info : PackageInfo}
  {infos : List PackageInfo} {restored : Name.Restored} {events : List Event} {p q r : Package}

/-! ## Siblings -/

/-- Who may have a name does not change with names and states. -/
theorem Contested.of_rows (hrows : Forall₂ Package.Retouched t.packages t'.packages)
    (hpq : p.Retouched q) {name : String} (h : Contested may t' q name) : Contested may t p name := by
  obtain ⟨s, hs, hsibling, hmay⟩ := h
  obtain ⟨r, hr, hrs⟩ := exists_of_mem_right hrows hs
  exact ⟨r, hr, (hpq.isSiblingOf_eq hrs).symm.trans hsibling, hrs.id_eq ▸ hmay⟩

/-- A name that a sibling has is contested when all packages are named as they may be. -/
theorem WellNamed.contested {name : String} (h : WellNamed may t)
    (htaken : t.siblingHasName p name = true) : Contested may t p name := by
  rw [Tables.siblingHasName, List.any_eq_true] at htaken
  obtain ⟨q, hq, hboth⟩ := htaken
  rw [Bool.and_eq_true, beq_iff_eq] at hboth
  exact ⟨q, hq, hboth.1, hboth.2 ▸ h q hq⟩

/-! ## Names are found -/

/-- Whether a name can be given back does not change with names and states. -/
theorem Nameable.of_rows (h : Nameable may t text info)
    (hrows : Forall₂ Package.Retouched t.packages t'.packages) : Nameable may t' text info := by
  obtain ⟨p, hp, hown⟩ := h.row
  obtain ⟨q, hq, hpq⟩ := exists_of_mem_left hrows hp
  refine ⟨⟨q, hq, hpq.id_eq.trans hown⟩, ?_⟩
  obtain ⟨old, hname, before, free, after, hcandidates, hallowed, hfresh⟩ := h.former
  refine ⟨old, hname, before, free, after, hcandidates, hallowed, fun q hq hown hcontested => ?_⟩
  obtain ⟨p, hp, hpq⟩ := exists_of_mem_right hrows hq
  exact hfresh p hp (hpq.id_eq.symm.trans hown) (hcontested.of_rows hrows hpq)

/-- The first that fits of some elements is found no later than one that fits. -/
theorem exists_find?_append_cons {α : Type} {f : α → Bool} {a : α} (ha : f a = true)
    (before after : List α) : ∃ b ∈ before ++ [a], (before ++ a :: after).find? f = some b := by
  rw [List.find?_append, List.find?_cons_of_pos ha]
  cases hfound : before.find? f with
  | none => exact ⟨a, by simp, rfl⟩
  | some b => exact ⟨b, List.mem_append_left _ (List.mem_of_find?_eq_some hfound), rfl⟩

/-- A package whose name can be given back gets a name, and then all packages are named as they may
be. -/
theorem restoreName_of_nameable (hk : tx.working.Keyed) (hnamed : WellNamed may tx.working)
    (h : Nameable may tx.working text info) :
    ∃ restored tx', restoreName text info tx = (.done restored, tx') ∧
      WellNamed may tx'.working := by
  obtain ⟨p, hp, hid⟩ := h.row
  obtain ⟨old, hname, before, free, after, hcandidates, hallowed, hfresh⟩ := h.former
  have hrow : tx.working.package? info.id = some p := hid ▸ hk.package?_eq hp
  have hfree : tx.working.siblingHasName p free = false :=
    Bool.eq_false_iff.2 fun htaken => hfresh p hp hid (hnamed.contested htaken)
  have hformer : Name.former info.name info.nodeId = .ok old := by
    rw [hname]
    exact Name.former_deletedPrefix info.nodeId old
  have hfits : (!tx.working.siblingHasName p free) = true := by rw [hfree]; rfl
  obtain ⟨name, hmem, hfound⟩ := exists_find?_append_cons
    (f := fun c => !tx.working.siblingHasName p c) hfits before after
  rw [← hcandidates] at hfound
  refine ⟨⟨name, old⟩, _, (restoreName_eq_done hrow).2 ⟨hformer, hfound, rfl⟩, fun q hq => ?_⟩
  obtain ⟨q₀, hq₀, rfl⟩ := List.mem_map.1 hq
  dsimp only
  split
  · rename_i hown
    rw [beq_iff_eq] at hown
    change may q₀.id name
    rw [hown]
    exact hallowed _ hmem
  · exact hnamed q₀ hq₀

/-- When a package whose name can be given back has got a name, all packages are named as they may
be. -/
theorem wellNamed_restoreName (hk : tx.working.Keyed) (hnamed : WellNamed may tx.working)
    (hnameable : Nameable may tx.working text info)
    (h : restoreName text info tx = (.done restored, tx')) : WellNamed may tx'.working := by
  obtain ⟨_, _, hsame, hnamed'⟩ := restoreName_of_nameable hk hnamed hnameable
  rw [h] at hsame
  cases hsame
  exact hnamed'

/-- Packages whose names can be given back get names. -/
theorem restoreNames_of_nameable (parents : List EventParent) (hd : tx.working.Distinct)
    (hnamed : WellNamed may tx.working)
    (h : ∀ info ∈ infos, Nameable may tx.working (token info.id) info) :
    ∃ events tx', restoreNames token parents infos tx = (.done events, tx') := by
  induction infos generalizing parents tx with
  | nil => exact ⟨[], tx, rfl⟩
  | cons info infos ih =>
    obtain ⟨hfirst, hrest⟩ := List.forall_mem_cons.1 h
    obtain ⟨restored, tx₁, hname, hnamed₁⟩ := restoreName_of_nameable hd.keyed hnamed hfirst
    have hrows := ((evolves_restoreName hname).imp fun _ _ _ => Renamed.retouched).working.rows
    rw [restoreNames, Action.bind_of_done hname]
    obtain ⟨events, tx', hothers⟩ := ih _ (hd.of_rows hrows) hnamed₁ fun i hi =>
      (hrest i hi).of_rows hrows
    exact ⟨_, tx', Action.bind_of_done hothers⟩

/-! ## Names that were given -/

/-- A package whose old name is free gets it. -/
theorem restoreName_of_free (hp : tx.working.package? info.id = some p)
    (h : restoreName text info tx = (.done restored, tx'))
    (hfree : tx.working.siblingHasName p restored.former = false) :
    restored.name = restored.former := by
  obtain ⟨-, hfound, -⟩ := (restoreName_eq_done hp).1 h
  rw [Name.candidates, List.cons_append, List.find?_cons_of_pos (by simp [hfree])] at hfound
  exact (Option.some.inj hfound).symm

/-- A package that got its name back has one of its candidates, the old name unless that is
contested, and all others have the names they had. -/
theorem namedBack_restoreName (hk : tx.working.Keyed) (hnamed : WellNamed may tx.working)
    (h : restoreName (token info.id) info tx = (.done restored, tx')) :
    tx.Evolves (fun p q => p.Retouched q ∧ NamedBack may tx.working token [info] p q) tx' := by
  have hfree := fun p hp => restoreName_of_free (p := p) hp h
  obtain ⟨hformer, hmem, hrename⟩ := restoreName_done h
  obtain ⟨_, -, -, rfl⟩ := Transaction.rename_eq_done.1 hrename
  refine (Transaction.evolves_changeId tx info.id _).imp fun p hp q hq => ?_
  split at hq
  · rename_i hid
    rw [hq]
    refine ⟨rfl, fun i hi _ => ?_, fun hnone => absurd hid.symm (hnone info List.mem_cons_self)⟩
    rw [List.mem_singleton.1 hi]
    refine ⟨restored.former, hformer, hmem, ?_⟩
    cases htaken : tx.working.siblingHasName p restored.former with
    | false => exact .inl (hfree p (hid ▸ hk.package?_eq hp) htaken)
    | true => exact .inr (hnamed.contested htaken)
  · rename_i hne
    rw [hq]
    refine ⟨rfl, fun i hi hid => absurd hid.symm ?_, fun _ => rfl⟩
    rw [List.mem_singleton.1 hi]
    exact hne

/-- One more package that got its name back before others with other numbers. -/
theorem NamedBack.cons (h : NamedBack may t token [info] p q) (hpq : p.Retouched q)
    (hrows : Forall₂ Package.Retouched t.packages t'.packages)
    (hrest : NamedBack may t' token infos q r) (hnot : info.id ∉ infos.map PackageInfo.id) :
    NamedBack may t token (info :: infos) p r := by
  have hid := hpq.id_eq
  refine ⟨fun i hi hown => ?_, fun hnone => ?_⟩
  · rcases List.mem_cons.1 hi with rfl | hlater
    · have hsame : r.name = q.name := by
        refine hrest.other fun j hj heq => hnot ?_
        rw [hown, ← hid, ← heq]
        exact List.mem_map_of_mem hj
      rw [hsame]
      exact h.given i (List.mem_singleton_self i) hown
    · obtain ⟨old, hformer, hmem, hconflict⟩ := hrest.given i hlater (hown.trans hid.symm)
      exact ⟨old, hformer, hmem, hconflict.imp_right (.of_rows hrows hpq)⟩
  · rw [hrest.other fun i hi => hid ▸ hnone i (List.mem_cons_of_mem _ hi)]
    exact h.other fun i hi => by
      rw [List.mem_singleton.1 hi]
      exact hnone info List.mem_cons_self

/-- Packages with different numbers that got their names back each have one of their candidates, and
another than the old name only if that is contested. -/
theorem namedBack_restoreNames {parents : List EventParent} (hd : tx.working.Distinct)
    (hnamed : WellNamed may tx.working)
    (hnameable : ∀ info ∈ infos, Nameable may tx.working (token info.id) info)
    (hnodup : (infos.map PackageInfo.id).Nodup)
    (h : restoreNames token parents infos tx = (.done events, tx')) :
    tx.Evolves (fun p q => p.Retouched q ∧ NamedBack may tx.working token infos p q) tx' := by
  induction infos generalizing parents events tx with
  | nil =>
    obtain ⟨-, rfl⟩ := Action.pure_eq_done.1 h
    exact ⟨Tables.evolves_refl _ fun p => ⟨rfl, by simp, fun _ => rfl⟩, rfl⟩
  | cons info infos ih =>
    rw [List.map_cons, List.nodup_cons] at hnodup
    obtain ⟨hfirst, hothers⟩ := List.forall_mem_cons.1 hnameable
    simp only [restoreNames, Action.bind_eq_done, Action.pure_eq_done] at h
    obtain ⟨restored, tx₁, hname, others, _, hrest, -, rfl⟩ := h
    have hnamed₁ := wellNamed_restoreName hd.keyed hnamed hfirst hname
    have hrows := ((evolves_restoreName hname).imp fun _ _ _ => Renamed.retouched).working.rows
    have hlater := ih (hd.of_rows hrows) hnamed₁ (fun i hi => (hothers i hi).of_rows hrows) hnodup.2
      hrest
    apply ((namedBack_restoreName hd.keyed hnamed hname).trans hlater).imp
    intro p _ r hgiven
    obtain ⟨q, ⟨hpq, hown⟩, hqr, hafter⟩ := hgiven
    exact ⟨hqr.trans hpq, hown.cons hpq hrows hafter hnodup.1⟩

/-! ## Moves leave names alone -/

/-- Marking packages leaves names alone. -/
theorem keepsName_marked (t : Tables) (way : Traversal) (datasetId id : Int) :
    Forall₂ KeepsName t.packages (marked t way datasetId id).packages :=
  keepsName_comp (keepsName_change_moveTo _ _ _) (keepsName_change_moveTo _ _ _)

/-- A move that is done leaves names alone. -/
theorem keepsName_move {datasetId : Int} {nodeId : String} {expected target : Package.State}
    {moved : Package}
    (h : Transaction.move datasetId nodeId expected target tx = (.done moved, tx')) :
    Forall₂ KeepsName tx.working.packages tx'.working.packages := by
  obtain ⟨p, -, -, rfl⟩ := Transaction.move_eq_done.1 h
  exact keepsName_change_moveTo _ _ _

/-- Finishing packages leaves names alone. -/
theorem keepsName_each_finish {datasetId : Int} {us : List Unit}
    (h : Action.each (finish datasetId) infos tx = (.done us, tx')) :
    Forall₂ KeepsName tx.working.packages tx'.working.packages := by
  have hstep (info : PackageInfo) : Action.WhenDone
      (Order.Preimage (fun tx : Transaction => tx.working.packages) (Forall₂ KeepsName))
      (finish datasetId info) := by
    intro tx u tx' h
    obtain ⟨_, hmove⟩ := finish_done h
    exact keepsName_move hmove
  exact Action.whenDone_each hstep infos h

/-- Packages keep names that they may have as long as their names stay. -/
theorem WellNamed.of_keepsName (h : WellNamed may t)
    (hrows : Forall₂ KeepsName t.packages t'.packages) : WellNamed may t' := by
  intro q hq
  obtain ⟨p, hp, hpq, hname⟩ := exists_of_mem_right hrows hq
  rw [hpq.id_eq, hname]
  exact h p hp

/-- Moves before names are given back and after that do not matter to them. -/
theorem namedBack_of_moves {bs cs ds : List Package} (hbefore : Forall₂ KeepsName t.packages bs)
    (h : Forall₂ (fun p q => p.Retouched q ∧ NamedBack may t' token infos p q) bs cs)
    (hsame : bs = t'.packages) (hafter : Forall₂ KeepsName cs ds) :
    Forall₂ (NamedBack may t token infos) t.packages ds := by
  subst hsame
  have hrows := hbefore.imp fun _ _ hpq => hpq.1
  refine (forall₂_comp (forall₂_comp hbefore h) hafter).imp fun p s hgiven => ?_
  obtain ⟨r, ⟨q, hpq, -, hnamed⟩, hrs⟩ := hgiven
  have hid := hpq.1.id_eq
  refine ⟨fun info hinfo hown => ?_, fun hnone => ?_⟩
  · rw [hrs.2]
    obtain ⟨old, hformer, hmem, hconflict⟩ := hnamed.given info hinfo (hown.trans hid.symm)
    exact ⟨old, hformer, hmem, hconflict.imp_right (.of_rows hrows hpq.1)⟩
  · rw [hrs.2, hnamed.other fun info hinfo heq => hnone info hinfo (heq.trans hid), hpq.2]

/-! ## The whole restore -/

/-- Once they are marked, a folder and the packages below it each get one of their candidates, the
old name unless that is contested. -/
theorem namedBack_names {below : List Package} {parents : List EventParent} {tx₁ tx₂ : Transaction}
    (hd : t.Distinct) (hnamed : WellNamed may t)
    (hnameable : ∀ q ∈ p :: below, Nameable may t (token q.id) (PackageInfo.ofPackage q))
    (hmarked : Forall₂ KeepsName t.packages tx.working.packages)
    (hnodup : (((p :: below).map PackageInfo.ofPackage).map PackageInfo.id).Nodup)
    (hname : restoreName (token p.id) (PackageInfo.ofPackage p) tx = (.done restored, tx₁))
    (hothers : restoreNames token parents (below.map PackageInfo.ofPackage) tx₁ =
      (.done events, tx₂)) :
    Forall₂ (fun a b => a.Retouched b ∧ NamedBack may tx.working token
      ((p :: below).map PackageInfo.ofPackage) a b) tx.working.packages tx₂.working.packages := by
  have hrows := hmarked.imp fun _ _ hpq => hpq.1
  have hd₀ := hd.of_rows hrows
  have hnamed₀ := hnamed.of_keepsName hmarked
  rw [List.map_cons, List.map_cons, List.nodup_cons] at hnodup
  obtain ⟨hfirst, hrest⟩ := List.forall_mem_cons.1 hnameable
  have hnamed₁ := wellNamed_restoreName hd₀.keyed hnamed₀ (hfirst.of_rows hrows) hname
  have hrows₁ := ((evolves_restoreName hname).imp fun _ _ _ => Renamed.retouched).working.rows
  have hlater := namedBack_restoreNames (hd₀.of_rows hrows₁) hnamed₁ (fun info hinfo => by
    obtain ⟨q, hq, rfl⟩ := List.mem_map.1 hinfo
    exact ((hrest q hq).of_rows hrows).of_rows hrows₁) hnodup.2 hothers
  have hboth := (namedBack_restoreName hd₀.keyed hnamed₀ hname).trans hlater
  refine hboth.working.rows.imp fun a d hgiven => ?_
  obtain ⟨b, ⟨hab, hown⟩, hbd, hafter⟩ := hgiven
  exact ⟨hbd.trans hab, hown.cons hab hrows₁ hafter hnodup.1⟩

section Restored

variable (hnamed : WellNamed may tx.working)
  (hnameable : ∀ q ∈ takenRows tx.working tx.way m,
    Nameable may tx.working (token q.id) (PackageInfo.ofPackage q))
include hnamed hnameable

/-- After a folder restore that is done the packages that the message takes have their names back. -/
theorem names_restoreFolder (hf : tx.working.Forest) (hfolder : m.package.kind.isCollection)
    (h : restoreFolder token m (tx, c) = (.done events, (tx', c'))) :
    Forall₂ (NamedBack may tx.working token
        ((takenRows tx.working tx.way m).map PackageInfo.ofPackage))
      tx.working.packages tx'.working.packages := by
  obtain ⟨p, q, infos, restored, others, us, moved, tx₁, tx₂, tx₃, tx₄, hp, -, -, rfl, hname,
    hothers, hleaves, hfinish, hmove, -⟩ := restoreFolder_done hf.keyed h
  have hnodup := nodup_ids_takenRows hf tx.way m
  rw [takenRows_of_folder hp hfolder] at hnameable hnodup ⊢
  have hmarked := keepsName_marked tx.working tx.way m.datasetId p.id
  have hnames := namedBack_names hf.toDistinct hnamed hnameable hmarked hnodup hname hothers
  have hafter := keepsName_comp (keepsName_each_finish hfinish) (keepsName_move hmove)
  rw [packages_restoreLeaves hleaves] at hafter
  exact namedBack_of_moves hmarked hnames rfl hafter

omit hnameable in
/-- After a leaf restore that is done the leaf has its name back. -/
theorem names_restoreLeaf (hd : tx.working.Distinct) (hleaf : ¬ m.package.kind.isCollection)
    (h : restoreLeaf token m (tx, c) = (.done events, (tx', c'))) :
    Forall₂ (NamedBack may tx.working token
        ((takenRows tx.working tx.way m).map PackageInfo.ofPackage))
      tx.working.packages tx'.working.packages := by
  obtain ⟨p, restored, tx₁, tx₂, hp, hname, hleaves, hfinish, -⟩ := restoreLeaf_done h
  have hmarked : Forall₂ KeepsName tx.working.packages
      (tx.working.changeId p.id (·.moveTo .restoring)).packages := keepsName_change_moveTo _ _ _
  have hafter : Action.each (finish m.datasetId) [PackageInfo.ofPackage p] tx₂ =
      (.done [()], tx') := Action.each_cons_of_done [] hfinish
  have hkept := keepsName_each_finish hafter
  rw [packages_restoreLeaves hleaves] at hkept
  have hd₀ := hd.of_rows (hmarked.imp fun _ _ hpq => hpq.1)
  have hnamed₀ : WellNamed may
      ({ tx with working := tx.working.changeId p.id (·.moveTo .restoring) } : Transaction).working :=
    hnamed.of_keepsName hmarked
  have hnames := namedBack_restoreName hd₀.keyed hnamed₀ hname
  rw [takenRows_of_leaf hp hleaf]
  refine namedBack_of_moves hmarked (hnames.working.rows.imp ?_) rfl hkept
  -- the size that the message carries plays no part in names
  intro a b hgiven
  refine ⟨hgiven.1, ?_, fun hnone => hgiven.2.other fun info hinfo => ?_⟩
  · exact List.forall_mem_singleton.2 (List.forall_mem_singleton.1 hgiven.2.given)
  · rw [List.mem_singleton.1 hinfo]
    exact hnone (PackageInfo.ofPackage p) (List.mem_singleton_self _)

/-- After a restore that is done the packages that the message takes each have one of their
candidates, the old name unless that is contested, and all others have the names they had. -/
theorem names_restore (hf : tx.working.Forest)
    (h : restore token m (tx, c) = (.done events, (tx', c'))) :
    Forall₂ (NamedBack may tx.working token
        ((takenRows tx.working tx.way m).map PackageInfo.ofPackage))
      tx.working.packages tx'.working.packages := by
  rw [restore] at h
  split at h
  · rename_i hfolder
    exact names_restoreFolder hnamed hnameable hf hfolder h
  · rename_i hleaf
    exact names_restoreLeaf hnamed hf.toDistinct hleaf h

end Restored

/-! ## Old names in events -/

/-- No sibling of a package may have the old name of the package. -/
def Uncontested (may : Int → String → Prop) (t : Tables) (info : PackageInfo) : Prop :=
  ∀ old, Name.former info.name info.nodeId = .ok old →
    ∀ p ∈ t.packages, p.id = info.id → ¬ Contested may t p old

/-- Who may have an old name does not change with names and states. -/
theorem Uncontested.of_rows (h : Uncontested may t info)
    (hrows : Forall₂ Package.Retouched t.packages t'.packages) : Uncontested may t' info := by
  intro old hformer q hq hid hcontested
  obtain ⟨p, hp, hpq⟩ := exists_of_mem_right hrows hq
  exact h old hformer p hp (hpq.id_eq.symm.trans hid) (hcontested.of_rows hrows hpq)

/-- A package whose old name no sibling may have gets it back. -/
theorem displaced_restoreName (hnamed : WellNamed may tx.working)
    (hfree : Uncontested may tx.working info)
    (h : restoreName text info tx = (.done restored, tx')) : restored.displaced = none := by
  obtain ⟨hformer, -, hrename⟩ := restoreName_done h
  obtain ⟨p, hp, -, -⟩ := Transaction.rename_eq_done.1 hrename
  obtain ⟨hmem, hid⟩ := Tables.mem_of_package? hp
  have hown : tx.working.siblingHasName p restored.former = false :=
    Bool.eq_false_iff.2 fun htaken => hfree _ hformer p hmem hid (hnamed.contested htaken)
  rw [Name.Restored.displaced, if_neg (not_not.2 (restoreName_of_free hp h hown))]

/-- The events of packages whose old names no siblings may have tell no old names. -/
theorem formerName_restoreNames {parents : List EventParent} (hd : tx.working.Distinct)
    (hnamed : WellNamed may tx.working)
    (hnameable : ∀ info ∈ infos, Nameable may tx.working (token info.id) info)
    (hfree : ∀ info ∈ infos, Uncontested may tx.working info)
    (h : restoreNames token parents infos tx = (.done events, tx')) :
    ∀ e ∈ events, e.formerName = none := by
  induction infos generalizing parents events tx with
  | nil =>
    obtain ⟨rfl, -⟩ := Action.pure_eq_done.1 h
    simp
  | cons info infos ih =>
    obtain ⟨hfirst, hothers⟩ := List.forall_mem_cons.1 hnameable
    obtain ⟨hfirstFree, hothersFree⟩ := List.forall_mem_cons.1 hfree
    simp only [restoreNames, Action.bind_eq_done, Action.pure_eq_done] at h
    obtain ⟨restored, tx₁, hname, others, _, hrest, rfl, rfl⟩ := h
    have hrows := ((evolves_restoreName hname).imp fun _ _ _ => Renamed.retouched).working.rows
    refine List.forall_mem_cons.2 ⟨displaced_restoreName hnamed hfirstFree hname, ?_⟩
    exact ih (hd.of_rows hrows) (wellNamed_restoreName hd.keyed hnamed hfirst hname)
      (fun i hi => (hothers i hi).of_rows hrows) (fun i hi => (hothersFree i hi).of_rows hrows) hrest

/-- The events of a restore that is done tell no old names if no siblings of the packages that it takes
may have them. -/
theorem formerName_restore (hk : tx.working.Distinct) (hnamed : WellNamed may tx.working)
    (hnameable : ∀ q ∈ takenRows tx.working tx.way m,
      Nameable may tx.working (token q.id) (PackageInfo.ofPackage q))
    (hfree : ∀ q ∈ takenRows tx.working tx.way m,
      Uncontested may tx.working (PackageInfo.ofPackage q))
    (h : restore token m (tx, c) = (.done events, (tx', c'))) :
    ∀ e ∈ events, e.formerName = none := by
  rw [restore] at h
  split at h
  · rename_i hfolder
    obtain ⟨p, q, infos, restored, others, us, moved, tx₁, tx₂, tx₃, tx₄, hp, -, -, rfl, hname,
      hothers, -, -, -, rfl⟩ := restoreFolder_done hk.keyed h
    rw [takenRows_of_folder hp hfolder] at hnameable hfree
    have hmarked := (retouched_marked tx.working tx.way m.datasetId p.id).rows
    have hnamed₀ : WellNamed may (marked tx.working tx.way m.datasetId p.id) :=
      hnamed.of_keepsName (keepsName_marked _ _ _ _)
    have hd₀ := hk.of_rows hmarked
    obtain ⟨hfirst, hrest⟩ := List.forall_mem_cons.1 hnameable
    obtain ⟨hfirstFree, hrestFree⟩ := List.forall_mem_cons.1 hfree
    have hrows := ((evolves_restoreName hname).imp fun _ _ _ => Renamed.retouched).working.rows
    refine List.forall_mem_cons.2
      ⟨displaced_restoreName hnamed₀ (hfirstFree.of_rows hmarked) hname, ?_⟩
    refine formerName_restoreNames (hd₀.of_rows hrows)
      (wellNamed_restoreName hd₀.keyed hnamed₀ (hfirst.of_rows hmarked) hname)
      (fun info hinfo => ?_) (fun info hinfo => ?_) hothers
    · obtain ⟨q, hq, rfl⟩ := List.mem_map.1 hinfo
      exact ((hrest q hq).of_rows hmarked).of_rows hrows
    · obtain ⟨q, hq, rfl⟩ := List.mem_map.1 hinfo
      exact ((hrestFree q hq).of_rows hmarked).of_rows hrows
  · rename_i hleaf
    obtain ⟨p, restored, tx₁, tx₂, hp, hname, -, -, rfl⟩ := restoreLeaf_done h
    rw [takenRows_of_leaf hp hleaf] at hfree
    have hmarked := (retouched_move (claim_of_claimed hp)).working.rows
    have hnamed₀ : WellNamed may (tx.working.changeId p.id (·.moveTo .restoring)) :=
      hnamed.of_keepsName (keepsName_change_moveTo _ _ _)
    refine List.forall_mem_singleton.2 (displaced_restoreName hnamed₀ ?_ hname)
    exact (hfree p (List.mem_singleton_self p)).of_rows hmarked

end Salvage.Restoration
