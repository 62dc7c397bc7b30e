import Salvage.Proofs.Restoration.Completion
import Salvage.Proofs.Restoration.Overlap

/-!
# Restores that differ in their tokens

A restore that is carried out once more from the same packages, with other tokens, tries names with
these tokens where it tried others before. As long as this makes no difference to which siblings have
the same name, it goes through the same steps, and only names with a token differ in the end. That is
so for fresh tokens, and also when the tokens are the same.
-/

namespace Salvage.Restoration

open List (Forall₂)
open Tables (keepsName_change_moveTo)

variable {α β : Type} {token token' : Int → String} {t : Tables} {tx tx' : Transaction}
  {c c' d : Content} {m : RestoreMessage} {info : PackageInfo} {infos : List PackageInfo}
  {p q r : Package} {old : String} {events : List Event}

/-! ## Pairs of names -/

/-- The names to try for a package, if it is not restored yet. -/
def choices (token : Int → String) (p : Package) : List String :=
  if Unrestored p then
    match Name.former p.name p.nodeId with
    | .ok old => Name.candidates old (token p.id)
    | .error _ => []
  else []

/-- The names that a package may have with the first and with the second tokens: its own name with
both, or names to try that are at the same place. -/
def namePairs (token token' : Int → String) (p : Package) : List (String × String) :=
  (p.name, p.name) :: (choices token p).zip (choices token' p)

/-- Siblings may have the same name with the first tokens exactly when they may with the second. -/
def Exchangeable (token token' : Int → String) (t : Tables) : Prop :=
  ∀ p ∈ t.packages, ∀ q ∈ t.packages, p.isSiblingOf q →
    ∀ a ∈ namePairs token token' p, ∀ b ∈ namePairs token token' q, a.1 = b.1 ↔ a.2 = b.2

/-- No sibling of a package has the name with the token of the package, or may get it. -/
def Fresh (token : Int → String) (t : Tables) : Prop :=
  ∀ p ∈ t.packages, ∀ q ∈ t.packages, p.isSiblingOf q →
    ∀ name ∈ (choices token p).getLast?, name ∉ q.name :: choices token q

instance (token : Int → String) (t : Tables) : Decidable (Fresh token t) :=
  inferInstanceAs (Decidable (∀ p ∈ t.packages, ∀ q ∈ t.packages, _ →
    ∀ name ∈ (choices token p).getLast?, _))

/-- The names to try for a package that is not restored are the candidates for its old name. -/
theorem choices_eq (hstate : Unrestored p) (hformer : Name.former p.name p.nodeId = .ok old)
    (token : Int → String) : choices token p = Name.candidates old (token p.id) := by
  rw [choices, if_pos hstate, hformer]

/-- Candidates for one name that are at the same place are a pair of names. -/
theorem forall₂_candidates (hstate : Unrestored p)
    (hformer : Name.former p.name p.nodeId = .ok old) :
    Forall₂ (fun a b => (a, b) ∈ namePairs token token' p) (Name.candidates old (token p.id))
      (Name.candidates old (token' p.id)) := by
  rw [List.forall₂_iff_zip]
  refine ⟨?_, fun hmem => List.mem_cons_of_mem _ ?_⟩
  · rw [Name.candidates, Name.candidates, List.length_append, List.length_append,
      List.length_singleton, List.length_singleton]
  · rwa [choices_eq hstate hformer, choices_eq hstate hformer]

/-- Elements at the same place of one list are the same. -/
theorem eq_of_mem_zip_self {names : List String} {a : String × String} (ha : a ∈ names.zip names) :
    a.1 = a.2 :=
  (List.forall₂_iff_zip.1 (List.forall₂_same.2 fun name _ => Eq.refl name)).2 ha

/-- A name of a pair is one that the package has or may get. -/
theorem mem_of_mem_namePairs {a : String × String} (ha : a ∈ namePairs token token' p) :
    a.1 ∈ p.name :: choices token p ∧ a.2 ∈ p.name :: choices token' p := by
  rcases List.mem_cons.1 ha with rfl | hlater
  · exact ⟨List.mem_cons_self, List.mem_cons_self⟩
  · obtain ⟨hfirst, hsecond⟩ := List.of_mem_zip hlater
    exact ⟨List.mem_cons_of_mem _ hfirst, List.mem_cons_of_mem _ hsecond⟩

/-- The names of a pair are the same, unless they are the last ones to try. -/
theorem eq_or_last_of_mem_namePairs {a : String × String} (ha : a ∈ namePairs token token' p) :
    a.1 = a.2 ∨ Unrestored p ∧ ∃ old, Name.former p.name p.nodeId = .ok old ∧
      a = (Name.marked old (token p.id), Name.marked old (token' p.id)) := by
  rcases List.mem_cons.1 ha with rfl | hlater
  · exact .inl rfl
  · by_cases hstate : Unrestored p
    · cases hformer : Name.former p.name p.nodeId with
      | error => simp [choices, hformer] at hlater
      | ok old =>
        rw [choices_eq hstate hformer, choices_eq hstate hformer, Name.candidates, Name.candidates,
          List.zip_append rfl, List.mem_append] at hlater
        rcases hlater with hsame | hlast
        · exact .inl (eq_of_mem_zip_self hsame)
        · exact .inr ⟨hstate, old, rfl, List.mem_singleton.1 hlast⟩
    · simp [choices, hstate] at hlater

/-- Tokens may be exchanged for themselves. -/
theorem exchangeable_self (token : Int → String) (t : Tables) : Exchangeable token token t := by
  have hsame {p : Package} {a : String × String} (ha : a ∈ namePairs token token p) : a.1 = a.2 := by
    rcases List.mem_cons.1 ha with rfl | hlater
    · rfl
    · exact eq_of_mem_zip_self hlater
  intro p _ q _ _ a ha b hb
  rw [hsame ha, hsame hb]

/-- The name with a fresh token is one that no sibling has at any time. -/
theorem Fresh.ne_of_last (h : Fresh token t) (hp : p ∈ t.packages) (hq : q ∈ t.packages)
    (hsibling : p.isSiblingOf q) (hstate : Unrestored p)
    (hformer : Name.former p.name p.nodeId = .ok old) {name : String}
    (hname : name ∈ q.name :: choices token q) : Name.marked old (token p.id) ≠ name := by
  have hlast : Name.marked old (token p.id) ∈ (choices token p).getLast? := by
    rw [choices_eq hstate hformer, Name.candidates, List.getLast?_concat]
    rfl
  exact fun heq => h p hp q hq hsibling _ hlast (heq ▸ hname)

/-- Fresh tokens may be exchanged. -/
theorem exchangeable_of_fresh (h : Fresh token t) (h' : Fresh token' t) :
    Exchangeable token token' t := by
  intro p hp q hq hsibling a ha b hb
  have hback : q.isSiblingOf p := by
    obtain ⟨hid, hdataset, hparent⟩ := Package.isSiblingOf_iff.1 hsibling
    exact Package.isSiblingOf_iff.2 ⟨hid.symm, hdataset.symm, hparent.symm⟩
  obtain ⟨ha₁, ha₂⟩ := mem_of_mem_namePairs ha
  obtain ⟨hb₁, hb₂⟩ := mem_of_mem_namePairs hb
  rcases eq_or_last_of_mem_namePairs ha with hsame | ⟨hstate, old, hformer, rfl⟩
  · rcases eq_or_last_of_mem_namePairs hb with hsame' | ⟨hstate, old, hformer, rfl⟩
    · rw [hsame, hsame']
    · exact iff_of_false (h.ne_of_last hq hp hback hstate hformer ha₁).symm
        (h'.ne_of_last hq hp hback hstate hformer ha₂).symm
  · exact iff_of_false (h.ne_of_last hp hq hsibling hstate hformer hb₁)
      (h'.ne_of_last hp hq hsibling hstate hformer hb₂)

/-! ## Rows side by side -/

/-- A row with the first and with the second tokens: no more than its name differs, and that comes
from a row at the start. -/
structure Alike (token token' : Int → String) (t : Tables) (p q : Package) : Prop where
  rest : q = p.rename q.name
  names : ∃ r ∈ t.packages, r.Retouched p ∧ (p.name, q.name) ∈ namePairs token token' r

/-- All rows are alike. -/
def Matches (token token' : Int → String) (t : Tables) : Transaction → Transaction → Prop :=
  Order.Preimage (fun tx => tx.working.packages) (Forall₂ (Alike token token' t))

/-- Rows that are alike differ in their names at most. -/
theorem Alike.retouched (h : Alike token token' t p q) : p.Retouched q := by
  rw [h.rest]
  rfl

/-- The row at the start is the one with the number. -/
theorem Alike.name_mem (h : Alike token token' t p q) (hk : t.Keyed) (hr : r ∈ t.packages)
    (hid : r.id = p.id) : r.Retouched p ∧ (p.name, q.name) ∈ namePairs token token' r := by
  obtain ⟨s, hs, hsp, hname⟩ := h.names
  obtain rfl := hk.eq_of_id hs hr (hsp.id_eq.symm.trans hid.symm)
  exact ⟨hsp, hname⟩

/-- Rows stay alike when both move to a state. -/
theorem Alike.moveTo (h : Alike token token' t p q) (target : Package.State) :
    Alike token token' t (p.moveTo target) (q.moveTo target) := by
  refine ⟨congrArg (Package.moveTo target) h.rest, ?_⟩
  obtain ⟨r, hr, hrp, hname⟩ := h.names
  exact ⟨r, hr, hrp, hname⟩

/-- Rows stay alike when they get a pair of names. -/
theorem Alike.rename (h : Alike token token' t p q) (hk : t.Keyed) (hr : r ∈ t.packages)
    (hid : r.id = p.id) {name name' : String} (hname : (name, name') ∈ namePairs token token' r) :
    Alike token token' t (p.rename name) (q.rename name') := by
  refine ⟨?_, r, hr, (h.name_mem hk hr hid).1, hname⟩
  rw [h.rest]
  rfl

/-- Rows whose names are those of rows at the start are like themselves. -/
theorem matches_self (token token' : Int → String) (tx : Transaction)
    (h : Forall₂ Package.KeepsName t.packages tx.working.packages) : Matches token token' t tx tx := by
  refine List.forall₂_same.2 fun q hq => ⟨rfl, ?_⟩
  obtain ⟨p, hp, hpq, hname⟩ := exists_of_mem_right h hq
  exact ⟨p, hp, hpq, hname ▸ List.mem_cons_self⟩

/-- Changes of a package that keep its rows alike keep all rows alike. -/
theorem Matches.changeId (h : Matches token token' t tx tx') {id : Int} {f g : Package → Package}
    (hfg : ∀ p q, p.id = id → Alike token token' t p q → Alike token token' t (f p) (g q)) :
    Matches token token' t { tx with working := tx.working.changeId id f }
      { tx' with working := tx'.working.changeId id g } := by
  refine List.forall₂_map_left_iff.2 (List.forall₂_map_right_iff.2 (h.imp fun p q hpq => ?_))
  simp only [beq_iff_eq, hpq.retouched.id_eq]
  split
  · rename_i hid
    exact hfg p q hid hpq
  · exact hpq

/-- A sibling of a row has a name with the first tokens exactly when one has its counterpart with the
second. -/
theorem Matches.siblingHasName_eq (h : Matches token token' t tx tx')
    (hexchange : Exchangeable token token' t) (hr : r ∈ t.packages) (hrp : r.Retouched p)
    (hpq : p.Retouched q) {a : String × String} (ha : a ∈ namePairs token token' r) :
    tx'.working.siblingHasName q a.2 = tx.working.siblingHasName p a.1 := by
  refine any_eq_of_forall₂ h fun x y hxy => ?_
  rw [hpq.isSiblingOf_eq hxy.retouched]
  cases hsibling : p.isSiblingOf x with
  | false => rfl
  | true =>
    obtain ⟨s, hs, hsx, hname⟩ := hxy.names
    have hsiblings : r.isSiblingOf s := by rwa [← hrp.isSiblingOf_eq hsx]
    have hsame := hexchange r hr s hs hsiblings a ha _ hname
    rw [Bool.true_and, Bool.true_and, Bool.eq_iff_iff, beq_iff_eq, beq_iff_eq, eq_comm, ← hsame,
      eq_comm]

/-! ## Steps side by side -/

/-- What is known of a package of which the name is given back: it's that of a row that is not
restored yet. -/
def Describes (t : Tables) (info : PackageInfo) : Prop :=
  ∃ r ∈ t.packages, Unrestored r ∧ r.id = info.id ∧ r.name = info.name ∧ r.nodeId = info.nodeId

section Steps

variable (hk : t.Keyed) (hexchange : Exchangeable token token' t)

/-- A move follows itself. -/
theorem follows_move (datasetId : Int) (nodeId : String) (expected target : Package.State) :
    Action.Follows (Matches token token' t) (Transaction.move datasetId nodeId expected target)
      (Transaction.move datasetId nodeId expected target) := by
  intro tx tx' moved tx₁ hrows h
  obtain ⟨p, hp, -, rfl⟩ := Transaction.move_eq_done.1 h
  have hfound : ∃ q, tx'.working.packages.find? (fun q => q.datasetId == datasetId &&
      q.nodeId == nodeId && q.state == expected) = some q ∧ Alike token token' t p q :=
    find?_of_forall₂ hrows (fun a b hab => by rw [hab.rest]; rfl) hp
  obtain ⟨q, hq, hpq⟩ := hfound
  refine ⟨_, _, Transaction.move_eq_done.2 ⟨q, hq, rfl, rfl⟩, ?_⟩
  rw [hpq.retouched.id_eq]
  exact hrows.changeId fun a b _ hab => hab.moveTo target

/-- Finishing a package follows itself. -/
theorem follows_finish (datasetId : Int) (info : PackageInfo) :
    Action.Follows (Matches token token' t) (finish datasetId info) (finish datasetId info) :=
  (follows_move _ _ _ _).bind fun _ _ => Action.follows_pure () ()

include hk hexchange

/-- Giving a name back with the second token follows giving it back with the first. -/
theorem follows_restoreName (hinfo : Describes t info) :
    Action.Follows (Matches token token' t) (restoreName (token info.id) info)
      (restoreName (token' info.id) info) := by
  intro tx tx' restored tx₁ hrows h
  obtain ⟨r, hr, hstate, hid, hname, hnode⟩ := hinfo
  obtain ⟨-, -, hrename⟩ := restoreName_done h
  obtain ⟨p, hp, -, -⟩ := Transaction.rename_eq_done.1 hrename
  obtain ⟨hformer, hfound, rfl⟩ := (restoreName_eq_done hp).1 h
  have hrow : ∃ q, tx'.working.package? info.id = some q ∧ Alike token token' t p q :=
    find?_of_forall₂ hrows (fun a b hab => by rw [hab.retouched.id_eq]) hp
  obtain ⟨q, hq, hpq⟩ := hrow
  have hrp := (hpq.name_mem hk hr (hid.trans (Tables.mem_of_package? hp).2.symm)).1
  have hpairs : Forall₂ (fun a b => (a, b) ∈ namePairs token token' r)
      (Name.candidates restored.former (token info.id))
      (Name.candidates restored.former (token' info.id)) := by
    rw [← hname, ← hnode] at hformer
    rw [← hid]
    exact forall₂_candidates hstate hformer
  have hfree : ∃ name', (Name.candidates restored.former (token' info.id)).find?
      (fun name => !tx'.working.siblingHasName q name) = some name' ∧
      (restored.name, name') ∈ namePairs token token' r :=
    find?_of_forall₂ hpairs (fun a b hab => by
      rw [hrows.siblingHasName_eq hexchange hr hrp hpq.retouched hab]) hfound
  obtain ⟨name', hfound', hpair⟩ := hfree
  refine ⟨⟨name', restored.former⟩, _, (restoreName_eq_done hq).2 ⟨hformer, hfound', rfl⟩, ?_⟩
  exact hrows.changeId fun a b hin hab => hab.rename hk hr (hid.trans hin.symm) hpair

/-- Giving names back with the second tokens follows giving them back with the first. -/
theorem follows_restoreNames (hinfos : ∀ info ∈ infos, Describes t info)
    (parents parents' : List EventParent) :
    Action.Follows (Matches token token' t) (restoreNames token parents infos)
      (restoreNames token' parents' infos) := by
  induction infos generalizing parents parents' with
  | nil => exact Action.follows_pure [] []
  | cons info infos ih =>
    obtain ⟨hfirst, hrest⟩ := List.forall_mem_cons.1 hinfos
    rw [restoreNames, restoreNames]
    refine (follows_restoreName hk hexchange hfirst).bind fun restored restored' => ?_
    exact (ih hrest _ _).bind fun _ _ => Action.follows_pure _ _

end Steps

/-! ## Whole flows side by side -/

/-- A flow is done with rows like those of a transaction, unless it is aborted. -/
def Repeats (token token' : Int → String) (t : Tables) (tx : Transaction) (x : Flow α)
    (s : Transaction × Content) : Prop :=
  (x s).1 = .aborted ∨ ∃ a s', x s = (.done a, s') ∧ Matches token token' t tx s'.1

/-- After work in the transaction that is done the rest of the flow decides. -/
theorem repeats_inTransaction_bind {x : Action Transaction α} {f : α → Flow β} {a : α}
    {s : Transaction} (h : x s = (.done a, tx')) (hf : Repeats token token' t tx (f a) (tx', d)) :
    Repeats token token' t tx (inTransaction x >>= f) (s, d) := by
  rw [Repeats, Action.bind_of_done (inTransaction_eq_done.2 ⟨h, rfl⟩)]
  exact hf

/-- Leaves are brought back whatever the names are by then, unless this is aborted. -/
theorem repeats_restoreLeaves_bind {f : Unit → Flow β} {datasetId : Int} {s : Transaction}
    (hrecords : d.records.throttled = 0) (hobjects : ObjectTable.HasFaults [] false d.objects)
    (hf : ∀ s' d', s'.working.packages = s.working.packages →
      Repeats token token' t tx (f ()) (s', d')) :
    Repeats token token' t tx (restoreLeaves datasetId infos >>= f) (s, d) := by
  rcases doneUnless_restoreLeaves hrecords hobjects s datasetId infos with
    ⟨u, ⟨s', d'⟩, hdone⟩ | ⟨haborted, -⟩
  · rw [Repeats, Action.bind_of_done hdone]
    exact hf s' d' (packages_restoreLeaves hdone)
  · exact .inl (congrArg Prod.fst (Action.bind_of_aborted (Prod.ext haborted rfl)))

section Flows

variable (hk : tx.working.Keyed) (hexchange : Exchangeable token token' tx.working)
  (hrecords : d.records.throttled = 0) (hobjects : ObjectTable.HasFaults [] false d.objects)
include hk hexchange hrecords hobjects

/-- A leaf that was restored once is restored again with other tokens. -/
theorem repeats_restoreLeaf (h : restoreLeaf token m (tx, c) = (.done events, (tx', c'))) :
    Repeats token token' tx.working tx' (restoreLeaf token' m) (tx, d) := by
  obtain ⟨p, restored, tx₁, tx₂, hp, hname, hleaves, hfinish, -⟩ := restoreLeaf_done h
  obtain ⟨hmem, -, -, hstate⟩ := of_claimed? hp
  have hinfo : Describes tx.working { PackageInfo.ofPackage p with size := m.package.size } :=
    ⟨p, hmem, .inr hstate, rfl, rfl, rfl⟩
  have hclaimed := matches_self token token'
    { tx with working := tx.working.changeId p.id (·.moveTo .restoring) }
    (keepsName_change_moveTo tx.working _ _)
  obtain ⟨restored', tx₁', hname', hnamed⟩ :=
    follows_restoreName hk hexchange hinfo hclaimed hname
  rw [restoreLeaf]
  refine repeats_inTransaction_bind (claim_of_claimed hp) ?_
  refine repeats_inTransaction_bind hname' ?_
  refine repeats_restoreLeaves_bind hrecords hobjects fun tx₂' d' hsame => ?_
  have hbrought : Matches token token' tx.working tx₂ tx₂' := by
    rw [Matches, Order.Preimage, packages_restoreLeaves hleaves, hsame]
    exact hnamed
  obtain ⟨u, tx₃', hfinish', hfinished⟩ := follows_finish _ _ hbrought hfinish
  exact repeats_inTransaction_bind hfinish' (.inr ⟨_, _, rfl, hfinished⟩)

/-- A folder that was restored once is restored again with other tokens. -/
theorem repeats_restoreFolder (h : restoreFolder token m (tx, c) = (.done events, (tx', c'))) :
    Repeats token token' tx.working tx' (restoreFolder token' m) (tx, d) := by
  obtain ⟨p, q, infos, folder, others, finished, moved, tx₁, tx₂, tx₃, tx₄, hp, hq, hfolder, rfl,
    hname, hothers, hleaves, hfinish, hmove, -⟩ := restoreFolder_done hk h
  obtain ⟨hmem, -, -, hstate⟩ := of_claimed? hp
  have hinfo : Describes tx.working (PackageInfo.ofPackage p) :=
    ⟨p, hmem, .inr hstate, rfl, rfl, rfl⟩
  have hinfos : ∀ info ∈ (tx.working.descendants tx.way m.datasetId p.id .deleted).map
      PackageInfo.ofPackage, Describes tx.working info := by
    intro info hin
    obtain ⟨r, hr, rfl⟩ := List.mem_map.1 hin
    exact ⟨r, Tables.mem_of_mem_descendants hr, .inl (Tables.state_of_mem_descendants hr), rfl, rfl,
      rfl⟩
  have hmoved := moveDescendants_of_claimed hk hp
  have hmarked := matches_self token token'
    { tx with working := marked tx.working tx.way m.datasetId p.id }
    (keepsName_marked tx.working _ _ _)
  obtain ⟨folder', tx₁', hname', hnamed⟩ := follows_restoreName hk hexchange hinfo hmarked hname
  obtain ⟨others', tx₂', hothers', hallNamed⟩ := follows_restoreNames hk hexchange hinfos _
    [Event.asParent (PackageInfo.ofPackage p) folder'] hnamed hothers
  rw [restoreFolder]
  refine repeats_inTransaction_bind (checkFolder_of_found hq hfolder) ?_
  refine repeats_inTransaction_bind (claim_of_claimed hp) ?_
  refine repeats_inTransaction_bind hmoved ?_
  refine repeats_inTransaction_bind hname' ?_
  dsimp only
  rw [map_ofPackage_moveTo]
  refine repeats_inTransaction_bind hothers' ?_
  simp only [List.partition_eq_filter_filter]
  refine repeats_restoreLeaves_bind hrecords hobjects fun tx₃' d' hsame => ?_
  have hbrought : Matches token token' tx.working tx₃ tx₃' := by
    rw [Matches, Order.Preimage, packages_restoreLeaves hleaves, hsame]
    exact hallNamed
  obtain ⟨us, tx₄', hfinish', hfinished⟩ :=
    Action.follows_each (follows_finish m.datasetId) _ hbrought hfinish
  obtain ⟨moved', tx₅', hmove', hmoved⟩ := follows_move _ _ _ _ hfinished hmove
  refine repeats_inTransaction_bind hfinish' ?_
  exact repeats_inTransaction_bind hmove' (.inr ⟨_, _, rfl, hmoved⟩)

/-- What was restored once is restored again with other tokens from the same packages. -/
theorem repeats_restore (h : restore token m (tx, c) = (.done events, (tx', c'))) :
    Repeats token token' tx.working tx' (restore token' m) (tx, d) := by
  rw [restore] at h ⊢
  split at h
  · rename_i hfolder
    rw [if_pos hfolder]
    exact repeats_restoreFolder hk hexchange hrecords hobjects h
  · rename_i hleaf
    rw [if_neg hleaf]
    exact repeats_restoreLeaf hk hexchange hrecords hobjects h

end Flows

end Salvage.Restoration
