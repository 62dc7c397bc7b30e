import Salvage.Proofs.Restoration.Tokens
import Salvage.Proofs.Workspace.Markers
import Salvage.Proofs.Workspace.Redelivery

/-!
# Where deliveries end

A delivery that fails may have brought some content back, so the next one finds less to do. What it
took from the content belongs to leaves of its message, and the packages are as they were: the next
delivery takes the same packages through the same steps and clears the rest. So by one delivery
without faults, sooner or later, packages and content come to the same end. Only a name with a token
tells the deliveries apart, since each of them brings tokens of its own. Storage totals are not part
of this: they may miss the sizes on records that a failed delivery took away.
-/

namespace Salvage.Workspace

open List (Forall₂)
open Restoration (Exchangeable leafRows)

variable {token token' : Int → String} {t : Tables} {m : RestoreMessage} {w v a b : Workspace}
  {events events' : List Event} {p q : Package}

/-- Two rows are the same, but the names may be the ones with tokens: the old name of the package at
the start, marked with the token of the one delivery and of the other. -/
structure SameUpToToken (token token' : Int → String) (t : Tables) (p q : Package) : Prop where
  rest : q = p.rename q.name
  name : q.name = p.name ∨ ∃ r ∈ t.packages, r.id = p.id ∧ ∃ old,
    Name.former r.name r.nodeId = .ok old ∧ p.name = Name.marked old (token r.id) ∧
      q.name = Name.marked old (token' r.id)

/-- Packages and content are the same in two workspaces, up to the tokens in names. -/
structure SameEnd (token token' : Int → String) (t : Tables) (a b : Workspace) : Prop where
  packages : Forall₂ (SameUpToToken token token' t) a.packages.tables.packages
    b.packages.tables.packages
  records : ∀ nodeId, b.content.recordOf nodeId = a.content.recordOf nodeId
  versions : ∀ bucket key,
    b.content.objects.versions bucket key = a.content.objects.versions bucket key

/-- Rows that are alike are the same up to the tokens. -/
theorem SameUpToToken.of_alike (h : Restoration.Alike token token' t p q) :
    SameUpToToken token token' t p q := by
  obtain ⟨r, hr, hrp, hname⟩ := h.names
  refine ⟨h.rest, ?_⟩
  rcases Restoration.eq_or_last_of_mem_namePairs hname with hsame | ⟨-, old, hformer, hlast⟩
  · exact .inl hsame.symm
  · obtain ⟨hfirst, hsecond⟩ := Prod.mk.inj hlast
    exact .inr ⟨r, hr, hrp.id_eq.symm, old, hformer, hfirst, hsecond⟩

/-- Failed deliveries clear content of the leaves of the message at most. -/
theorem FailedDeliveries.thins (h : FailedDeliveries m w v) (hk : w.packages.tables.Keyed) :
    w.content.Thins ((leafRows w.packages.tables w.packages.way m).map Package.nodeId)
      v.content := by
  induction h with
  | none => exact Std.Refl.refl (r := Content.Thins _) w.content
  | @next v f token hfailed hnot ih =>
    obtain ⟨hpackages, -⟩ := hfailed.kept
    have hkeyed : v.packages.tables.Keyed := by
      rw [hpackages]
      exact hk
    have hlast : v.content.Thins ((leafRows v.packages.tables v.packages.way m).map Package.nodeId)
        (restore token m (v.withFaults f)).2.content :=
      thins_restore (w := v.withFaults f) hkeyed token m
    rw [hpackages] at hlast
    exact IsTrans.trans (r := Content.Thins _) _ _ _ ih hlast

/-- What a delivery that is done did to the packages is done to them by another one without faults,
unless a total leaves its range. -/
theorem rows_restore_again (hpackages : v.packages = w.packages) (hk : w.packages.tables.Keyed)
    (htokens : Exchangeable token token' w.packages.tables)
    (hfirst : restore token m w = (.done events, a))
    (hrange : (restore token' m (v.withFaults .none)).1 ≠ .aborted) :
    ∃ events' b, restore token' m (v.withFaults .none) = (.done events', b) ∧
      Forall₂ (SameUpToToken token token' w.packages.tables) a.packages.tables.packages
        b.packages.tables.packages := by
  obtain ⟨horg, tx, c, hflow, rfl⟩ := restore_eq_done.1 hfirst
  have hkeyed : w.packages.begin.working.Keyed := hk
  have hagain : Restoration.Repeats token token' w.packages.tables tx (Restoration.restore token' m)
      (w.packages.begin, (v.withFaults .none).content) :=
    Restoration.repeats_restore hkeyed htokens rfl ⟨rfl, rfl⟩ hflow
  rw [← hpackages] at horg hagain
  rcases hagain with haborted | ⟨events', ⟨tx', c'⟩, hflow', hmatches⟩
  · exact absurd (restore_of_aborted (w := v.withFaults .none) horg.symm haborted) hrange
  · refine ⟨events', _, restore_eq_done.2 ⟨horg, tx', c', hflow', rfl⟩, ?_⟩
    rw [report_eq m events, report_eq m events', ← hpackages]
    exact hmatches.imp fun _ _ hpq => SameUpToToken.of_alike hpq

/-- After failed deliveries a delivery without faults is done, unless a total leaves its range, if one
without faults would have been done at the start, and it comes to the same end. The faults may
change between the failed deliveries, and their tokens play no part. The tokens of the two that are
done may be fresh or the same; one that happens to be in the name of a sibling might give no free name. -/
theorem redelivery_converges (hk : w.packages.tables.Keyed) (hids : VersionsDiffer w)
    (htokens : Exchangeable token token' w.packages.tables)
    (hfirst : restore token m (w.withFaults .none) = (.done events, a))
    (hfailed : FailedDeliveries m w v)
    (hrange : (restore token' m (v.withFaults .none)).1 ≠ .aborted) :
    ∃ events' b, restore token' m (v.withFaults .none) = (.done events', b) ∧
      SameEnd token token' w.packages.tables a b := by
  obtain ⟨hpackages, -⟩ := hfailed.kept
  obtain ⟨events', b, hlast, hrows⟩ :=
    rows_restore_again (w := w.withFaults .none) hpackages hk htokens hfirst hrange
  obtain ⟨found, hcleared⟩ := cleared_of_restore (w := w.withFaults .none) hk hfirst
  have hkeyed : v.packages.tables.Keyed := by
    rw [hpackages]
    exact hk
  obtain ⟨found', hcleared'⟩ := cleared_of_restore (w := v.withFaults .none) hkeyed hlast
  have hthins : (w.withFaults .none).content.Thins
      ((leafRows w.packages.tables w.packages.way m).map Package.nodeId)
      (v.withFaults .none).content := hfailed.thins hk
  have hsame : leafRows (v.withFaults .none).packages.tables (v.withFaults .none).packages.way m =
      leafRows w.packages.tables w.packages.way m :=
    congrArg (fun s : PackageStore => leafRows s.tables s.way m) hpackages
  rw [hsame] at hcleared'
  obtain ⟨hrecords, hversions⟩ := hthins.cleared_eq hids hcleared hcleared'
  exact ⟨events', b, hlast, hrows, hrecords, hversions⟩

/-- In the small workspace a delivery after one that failed to delete one marker, with the same token or
with another one, comes to the same end as a single delivery. -/
theorem redelivery_converges_sample :
    ∃ events a, restore sampleToken sampleMessage (sample.withFaults .none) = (.done events, a) ∧
      FailedDeliveries sampleMessage sample (sampleAfter ⟨["y"], false, 0⟩) ∧
      ∀ token' ∈ [sampleToken, fun _ => "other"], ∃ events' b,
        restore token' sampleMessage ((sampleAfter ⟨["y"], false, 0⟩).withFaults .none) =
          (.done events', b) ∧
        SameEnd sampleToken token' sampleTables a b := by
  obtain ⟨events, hfirst⟩ := restore_of_isDone sampleToken sampleMessage (sample.withFaults .none)
    (by decide +kernel)
  have hfailed : FailedDeliveries sampleMessage sample (sampleAfter ⟨["y"], false, 0⟩) :=
    .next _ _ .none (by decide +kernel)
  have hids : VersionsDiffer sample := versionsDiffer_of_objects (by decide)
  have hother : Exchangeable sampleToken (fun _ => "other") sampleTables :=
    Restoration.exchangeable_of_fresh (by decide +kernel) (by decide +kernel)
  refine ⟨events, _, hfirst, hfailed, ?_⟩
  rw [List.forall_mem_cons, List.forall_mem_singleton]
  constructor
  · exact redelivery_converges forest_sampleTables.keyed hids (Restoration.exchangeable_self _ _)
      hfirst hfailed (by decide +kernel)
  · exact redelivery_converges forest_sampleTables.keyed hids hother hfirst hfailed
      (by decide +kernel)

end Salvage.Workspace
