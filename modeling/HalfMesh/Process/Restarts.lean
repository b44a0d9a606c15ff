import HalfMesh.Process.Versions
import HalfMesh.Mesh.Locality

/-! Versions across restarts. The counter lives in the process, so a new process starts again at
version 1 whatever the stores hold by then, while clients and the versions they last accepted
outlive it: the same version text may stand for other resources. Within one life it identifies the
content. -/
namespace HalfMesh
open HalfMesh.Foundations HalfMesh.Kube HalfMesh.Xds
set_option autoImplicit false
set_option maxHeartbeats 250000
set_option maxRecDepth 120000

/-- Two resources of a type, equal up to the order of weighted clusters. -/
def ResourceEquiv : (t : ResourceType) → ResourceOf t → ResourceOf t → Prop
  | .listener => Eq
  | .route => RouteConfiguration.Equiv
  | .cluster => Eq
  | .endpoint => Eq

/-- The same resources of a type under the same names. -/
def SameItems (t : ResourceType) (m m' : GoMap String (ResourceOf t)) : Prop :=
  ∀ n, Option.Rel (ResourceEquiv t) (m.lookup n) (m'.lookup n)

/-- A version that two snapshots both report for some type stands for the same resources. -/
def VersionIdentifiesContent (passed : List Passed) : Prop :=
  ∀ x ∈ passed, ∀ y ∈ passed, ∀ t, x.snapshot.version t = y.snapshot.version t →
    SameItems t (x.snapshot.items t) (y.snapshot.items t)

theorem routeConfiguration_equiv_refl (rc : RouteConfiguration) : rc.Equiv rc := by
  have hroute : ∀ r : Route, r.Equiv r := fun r => ⟨rfl, List.Perm.refl _⟩
  have hhost : ∀ vh : VirtualHost, vh.Equiv vh := fun vh => ⟨rfl, rfl, List.forall₂_same.mpr fun r _ => hroute r⟩
  exact ⟨rfl, rfl, List.forall₂_same.mpr fun vh _ => hhost vh⟩

theorem resourceEquiv_refl (t : ResourceType) (x : ResourceOf t) : ResourceEquiv t x x := by
  cases t with
  | listener => rfl
  | route => exact routeConfiguration_equiv_refl x
  | cluster => rfl
  | endpoint => rfl

theorem sameItems_of_eq {t : ResourceType} {m m' : GoMap String (ResourceOf t)} (h : m = m') : SameItems t m m' := by
  intro n
  rw [h]
  cases m'.lookup n with
  | none => exact .none
  | some x => exact .some (resourceEquiv_refl t x)

/-- The second life starts after `service-beta` was deleted. -/
def demoLives : List (List UpdateCall) := [[demoCall demoWatcher none], [demoCall demoWithoutBeta none]]

theorem demoLives_spec : ∀ calls ∈ demoLives, ∀ call ∈ calls, NewSnapshotSpec call.lib.newSnapshot := by
  intro calls hcalls call hcall
  simp only [demoLives, List.mem_cons, List.not_mem_nil, or_false] at hcalls
  rcases hcalls with rfl | rfl
  · rw [List.mem_singleton.mp hcall]
    exact newSnapshotSpec_indexSnapshot
  · rw [List.mem_singleton.mp hcall]
    exact newSnapshotSpec_indexSnapshot

/-- Both lives report version 1 for their clusters, and only the first publishes `service-beta`. -/
theorem not_versionIdentifiesContent_demo :
    (∀ calls ∈ demoLives, ∀ call ∈ calls, NewSnapshotSpec call.lib.newSnapshot) ∧
      ¬ VersionIdentifiesContent (runLives demoLives).flatten := by
  refine ⟨demoLives_spec, fun h => ?_⟩
  have hreports : (runLives demoLives).flatten.map (fun x => (x.snapshot.version .cluster,
      ((x.snapshot.items .cluster).lookup "default/service-beta").isSome)) = [("1", true), ("1", false)] := by
    decide
  obtain ⟨x, rest, hxs, hx, hrest⟩ := List.map_eq_cons_iff.mp hreports
  obtain ⟨y, _, hys, hy, _⟩ := List.map_eq_cons_iff.mp hrest
  have hinx : x ∈ (runLives demoLives).flatten := by
    rw [hxs]
    exact List.mem_cons_self ..
  have hiny : y ∈ (runLives demoLives).flatten := by
    rw [hxs, hys]
    exact List.mem_cons_of_mem _ (List.mem_cons_self ..)
  obtain ⟨hvx, hbx⟩ := Prod.mk.inj hx
  obtain ⟨hvy, hby⟩ := Prod.mk.inj hy
  have hsame := h x hinx y hiny .cluster (hvx.trans hvy.symm) "default/service-beta"
  obtain ⟨b, hb⟩ := Option.isSome_iff_exists.mp hbx
  have hnone := Option.isSome_eq_false_iff.mp hby
  rw [hb, Option.isNone_iff_eq_none.mp hnone] at hsame
  cases hsame

section Lives
variable {calls : List UpdateCall} {x y : Passed}

/-- Two snapshots of one life with one version, not a whole range of the counter apart, are the
same snapshot. -/
theorem eq_of_version (hspec : ∀ call ∈ calls, NewSnapshotSpec call.lib.newSnapshot) {i j : ℕ}
    (hi : (runCalls Process.initial calls).passed[i]? = some x)
    (hj : (runCalls Process.initial calls).passed[j]? = some y)
    (hij : i < j + 2 ^ 64) (hji : j < i + 2 ^ 64) {t : ResourceType}
    (hx : x.isEmpty = false) (hy : y.isEmpty = false)
    (hv : x.snapshot.version t = y.snapshot.version t) : x = y := by
  have hnum := numbered_runCalls calls
  have hbx := hnum.built x (List.mem_of_getElem? hi)
  have hby := hnum.built y (List.mem_of_getElem? hj)
  rw [hbx.version_of_nonempty hspec hx, hby.version_of_nonempty hspec hy] at hv
  have hver := itoa_injective hv
  rw [hnum.numbers i x hi, hnum.numbers j y hj] at hver
  have he := bmod_inj_of_near hver hij hji
  subst he
  exact Option.some.inj (hi.symm.trans hj)

theorem items_of_empty_version (hspec : ∀ call ∈ calls, NewSnapshotSpec call.lib.newSnapshot)
    (hx : BuiltBy calls x) {t : ResourceType} (hv : x.snapshot.version t = "") : x.snapshot.items t = ∅ := by
  cases he : x.isEmpty with
  | true => exact (hx.absent_of_empty hspec he t).2
  | false =>
    rw [hx.version_of_nonempty hspec he t] at hv
    exact absurd hv (itoa_ne_empty x.version)

theorem nonempty_of_version (hspec : ∀ call ∈ calls, NewSnapshotSpec call.lib.newSnapshot)
    (hx : BuiltBy calls x) {t : ResourceType} (hv : x.snapshot.version t ≠ "") : x.isEmpty = false := by
  cases he : x.isEmpty with
  | false => rfl
  | true => exact absurd (hx.absent_of_empty hspec he t).1 hv

end Lives

/-- What a version identifies: within one life the content, as long as the counter has not gone
round between the two snapshots, and in any two lives the content of an empty mesh. -/
theorem version_identifies_content (lives : List (List UpdateCall))
    (hspec : ∀ calls ∈ lives, ∀ call ∈ calls, NewSnapshotSpec call.lib.newSnapshot) :
    (∀ passed ∈ runLives lives, ∀ (i j : ℕ) (x y : Passed), passed[i]? = some x → passed[j]? = some y →
      i < j + 2 ^ 64 → j < i + 2 ^ 64 → ∀ t, x.snapshot.version t = y.snapshot.version t →
        SameItems t (x.snapshot.items t) (y.snapshot.items t)) ∧
    ∀ x ∈ (runLives lives).flatten, ∀ y ∈ (runLives lives).flatten, ∀ t,
      x.snapshot.version t = "" → y.snapshot.version t = "" →
        SameItems t (x.snapshot.items t) (y.snapshot.items t) := by
  have hnone : ∀ x ∈ (runLives lives).flatten, ∀ t, x.snapshot.version t = "" → x.snapshot.items t = ∅ := by
    intro x hx t hv
    obtain ⟨passed, hlife, hin⟩ := List.mem_flatten.mp hx
    obtain ⟨calls, hcalls, rfl⟩ := List.mem_map.mp hlife
    exact items_of_empty_version (hspec calls hcalls) ((numbered_runCalls calls).built x hin) hv
  have hempty : ∀ x ∈ (runLives lives).flatten, ∀ y ∈ (runLives lives).flatten, ∀ t,
      x.snapshot.version t = "" → y.snapshot.version t = "" →
        SameItems t (x.snapshot.items t) (y.snapshot.items t) := by
    intro x hx y hy t hvx hvy
    exact sameItems_of_eq ((hnone x hx t hvx).trans (hnone y hy t hvy).symm)
  refine ⟨fun passed hlife i j x y hi hj hij hji t hv => ?_, hempty⟩
  have hx : x ∈ (runLives lives).flatten := List.mem_flatten.mpr ⟨passed, hlife, List.mem_of_getElem? hi⟩
  have hy : y ∈ (runLives lives).flatten := List.mem_flatten.mpr ⟨passed, hlife, List.mem_of_getElem? hj⟩
  by_cases hvx : x.snapshot.version t = ""
  · exact hempty x hx y hy t hvx (hv ▸ hvx)
  · obtain ⟨calls, hcalls, rfl⟩ := List.mem_map.mp hlife
    have hs := hspec calls hcalls
    have hbuilt := (numbered_runCalls calls).built
    have hnx := nonempty_of_version hs (hbuilt x (List.mem_of_getElem? hi)) hvx
    have hny := nonempty_of_version hs (hbuilt y (List.mem_of_getElem? hj)) (hv ▸ hvx)
    rw [eq_of_version hs hi hj hij hji hnx hny hv]
    exact sameItems_of_eq rfl

/-- Two lives of several snapshots each: both report version 1 and the empty version. -/
def demoRestart : List (List UpdateCall) :=
  [demoCalls, [demoCall demoWithoutBeta none, demoCall { demoWatcher with svcIndexer := ∅ } none]]

theorem demoRestart_spec : ∀ calls ∈ demoRestart, ∀ call ∈ calls, NewSnapshotSpec call.lib.newSnapshot := by
  intro calls hcalls call hcall
  simp only [demoRestart, List.mem_cons, List.not_mem_nil, or_false] at hcalls
  rcases hcalls with rfl | rfl
  · exact demoCalls_spec call hcall
  · simp only [List.mem_cons, List.not_mem_nil, or_false] at hcall
    rcases hcall with rfl | rfl <;> exact newSnapshotSpec_indexSnapshot

theorem version_identifies_content_demo :
    (runLives demoRestart).map (List.map fun x => x.snapshot.version .cluster) = [["1", "2", ""], ["1", ""]] ∧
    (∀ passed ∈ runLives demoRestart, ∀ (i j : ℕ) (x y : Passed), passed[i]? = some x → passed[j]? = some y →
      i < j + 2 ^ 64 → j < i + 2 ^ 64 → ∀ t, x.snapshot.version t = y.snapshot.version t →
        SameItems t (x.snapshot.items t) (y.snapshot.items t)) ∧
    ∀ x ∈ (runLives demoRestart).flatten, ∀ y ∈ (runLives demoRestart).flatten, ∀ t,
      x.snapshot.version t = "" → y.snapshot.version t = "" →
        SameItems t (x.snapshot.items t) (y.snapshot.items t) :=
  ⟨by decide, version_identifies_content demoRestart demoRestart_spec⟩

end HalfMesh
