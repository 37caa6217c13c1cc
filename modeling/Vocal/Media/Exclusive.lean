import Mathlib.Data.List.Nodup
import Vocal.Media.Controller

/-!
# No port has two sessions

A port is marked as busy exactly while a session in the map owns it, and no two of them own the same, as long as no freed
session is destroyed after its port was given to another one: its destructor clears the flag of that port once more.
-/

namespace Vocal.Media

namespace MediaController

variable {c d : MediaController} {s : MediaSession}

/-- What the busy flags are for. -/
structure Exclusive (c : MediaController) : Prop where
  owners : (c.myMediaSessionMap.map (·.myLocalRes)).Nodup
  busy : ∀ i r, c.myNetworkResList[i]? = some r → (r.busy = true ↔ ∃ s ∈ c.myMediaSessionMap, s.myLocalRes = i)

/-- The sessions point into the list, and the numbers in the map are different and were all given out. -/
structure Wellformed (c : MediaController) : Prop where
  inRange : ∀ s ∈ c.myMediaSessionMap ++ c.freed, s.myLocalRes < c.myNetworkResList.length
  fresh : ∀ s ∈ c.myMediaSessionMap, s.mySessionId < c.myRollingSessionId
  unique : (c.myMediaSessionMap.map (·.mySessionId)).Nodup

/-- The step does not destroy a session whose port another one in the map has by now. -/
def Keeps (c : MediaController) : Op → Prop
  | .release sId => ∀ s ∈ c.freed? sId, s.holders ≤ 1 → ∀ t ∈ c.myMediaSessionMap, t.myLocalRes ≠ s.myLocalRes
  | _ => True

/-! ### Ports -/

@[simp] theorem length_setRes (i : Nat) (f : NetworkRes → NetworkRes) :
    (c.setRes i f).myNetworkResList.length = c.myNetworkResList.length := List.length_modify ..

theorem getElem?_setRes (i j : Nat) (f : NetworkRes → NetworkRes) :
    (c.setRes i f).myNetworkResList[j]? =
      if i = j then c.myNetworkResList[j]?.map f else c.myNetworkResList[j]? := by
  rw [setRes, List.getElem?_modify]
  split
  · rfl
  · exact Option.map_id'

theorem getElem?_tearDown (j : Nat) :
    (c.tearDown s).myNetworkResList[j]? =
      if s.myLocalRes = j then c.myNetworkResList[j]?.map (·.setBusy false) else c.myNetworkResList[j]? :=
  getElem?_setRes ..

theorem getElem?_destroy (j : Nat) :
    (c.destroy s).myNetworkResList[j]? =
      if s.myLocalRes = j then c.myNetworkResList[j]?.map fun r => (r.setBusy false).setOwner none
      else c.myNetworkResList[j]? := by
  rw [destroy, getElem?_setRes, getElem?_setRes, getElem?_tearDown]
  by_cases hj : s.myLocalRes = j
  · simp only [if_pos hj, Option.map_map]
    rfl
  · simp only [if_neg hj]

theorem exclusive_destroy_iff (h : c.Exclusive) (hrange : s.myLocalRes < c.myNetworkResList.length) :
    (c.destroy s).Exclusive ↔ ∀ t ∈ c.myMediaSessionMap, t.myLocalRes ≠ s.myLocalRes := by
  constructor
  · intro hd t ht hres
    have hfree : (c.destroy s).myNetworkResList[s.myLocalRes]? =
        some ((c.myNetworkResList[s.myLocalRes].setBusy false).setOwner none) := by
      rw [getElem?_destroy, if_pos rfl, List.getElem?_eq_getElem hrange]
      rfl
    exact Bool.false_ne_true ((hd.busy _ _ hfree).mpr ⟨t, ht, hres⟩)
  · intro hfree
    refine ⟨h.owners, fun i r hr => ?_⟩
    rw [getElem?_destroy] at hr
    split at hr
    · rename_i hi
      obtain ⟨r', -, rfl⟩ := Option.map_eq_some_iff.mp hr
      refine iff_of_false Bool.false_ne_true ?_
      rintro ⟨t, ht, hres⟩
      exact hfree t ht (hres.trans hi.symm)
    · exact h.busy i r hr

/-! ### Steps -/

theorem exclusive_erase (h : c.Exclusive) (hunique : (c.myMediaSessionMap.map (·.mySessionId)).Nodup)
    (hs : s ∈ c.myMediaSessionMap) :
    let d := { c.tearDown s with
      myMediaSessionMap := c.myMediaSessionMap.filter fun t => t.mySessionId ≠ s.mySessionId }
    d.Exclusive ∧ ∀ t ∈ d.myMediaSessionMap, t.myLocalRes ≠ s.myLocalRes := by
  have hgone : ∀ t ∈ c.myMediaSessionMap.filter (fun t => t.mySessionId ≠ s.mySessionId),
      t.myLocalRes ≠ s.myLocalRes := by
    intro t ht hres
    obtain ⟨hmem, hid⟩ := List.mem_filter.mp ht
    exact of_decide_eq_true hid (List.inj_on_of_nodup_map h.owners hmem hs hres ▸ rfl)
  refine ⟨⟨h.owners.sublist (List.filter_sublist.map _), fun i r hr => ?_⟩, hgone⟩
  have hr' : (c.tearDown s).myNetworkResList[i]? = some r := hr
  rw [getElem?_tearDown] at hr'
  split at hr'
  · rename_i hi
    obtain ⟨r', -, rfl⟩ := Option.map_eq_some_iff.mp hr'
    refine iff_of_false Bool.false_ne_true ?_
    rintro ⟨t, ht, hres⟩
    exact hgone t ht (hres.trans hi.symm)
  · rename_i hi
    rw [h.busy i r hr']
    constructor
    · rintro ⟨t, ht, hres⟩
      refine ⟨t, List.mem_filter.mpr ⟨ht, decide_eq_true fun hid => hi ?_⟩, hres⟩
      rw [← hres, List.inj_on_of_nodup_map hunique ht hs hid]
    · rintro ⟨t, ht, hres⟩
      exact ⟨t, (List.mem_filter.mp ht).1, hres⟩

theorem of_session? {sId : Nat} (h : c.session? sId = some s) :
    s ∈ c.myMediaSessionMap ∧ s.mySessionId = sId :=
  ⟨List.mem_of_find?_eq_some h, by simpa using List.find?_some h⟩

theorem of_freed? {sId : Nat} (h : c.freed? sId = some s) : s ∈ c.freed := List.mem_of_find?_eq_some h

theorem exclusive_modifySession (h : c.Exclusive) (sId : Nat) {f : MediaSession → MediaSession}
    (hf : ∀ s, (f s).myLocalRes = s.myLocalRes) : (c.modifySession sId f).Exclusive := by
  have hres : ∀ s : MediaSession, (if s.mySessionId = sId then f s else s).myLocalRes = s.myLocalRes := by
    intro s
    split
    · exact hf s
    · rfl
  refine ⟨?_, fun i r hr => ?_⟩
  · rw [modifySession, List.map_map]
    simpa only [Function.comp_def, hres] using h.owners
  · rw [h.busy i r hr, modifySession]
    simp only [List.mem_map, exists_exists_and_eq_and, hres]

theorem exclusive_createSessionImpl (h : c.Exclusive) (hd : c.createSessionImpl = some d) : d.Exclusive := by
  rw [createSessionImpl] at hd
  dsimp only at hd
  split at hd
  · cases hd
  · rename_i i hfind
    obtain ⟨hi, hfree, -⟩ := List.findIdx?_eq_some_iff_getElem.mp hfind
    have hidle : c.myNetworkResList[i].busy = false := by
      rw [Bool.not_eq_true', isBusy, Bool.or_eq_false_iff] at hfree
      exact hfree.1
    have hnone : ∀ s ∈ c.myMediaSessionMap, s.myLocalRes ≠ i := by
      intro s hs hres
      rw [(h.busy i _ (List.getElem?_eq_getElem hi)).mpr ⟨s, hs, hres⟩] at hidle
      cases hidle
    split at hd
    · cases hd
    · obtain rfl := Option.some.inj hd
      refine ⟨?_, fun j r hr => ?_⟩
      · rw [List.map_append, List.map_singleton, List.nodup_append]
        refine ⟨h.owners, List.nodup_singleton _, fun k hk j hj => ?_⟩
        obtain ⟨s, hs, rfl⟩ := List.mem_map.mp hk
        rw [List.mem_singleton.mp hj]
        exact hnone s hs
      · have hr' : (c.setRes i fun r => (r.setBusy true).setOwner (some c.myRollingSessionId)).myNetworkResList[j]? =
            some r := hr
        rw [getElem?_setRes] at hr'
        simp only [List.mem_append, List.mem_singleton]
        split at hr'
        · rename_i hj
          obtain ⟨r', -, rfl⟩ := Option.map_eq_some_iff.mp hr'
          exact iff_of_true rfl ⟨_, Or.inr rfl, hj⟩
        · rename_i hj
          rw [h.busy j r hr']
          constructor
          · rintro ⟨s, hs, hres⟩
            exact ⟨s, Or.inl hs, hres⟩
          · rintro ⟨s, hs | rfl, hres⟩
            · exact ⟨s, hs, hres⟩
            · exact absurd hres hj

theorem exclusive_freeSession (h : c.Exclusive) (hw : c.Wellformed) (sId : Nat) : (c.freeSession sId).Exclusive := by
  rw [freeSession]
  split
  · exact h
  · rename_i s hs
    obtain ⟨hmem, rfl⟩ := of_session? hs
    obtain ⟨herased, hgone⟩ := exclusive_erase h hw.unique hmem
    dsimp only
    split
    · refine (exclusive_destroy_iff herased ?_).mpr hgone
      show s.myLocalRes < (c.setRes s.myLocalRes _).myNetworkResList.length
      rw [length_setRes]
      exact hw.inRange s (List.mem_append_left _ hmem)
    · exact ⟨herased.owners, herased.busy⟩

theorem exclusive_release_iff (h : c.Exclusive) (hw : c.Wellformed) (sId : Nat) :
    (c.release sId).Exclusive ↔ c.Keeps (.release sId) := by
  rw [release, Keeps]
  cases hfreed : c.freed? sId with
  | none => exact iff_of_true (exclusive_modifySession h sId fun _ => rfl) (by rintro _ ⟨⟩)
  | some s =>
    simp only [Option.mem_some_iff, forall_eq']
    split
    · rename_i hlast
      have hrange := hw.inRange s (List.mem_append_right _ (of_freed? hfreed))
      have hrest : Exclusive { c with freed := c.freed.filter fun t => t.mySessionId ≠ sId } := ⟨h.owners, h.busy⟩
      rw [exclusive_destroy_iff hrest hrange]
      exact ⟨fun hkeeps _ => hkeeps, fun hkeeps => hkeeps hlast⟩
    · rename_i hlast
      exact iff_of_true ⟨h.owners, h.busy⟩ fun hle => absurd hle hlast

/-- A step keeps the flags right exactly when it meets the condition. -/
theorem exclusive_step_iff (h : c.Exclusive) (hw : c.Wellformed) {op : Op} (hd : c.step op = some d) :
    d.Exclusive ↔ c.Keeps op := by
  cases op with
  | create => exact iff_of_true (exclusive_createSessionImpl h hd) trivial
  | free sId =>
    obtain rfl := Option.some.inj hd
    exact iff_of_true (exclusive_freeSession h hw sId) trivial
  | get sId =>
    simp only [step, getSession] at hd
    split at hd
    · obtain rfl := Option.some.inj hd
      exact iff_of_true (exclusive_modifySession h sId fun _ => rfl) trivial
    · cases hd
  | add sId rtp =>
    simp only [step, addToSession] at hd
    split at hd
    · obtain rfl := Option.some.inj hd
      exact iff_of_true (exclusive_modifySession h sId fun _ => rfl) trivial
    · cases hd
  | release sId =>
    obtain rfl := Option.some.inj hd
    exact exclusive_release_iff h hw sId

/-! ### Runs -/

theorem wellformed_of_maps (h : c.Wellformed) (hlength : d.myNetworkResList.length = c.myNetworkResList.length)
    (hrolling : d.myRollingSessionId = c.myRollingSessionId)
    (hinRange : ∀ s ∈ d.myMediaSessionMap ++ d.freed, ∃ t ∈ c.myMediaSessionMap ++ c.freed, t.myLocalRes = s.myLocalRes)
    (hmap : (d.myMediaSessionMap.map (·.mySessionId)).Sublist (c.myMediaSessionMap.map (·.mySessionId))) :
    d.Wellformed := by
  refine ⟨fun s hs => ?_, fun s hs => ?_, h.unique.sublist hmap⟩
  · obtain ⟨t, ht, hres⟩ := hinRange s hs
    rw [hlength, ← hres]
    exact h.inRange t ht
  · obtain ⟨t, ht, hid⟩ := List.mem_map.mp (hmap.subset (List.mem_map.mpr ⟨s, hs, rfl⟩))
    rw [hrolling, ← hid]
    exact h.fresh t ht

theorem wellformed_modifySession (h : c.Wellformed) (sId : Nat) {f : MediaSession → MediaSession}
    (hres : ∀ s, (f s).myLocalRes = s.myLocalRes) (hid : ∀ s, (f s).mySessionId = s.mySessionId) :
    (c.modifySession sId f).Wellformed := by
  refine wellformed_of_maps h rfl rfl (fun s hs => ?_) ?_
  · rcases List.mem_append.mp hs with hs | hs
    · obtain ⟨t, ht, rfl⟩ := List.mem_map.mp hs
      refine ⟨t, List.mem_append_left _ ht, ?_⟩
      split
      · exact (hres t).symm
      · rfl
    · exact ⟨s, List.mem_append_right _ hs, rfl⟩
  · have heq : (fun s : MediaSession => (if s.mySessionId = sId then f s else s).mySessionId) = (·.mySessionId) := by
      funext s
      split
      · exact hid s
      · rfl
    rw [modifySession, List.map_map, Function.comp_def, heq]

theorem wellformed_createSessionImpl (h : c.Wellformed) (hd : c.createSessionImpl = some d) : d.Wellformed := by
  rw [createSessionImpl] at hd
  dsimp only at hd
  split at hd
  · cases hd
  · rename_i i hfind
    obtain ⟨hi, -⟩ := List.findIdx?_eq_some_iff_getElem.mp hfind
    split at hd
    · cases hd
    · obtain rfl := Option.some.inj hd
      refine ⟨fun s hs => ?_, fun s hs => ?_, ?_⟩
      · show s.myLocalRes < (c.setRes i _).myNetworkResList.length
        rw [length_setRes]
        rcases List.mem_append.mp hs with hs | hs
        · rcases List.mem_append.mp hs with hs | hs
          · exact h.inRange s (List.mem_append_left _ hs)
          · rw [List.mem_singleton.mp hs]
            exact hi
        · exact h.inRange s (List.mem_append_right _ hs)
      · rcases List.mem_append.mp hs with hs | hs
        · exact Nat.lt_succ_of_lt (h.fresh s hs)
        · rw [List.mem_singleton.mp hs]
          exact Nat.lt_succ_self _
      · rw [List.map_append, List.map_singleton, List.nodup_append]
        refine ⟨h.unique, List.nodup_singleton _, fun k hk j hj => ?_⟩
        obtain ⟨s, hs, rfl⟩ := List.mem_map.mp hk
        rw [List.mem_singleton.mp hj]
        exact Nat.ne_of_lt (h.fresh s hs)

theorem wellformed_freeSession (h : c.Wellformed) (sId : Nat) : (c.freeSession sId).Wellformed := by
  rw [freeSession]
  split
  · exact h
  · rename_i s hs
    have hmem := (of_session? hs).1
    have hmap := (List.filter_sublist (p := fun t : MediaSession => t.mySessionId ≠ sId)
      (l := c.myMediaSessionMap)).map (·.mySessionId)
    dsimp only
    split
    · refine wellformed_of_maps h ?_ rfl (fun t ht => ?_) hmap
      · simp [destroy, tearDown]
      · rcases List.mem_append.mp ht with ht | ht
        · exact ⟨t, List.mem_append_left _ (List.mem_filter.mp ht).1, rfl⟩
        · exact ⟨t, List.mem_append_right _ ht, rfl⟩
    · refine wellformed_of_maps h ?_ rfl (fun t ht => ?_) hmap
      · exact length_setRes ..
      · rcases List.mem_append.mp ht with ht | ht
        · exact ⟨t, List.mem_append_left _ (List.mem_filter.mp ht).1, rfl⟩
        · rcases List.mem_cons.mp ht with rfl | ht
          · exact ⟨s, List.mem_append_left _ hmem, rfl⟩
          · exact ⟨t, List.mem_append_right _ ht, rfl⟩

theorem wellformed_release (h : c.Wellformed) (sId : Nat) : (c.release sId).Wellformed := by
  rw [release]
  split
  · exact wellformed_modifySession h sId (fun _ => rfl) fun _ => rfl
  · split
    · refine wellformed_of_maps h ?_ rfl (fun t ht => ?_) (List.Sublist.refl _)
      · simp [destroy, tearDown]
      · rcases List.mem_append.mp ht with ht | ht
        · exact ⟨t, List.mem_append_left _ ht, rfl⟩
        · exact ⟨t, List.mem_append_right _ (List.mem_filter.mp ht).1, rfl⟩
    · refine wellformed_of_maps h rfl rfl (fun t ht => ?_) (List.Sublist.refl _)
      rcases List.mem_append.mp ht with ht | ht
      · exact ⟨t, List.mem_append_left _ ht, rfl⟩
      · obtain ⟨u, hu, rfl⟩ := List.mem_map.mp ht
        refine ⟨u, List.mem_append_right _ hu, ?_⟩
        split <;> rfl

theorem wellformed_step (h : c.Wellformed) {op : Op} (hd : c.step op = some d) : d.Wellformed := by
  cases op with
  | create => exact wellformed_createSessionImpl h hd
  | free sId =>
    obtain rfl := Option.some.inj hd
    exact wellformed_freeSession h sId
  | get sId =>
    simp only [step, getSession] at hd
    split at hd
    · obtain rfl := Option.some.inj hd
      exact wellformed_modifySession h sId (fun _ => rfl) fun _ => rfl
    · cases hd
  | add sId rtp =>
    simp only [step, addToSession] at hd
    split at hd
    · obtain rfl := Option.some.inj hd
      exact wellformed_modifySession h sId (fun _ => rfl) fun _ => rfl
    · cases hd
  | release sId =>
    obtain rfl := Option.some.inj hd
    exact wellformed_release h sId

theorem wellformed_initial (ports : List Nat) : (initial ports).Wellformed :=
  ⟨by rintro _ ⟨⟩, by rintro _ ⟨⟩, List.nodup_nil⟩

theorem exclusive_initial (ports : List Nat) : (initial ports).Exclusive := by
  refine ⟨List.nodup_nil, fun i r hr => ?_⟩
  have hmem : r ∈ ports.map fun port => ({ port } : NetworkRes) := List.mem_of_getElem? hr
  obtain ⟨port, -, rfl⟩ := List.mem_map.mp hmem
  exact iff_of_false Bool.false_ne_true (by rintro ⟨_, ⟨⟩, _⟩)

/-- In every state of a run the ports in use have one session each and are marked, and no others are, exactly when no
step of the run destroys a freed session whose port a session in the map has by then. -/
theorem ports_exclusive_iff (ports : List Nat) (ops : List Op) :
    (machine ports).Throughout (fun c => ∀ c' ∈ c, c'.Exclusive) (machine ports).init ops ↔
      (machine ports).Along (fun c op => ∀ c' ∈ c, c'.Keeps op) (machine ports).init ops := by
  refine Machine.throughout_iff_along (I := fun c => ∀ c' ∈ c, c'.Wellformed) ?_ ?_ ops _ ?_ ?_
  · intro c op hw d hd
    obtain ⟨c', rfl, hstep⟩ := Option.bind_eq_some_iff.mp hd
    exact wellformed_step (hw c' rfl) hstep
  · intro c op hw h
    cases c with
    | none => exact iff_of_true (by rintro _ ⟨⟩) (by rintro _ ⟨⟩)
    | some c' =>
      simp only [Option.mem_some_iff, forall_eq'] at hw h ⊢
      cases hd : c'.step op with
      | none =>
        have hkeeps : c'.Keeps op := by
          cases op with
          | release sId => cases hd
          | create | free sId | get sId | add sId rtp => trivial
        refine iff_of_true (fun d hd' => ?_) hkeeps
        have hnone : (machine ports).next (some c') op = none := hd
        rw [hnone] at hd'
        cases hd'
      | some d =>
        rw [← exclusive_step_iff h hw hd]
        have hnext : (machine ports).next (some c') op = some d := hd
        simp only [hnext, Option.mem_some_iff, forall_eq']
  · exact fun c' hc => Option.some.inj hc ▸ wellformed_initial ports
  · exact fun c' hc => Option.some.inj hc ▸ exclusive_initial ports

/-- A caller lets the first session go when its port belongs to the second, and the third gets the port, too. -/
def lateRelease : List Op := [.create, .get 1, .free 1, .create, .release 1, .create]

theorem not_ports_exclusive :
    ¬ (machine [5004, 5006]).Throughout (fun c => ∀ c' ∈ c, c'.Exclusive) (machine [5004, 5006]).init lateRelease :=
  fun h => absurd (h.last _ rfl).owners (by decide)

end MediaController

end Vocal.Media
